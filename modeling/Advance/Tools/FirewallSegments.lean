import Advance.Tools.ShellCommands
import Advance.Tools.TrunkWriteFirewall

/-! # The segments of a command line

The text of a command line is read in stretches, from one `&&`, `||`, `;` or `|` to the next.
-/

namespace Advance.Tools

open Advance.Foundation
open Advance.Utils (isJsWhitespace trim)
open Pattern

/-! ## Stretches -/

/-- A piece, or the operator `&`. -/
inductive Mark where
  | piece (piece : Piece)
  | ampersand

def Mark.spelled : Mark → List Char
  | .piece own => own.spelled
  | .ampersand => ['&']

/-- Commands that `&` and new lines join, with what stands before each mark. -/
structure Stretch where
  marks : List (List Char × Mark)
  after : List Char

def markText (mark : List Char × Mark) : List Char := mark.1 ++ mark.2.spelled

def Stretch.text (stretch : Stretch) : List Char := stretch.marks.flatMap markText ++ stretch.after

def SimpleCommand.marks (lead : List Char) (command : SimpleCommand) : List (List Char × Mark) :=
  match command.pieces with
  | [] => []
  | first :: rest =>
    (lead ++ first.gap.val, .piece first.piece) :: rest.map fun spaced => (spaced.gap.val, .piece spaced.piece)

def stretchesFrom (current : Stretch) : List (Joint × SimpleCommand) → List Stretch
  | [] => [current]
  | (.newline, command) :: rest =>
    stretchesFrom ⟨current.marks ++ command.marks (current.after ++ ['\n']), command.after.val⟩ rest
  | (.background, command) :: rest =>
    stretchesFrom ⟨current.marks ++ (current.after, .ampersand) :: command.marks [], command.after.val⟩ rest
  | (.andIf, command) :: rest => current :: stretchesFrom ⟨command.marks [], command.after.val⟩ rest
  | (.orIf, command) :: rest => current :: stretchesFrom ⟨command.marks [], command.after.val⟩ rest
  | (.semicolon, command) :: rest => current :: stretchesFrom ⟨command.marks [], command.after.val⟩ rest
  | (.pipe, command) :: rest => current :: stretchesFrom ⟨command.marks [], command.after.val⟩ rest

def CommandLine.stretches (line : CommandLine) : List Stretch :=
  stretchesFrom ⟨line.first.marks [], line.first.after.val⟩ line.rest

/-! ## Legible stretches -/

def isArrow (text : List Char) : Bool := text = ['>'] || text = ['>', '>']

/-- A mark that is read as it is meant. -/
def LegibleMark : Mark → Prop
  | .ampersand => True
  | .piece own =>
    (own.lastWord.quoting = .bare → ∀ c ∈ own.lastWord.text, isJsWhitespace c = false) ∧
      isArrow own.lastWord.text = false ∧
      ∀ redirection, own = .redirection redirection → redirection.space.val = [] →
        redirection.target.quoting = .bare ∨ isArrow redirection.operatorText = true

/-- A stretch that is read as it is meant: it spells no operator that cuts it, its marks are apart,
    and each of them is legible. -/
structure Legible (stretch : Stretch) : Prop where
  separators : ∀ c ∈ stretch.text, c ≠ ';' ∧ c ≠ '|'
  conjunction : ¬ ['&', '&'] <:+: stretch.text
  apart : ∀ mark ∈ stretch.marks.tail, mark.1 ≠ []
  marks : ∀ mark ∈ stretch.marks, LegibleMark mark.2

/-! ## Texts of commands -/

/-- A text that neither `&` nor `|` ends. -/
def EndsPlainly (text : List Char) : Prop := ∀ c ∈ text.getLast?, c ≠ '&' ∧ c ≠ '|'

theorem literal_of_bare {word : Word} (bare : word.quoting = .bare) :
    word.text ≠ [] ∧ ∀ c ∈ word.text, isLiteralChar c = true := by
  have spellable := word.spellable
  rw [bare] at spellable
  exact ⟨spellable.1, spellable.2.1⟩

theorem spelled_of_bare {word : Word} (bare : word.quoting = .bare) : word.spelled = word.text := by
  rw [Word.spelled, bare]

theorem isLiteralChar_ne {c other : Char} (isLiteral : isLiteralChar c = true)
    (special : isLiteralChar other = false) : c ≠ other := by
  rintro rfl
  rw [isLiteral] at special
  cases special

theorem spelled_cases (word : Word) : (word.quoting = .bare ∧ word.spelled = word.text) ∨
      ∃ quote, isQuote quote = true ∧ quote ∉ word.text ∧ word.quoting ≠ .bare ∧
        word.spelled = quoted quote word.text := by
  have spellable := word.spellable
  cases quoting : word.quoting with
  | bare => exact .inl ⟨rfl, spelled_of_bare quoting⟩
  | single =>
    rw [quoting] at spellable
    exact .inr ⟨'\'', rfl, spellable, nofun, by rw [Word.spelled, quoting]⟩
  | double =>
    rw [quoting] at spellable
    refine .inr ⟨'"', rfl, fun member => ?_, nofun, by rw [Word.spelled, quoting]⟩
    exact absurd (spellable '"' member) (by decide)

theorem spelled_ne_nil (word : Word) : word.spelled ≠ [] := by
  rcases spelled_cases word with ⟨bare, same⟩ | ⟨quote, -, -, -, same⟩
  · rw [same]
    exact (literal_of_bare bare).1
  · rw [same]
    exact List.cons_ne_nil _ _

theorem spelled_endsPlainly (word : Word) : EndsPlainly word.spelled := by
  intro c isLast
  rcases spelled_cases word with ⟨bare, same⟩ | ⟨quote, isQuoteChar, -, -, same⟩
  · rw [same] at isLast
    have isLiteral := (literal_of_bare bare).2 c (List.mem_of_mem_getLast? isLast)
    exact ⟨isLiteralChar_ne isLiteral (by decide), isLiteralChar_ne isLiteral (by decide)⟩
  · rw [same, quoted, ← List.cons_append, List.getLast?_concat] at isLast
    obtain rfl := Option.some.inj isLast
    constructor
    · rintro rfl
      cases isQuoteChar
    · rintro rfl
      cases isQuoteChar

theorem EndsPlainly.append {front back : List Char} (ends : EndsPlainly back) (filled : back ≠ []) :
    EndsPlainly (front ++ back) := by
  intro c isLast
  rw [List.getLast?_append_of_ne_nil _ filled] at isLast
  exact ends c isLast

theorem piece_spelled (piece : Piece) : ∃ front, piece.spelled = front ++ piece.lastWord.spelled := by
  cases piece with
  | word own => exact ⟨[], rfl⟩
  | redirection own => exact ⟨own.operatorText ++ own.space.val, rfl⟩

/-- A stretch whose last mark is a piece, followed by blanks. -/
def Closed (stretch : Stretch) : Prop :=
  (∃ front gap piece, stretch.marks = front ++ [(gap, .piece piece)]) ∧ ∀ c ∈ stretch.after, isBlank c = true

theorem Closed.endsPlainly {stretch : Stretch} (closed : Closed stretch) : EndsPlainly stretch.text := by
  obtain ⟨⟨front, gap, piece, marks⟩, blanks⟩ := closed
  obtain ⟨start, spelled⟩ := piece_spelled piece
  by_cases empty : stretch.after = []
  · rw [Stretch.text, marks, empty, List.append_nil, List.flatMap_append, List.flatMap_singleton, markText,
      Mark.spelled, spelled, ← List.append_assoc, ← List.append_assoc]
    exact (spelled_endsPlainly _).append (spelled_ne_nil _)
  · refine EndsPlainly.append (fun c isLast => ?_) empty
    have blank := blanks c (List.mem_of_mem_getLast? isLast)
    constructor
    · rintro rfl
      cases blank
    · rintro rfl
      cases blank

theorem marks_eq (lead : List Char) (command : SimpleCommand) : ∃ first rest, command.pieces = first :: rest ∧
      command.marks lead = (lead ++ first.gap.val, .piece first.piece) ::
        rest.map fun spaced => (spaced.gap.val, .piece spaced.piece) := by
  obtain ⟨first, rest, pieces⟩ := List.exists_cons_of_ne_nil command.nonempty
  exact ⟨first, rest, pieces, by rw [SimpleCommand.marks, pieces]⟩

theorem marks_text (lead : List Char) (command : SimpleCommand) :
    (command.marks lead).flatMap markText ++ command.after.val = lead ++ command.text := by
  obtain ⟨first, rest, pieces, marks⟩ := marks_eq lead command
  rw [marks, SimpleCommand.text, pieces, List.flatMap_cons, List.flatMap_cons, List.flatMap_map]
  simp only [markText, Mark.spelled, SpacedPiece.text, List.append_assoc]
  rfl

theorem marks_closed (front : List (List Char × Mark)) (lead : List Char) (command : SimpleCommand) :
    Closed ⟨front ++ command.marks lead, command.after.val⟩ := by
  refine ⟨?_, command.after.property⟩
  obtain ⟨first, rest, -, marks⟩ := marks_eq lead command
  rw [marks]
  rcases List.eq_nil_or_concat rest with rfl | ⟨others, last, rfl⟩
  · exact ⟨front, _, _, rfl⟩
  · refine ⟨front ++ (lead ++ first.gap.val, .piece first.piece) ::
      others.map (fun spaced => (spaced.gap.val, .piece spaced.piece)), last.gap.val, last.piece, ?_⟩
    simp

/-! ## Segments -/

/-- How much of a text its first separator takes, when it begins with one. -/
def separatorLength (text : List Char) : Nat :=
  if ['&', '&'] <+: text then 2
  else if ['|', '|'] <+: text then 2
  else if [';'] <+: text then 1
  else if ['|'] <+: text then 1
  else 0

theorem ways_literal (text : String) (start : Bool) (input : List Char) : (literal text).ways start input =
      if text.toList.isPrefixOf input then [⟨text.toList, input.drop text.toList.length, []⟩] else [] :=
  ways_word_exact _ _ _

theorem separators_head (start : Bool) (text : List Char) : (separators.ways start text).head? =
      if separatorLength text = 0 then none
      else some ⟨text.take (separatorLength text), text.drop (separatorLength text), []⟩ := by
  have whole {separator : List Char} (front : separator <+: text) :
      text.take separator.length = separator := (List.prefix_iff_eq_take.mp front).symm
  have and : "&&".toList = ['&', '&'] := rfl
  have or : "||".toList = ['|', '|'] := rfl
  have semicolon : ";".toList = [';'] := rfl
  have pipe : "|".toList = ['|'] := rfl
  simp only [separators, anyOf, ways, ways_literal, and, or, semicolon, pipe, List.isPrefixOf_iff_prefix,
    separatorLength]
  by_cases isAnd : ['&', '&'] <+: text
  · simpa [isAnd] using (whole isAnd).symm
  by_cases isOr : ['|', '|'] <+: text
  · simpa [isAnd, isOr] using (whole isOr).symm
  by_cases isSemicolon : [';'] <+: text
  · simpa [isAnd, isOr, isSemicolon] using (whole isSemicolon).symm
  by_cases isPipe : ['|'] <+: text
  · simpa [isAnd, isOr, isSemicolon, isPipe] using (whole isPipe).symm
  · simp [isAnd, isOr, isSemicolon, isPipe]

variable {c : Char}

theorem separatorLength_eq_zero {rest : List Char} (semicolon : c ≠ ';') (pipe : c ≠ '|')
    (conjunction : c = '&' → rest.head? ≠ some '&') : separatorLength (c :: rest) = 0 := by
  have notAnd : ¬ ['&', '&'] <+: c :: rest := by
    rintro ⟨after, same⟩
    obtain ⟨rfl, rfl⟩ := List.cons.inj same
    exact conjunction rfl rfl
  have notOr : ¬ ['|', '|'] <+: c :: rest := fun front => pipe (List.cons_prefix_cons.mp front).1.symm
  have notSemicolon : ¬ [';'] <+: c :: rest := fun front => semicolon (List.cons_prefix_cons.mp front).1.symm
  have notPipe : ¬ ['|'] <+: c :: rest := fun front => pipe (List.cons_prefix_cons.mp front).1.symm
  rw [separatorLength, if_neg notAnd, if_neg notOr, if_neg notSemicolon, if_neg notPipe]

theorem separatorLength_cases (text : List Char) : separatorLength text = 0 ∨ separatorLength text = 1 ∨
      separatorLength text = 2 ∧ ∃ c rest, text = c :: c :: rest ∧ (c = '&' ∨ c = '|') := by
  unfold separatorLength
  by_cases isAnd : ['&', '&'] <+: text
  · obtain ⟨rest, rfl⟩ := isAnd
    exact .inr (.inr ⟨if_pos (List.prefix_append _ _), '&', rest, rfl, .inl rfl⟩)
  by_cases isOr : ['|', '|'] <+: text
  · obtain ⟨rest, rfl⟩ := isOr
    exact .inr (.inr ⟨by rw [if_neg isAnd, if_pos (List.prefix_append _ _)], '|', rest, rfl, .inr rfl⟩)
  rw [if_neg isAnd, if_neg isOr]
  split
  · exact .inr (.inl rfl)
  split
  · exact .inr (.inl rfl)
  · exact .inl rfl

theorem separators_none {start : Bool} {rest : List Char} (other : separatorLength (c :: rest) = 0) :
    (separators.ways start (c :: rest)).head? = none := by
  rw [separators_head, if_pos other]

theorem cut_free {text after : List Char} (separated : ∀ c ∈ text, c ≠ ';' ∧ c ≠ '|')
    (conjunction : ¬ ['&', '&'] <:+: text) (ends : EndsPlainly text)
    (bounded : after = [] ∨ separatorLength after ≠ 0) {fuel : Nat} (enough : (text ++ after).length ≤ fuel)
    (start : Bool) : ∃ pieces, separators.cutFrom fuel start (text ++ after) = text :: pieces := by
  induction text generalizing fuel start with
  | nil =>
    rw [List.nil_append] at enough ⊢
    cases after with
    | nil => exact ⟨[], cutFrom_nil rfl fuel⟩
    | cons c rest =>
      have separator : separatorLength (c :: rest) ≠ 0 := by simpa using bounded
      cases fuel with
      | zero => simp at enough
      | succ fuel =>
        exact ⟨_, cutFrom_of_way (by rw [separators_head, if_neg separator])⟩
  | cons c text ih =>
    cases fuel with
    | zero => simp at enough
    | succ fuel =>
      rw [List.cons_append, List.length_cons] at enough
      obtain ⟨pieces, cut⟩ := @ih (fun other member => separated other (List.mem_cons_of_mem _ member))
        (fun inside => conjunction (inside.trans (List.suffix_cons c text).isInfix))
        (fun other isLast => ends other (List.mem_getLast?_cons isLast)) (fuel + 1) (by omega) false
      have other : separatorLength (c :: (text ++ after)) = 0 := by
        obtain ⟨noSemicolon, noPipe⟩ := separated c List.mem_cons_self
        refine separatorLength_eq_zero noSemicolon noPipe ?_
        rintro rfl first
        cases text with
        | nil => exact (ends '&' rfl).1 rfl
        | cons next rest =>
          obtain rfl : next = '&' := by simpa using first
          exact conjunction ⟨[], rest, rfl⟩
      exact ⟨pieces, by rw [List.cons_append, cutFrom_of_none (separators_none other), cut]; rfl⟩

/-- The pieces of what follows a separator are pieces of the whole, and not the first. -/
theorem cut_skip {front separator back piece : List Char} (ends : EndsPlainly front)
    (taken : separatorLength (separator ++ back) = separator.length) (filled : separator ≠ [])
    (cut : ∀ fuel start, back.length ≤ fuel → piece ∈ separators.cutFrom fuel start back) {fuel : Nat}
    (enough : (front ++ (separator ++ back)).length ≤ fuel) (start : Bool) :
    piece ∈ (separators.cutFrom fuel start (front ++ (separator ++ back))).tail := by
  induction hLength : front.length using Nat.strong_induction_on generalizing front fuel start with
  | _ length ih =>
    cases fuel with
    | zero =>
      have : 0 < separator.length := List.length_pos_iff.mpr filled
      rw [List.length_append, List.length_append] at enough
      omega
    | succ fuel =>
      cases front with
      | nil =>
        have some : separatorLength (separator ++ back) ≠ 0 := by
          rw [taken]
          exact (List.length_pos_iff.mpr filled).ne'
        rw [List.nil_append, cutFrom_of_way (by rw [separators_head, if_neg some]), taken, List.drop_left]
        refine cut fuel false ?_
        have : 0 < separator.length := List.length_pos_iff.mpr filled
        rw [List.nil_append, List.length_append] at enough
        omega
      | cons c front =>
        -- what the separator at the front takes, if there is one, lies in the front
        by_cases other : separatorLength (c :: (front ++ (separator ++ back))) = 0
        · rw [List.cons_append, cutFrom_of_none (separators_none other)]
          rw [List.length_cons] at hLength
          rw [List.cons_append, List.length_cons] at enough
          have later := @ih front.length (by omega) front
            (fun last isLast => ends last (List.mem_getLast?_cons isLast)) (fuel + 1) (by omega) false rfl
          cases pieces : separators.cutFrom (fuel + 1) false (front ++ (separator ++ back)) with
          | nil => simp [pieces] at later
          | cons first others => simpa [prependTo, pieces] using later
        · -- a separator of the front is left behind
          rw [List.cons_append, cutFrom_of_way (by rw [separators_head, if_neg other]), List.tail_cons]
          have within (shorter : List Char) (isShorter : shorter.length < length)
              (ends : EndsPlainly shorter) (enough : (shorter ++ (separator ++ back)).length ≤ fuel) :
              piece ∈ separators.cutFrom fuel false (shorter ++ (separator ++ back)) :=
            List.mem_of_mem_tail (ih shorter.length isShorter ends enough false rfl)
          rw [List.cons_append, List.length_cons] at enough
          rw [List.length_cons] at hLength
          rcases separatorLength_cases (c :: (front ++ (separator ++ back))) with
            none | one | ⟨two, d, rest, same, pair⟩
          · exact absurd none other
          · simp only [one, List.drop_one, List.tail_cons]
            exact within front (by omega) (fun last isLast => ends last (List.mem_getLast?_cons isLast)) (by omega)
          · obtain ⟨rfl, same⟩ := List.cons.inj same
            cases front with
            | nil =>
              have last := ends c rfl
              rcases pair with rfl | rfl
              · exact absurd rfl last.1
              · exact absurd rfl last.2
            | cons e front =>
              rw [two]
              rw [List.cons_append, List.length_cons] at enough
              rw [List.length_cons] at hLength
              exact within front (by omega)
                (fun last isLast => ends last (List.mem_getLast?_cons (List.mem_getLast?_cons isLast))) (by omega)

theorem descriptor_head {redirection : Redirection} (first : redirection.operatorText.head? = some c) :
    c ≠ '|' := by
  cases descriptor : redirection.descriptor with
  | nil =>
    rw [Redirection.operatorText, descriptor, List.nil_append] at first
    rintro rfl
    cases operator : redirection.operator with
    | write append => cases append <;> simp [operator, Operator.text] at first
    | clobber => simp [operator, Operator.text] at first
    | writeBoth append => simp [operator, Operator.text] at first
  | cons digit others =>
    rw [Redirection.operatorText, descriptor] at first
    obtain rfl : digit = c := by simpa using first
    have isDigit := redirection.digits digit (by simp [descriptor])
    rintro rfl
    cases isDigit

theorem operatorText_ne_nil (redirection : Redirection) : redirection.operatorText ≠ [] := by
  rw [Redirection.operatorText]
  cases redirection.operator with
  | write append => cases append <;> simp [Operator.text]
  | clobber => simp [Operator.text]
  | writeBoth append => simp [Operator.text]

theorem spelled_head {word : Word} (first : word.spelled.head? = some c) : c ≠ '|' := by
  rcases spelled_cases word with ⟨bare, same⟩ | ⟨quote, isQuoteChar, -, -, same⟩
  · rw [same] at first
    exact isLiteralChar_ne ((literal_of_bare bare).2 c (List.mem_of_mem_head? first)) (by decide)
  · rw [same, quoted] at first
    obtain rfl := Option.some.inj first
    rintro rfl
    cases isQuoteChar

theorem piece_head {piece : Piece} (first : piece.spelled.head? = some c) : c ≠ '|' := by
  cases piece with
  | word own => exact spelled_head first
  | redirection own =>
    rw [Piece.spelled, Redirection.spelled, List.append_assoc,
      List.head?_append_of_ne_nil _ (operatorText_ne_nil own)] at first
    exact descriptor_head first

theorem piece_ne_nil (piece : Piece) : piece.spelled ≠ [] := by
  obtain ⟨front, same⟩ := piece_spelled piece
  rw [same]
  exact List.append_ne_nil_of_right_ne_nil _ (spelled_ne_nil _)

theorem command_head (command : SimpleCommand) : ∃ c rest, command.text = c :: rest ∧ c ≠ '|' := by
  obtain ⟨first, others, pieces⟩ := List.exists_cons_of_ne_nil command.nonempty
  have whole : command.text = first.gap.val ++ (first.piece.spelled ++
      (others.flatMap SpacedPiece.text ++ command.after.val)) := by
    rw [SimpleCommand.text, pieces, List.flatMap_cons, SpacedPiece.text]
    simp only [List.append_assoc]
  cases gap : first.gap.val with
  | cons blank more =>
    have isBlankChar := first.gap.property blank (by simp [gap])
    refine ⟨blank, _, by rw [whole, gap]; rfl, ?_⟩
    rintro rfl
    cases isBlankChar
  | nil =>
    obtain ⟨c, rest, spelled⟩ := List.exists_cons_of_ne_nil (piece_ne_nil first.piece)
    have isFirst : first.piece.spelled.head? = some c := by rw [spelled]; rfl
    exact ⟨c, _, by rw [whole, gap, spelled]; rfl, piece_head isFirst⟩

theorem joined_text (marks : List (List Char × Mark)) (lead : List Char) (command : SimpleCommand) :
    Stretch.text ⟨marks ++ command.marks lead, command.after.val⟩ =
      marks.flatMap markText ++ (lead ++ command.text) := by
  rw [Stretch.text, List.flatMap_append, List.append_assoc, marks_text]

def Cuts (joint : Joint) : Prop :=
  ∀ back : List Char, (∀ c ∈ back.head?, c ≠ '|') →
    separatorLength (joint.text ++ back) = joint.text.length ∧ joint.text ≠ []

theorem cuts_andIf : Cuts .andIf := by
  intro back _
  simp [separatorLength, Joint.text]

theorem cuts_orIf : Cuts .orIf := by
  intro back _
  simp [separatorLength, Joint.text]

theorem cuts_semicolon : Cuts .semicolon := by
  intro back _
  simp [separatorLength, Joint.text]

theorem cuts_pipe : Cuts .pipe := by
  intro back other
  have alone : ¬ ['|'] <+: back := by
    rintro ⟨rest, rfl⟩
    exact other '|' rfl rfl
  simp [separatorLength, Joint.text, alone]

variable {rest : List (Joint × SimpleCommand)}

theorem stretch_cut {current : Stretch} {joint : Joint} {command : SimpleCommand}
    {stretch : Stretch} (closed : Closed current) (cuts : Cuts joint) (legible : Legible stretch)
    (member : stretch ∈ current :: stretchesFrom ⟨command.marks [], command.after.val⟩ rest)
    (ih : ∀ current, Closed current → stretch ∈ stretchesFrom current rest → ∀ fuel start,
      (current.text ++ followingText rest).length ≤ fuel →
        stretch.text ∈ separators.cutFrom fuel start (current.text ++ followingText rest))
    (fuel : Nat) (start : Bool) (enough : (current.text ++ followingText ((joint, command) :: rest)).length ≤ fuel) :
    stretch.text ∈ separators.cutFrom fuel start (current.text ++ followingText ((joint, command) :: rest)) := by
  have following : followingText ((joint, command) :: rest) = joint.text ++ (command.text ++ followingText rest) := by
    rw [followingText, List.flatMap_cons, List.append_assoc]
    rfl
  obtain ⟨c, more, text, notPipe⟩ := command_head command
  obtain ⟨taken, filled⟩ := cuts (command.text ++ followingText rest) (by
    rw [text]
    rintro _ ⟨⟩
    exact notPipe)
  rw [following] at enough ⊢
  rcases List.mem_cons.mp member with rfl | later
  · obtain ⟨pieces, cut⟩ := cut_free legible.separators legible.conjunction closed.endsPlainly
      (.inr (by rw [taken]; exact (List.length_pos_iff.mpr filled).ne')) enough start
    rw [cut]
    exact List.mem_cons_self
  · have next : Stretch.text ⟨command.marks [], command.after.val⟩ = command.text := joined_text [] [] command
    refine List.mem_of_mem_tail (cut_skip closed.endsPlainly taken filled (fun fuel start enough => ?_) enough start)
    have inRest := ih _ (marks_closed [] [] command) later fuel start
    rw [List.nil_append, next] at inRest
    exact inRest enough

theorem stretch_mem_cut {current stretch : Stretch} (closed : Closed current)
    (legible : Legible stretch) (member : stretch ∈ stretchesFrom current rest) (fuel : Nat) (start : Bool)
    (enough : (current.text ++ followingText rest).length ≤ fuel) :
    stretch.text ∈ separators.cutFrom fuel start (current.text ++ followingText rest) := by
  induction rest generalizing current fuel start with
  | nil =>
    obtain rfl := List.mem_singleton.mp member
    obtain ⟨pieces, cut⟩ :=
      cut_free legible.separators legible.conjunction closed.endsPlainly (.inl rfl) enough start
    rw [followingText, List.flatMap_nil, cut]
    exact List.mem_cons_self
  | cons joined rest ih =>
    obtain ⟨joint, command⟩ := joined
    have later := fun current closed member => @ih current closed member
    cases joint with
    | newline =>
      have whole : current.text ++ followingText ((.newline, command) :: rest) =
          Stretch.text ⟨current.marks ++ command.marks (current.after ++ ['\n']), command.after.val⟩ ++
            followingText rest := by
        rw [joined_text]
        simp [followingText, Stretch.text, Joint.text]
      rw [whole] at enough ⊢
      exact ih (marks_closed _ _ _) member fuel start enough
    | background =>
      have whole : current.text ++ followingText ((.background, command) :: rest) =
          Stretch.text ⟨current.marks ++ (current.after, .ampersand) :: command.marks [], command.after.val⟩ ++
            followingText rest := by
        rw [List.append_cons current.marks, joined_text]
        simp [followingText, Stretch.text, Joint.text, markText, Mark.spelled]
      rw [whole] at enough ⊢
      refine ih ?_ member fuel start enough
      rw [List.append_cons current.marks]
      exact marks_closed _ _ _
    | andIf => exact stretch_cut closed cuts_andIf legible member later fuel start enough
    | orIf => exact stretch_cut closed cuts_orIf legible member later fuel start enough
    | semicolon => exact stretch_cut closed cuts_semicolon legible member later fuel start enough
    | pipe => exact stretch_cut closed cuts_pipe legible member later fuel start enough

end Advance.Tools
