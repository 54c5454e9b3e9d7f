import Advance.Tools.FirewallSegments

/-! # What the firewall sees of a command

Which of the paths that a command line writes are among the targets that are read off its text.
-/

namespace Advance.Tools

open Advance.Foundation Advance.JavaScript
open Advance.Utils (isJsWhitespace trim)
open Pattern

/-! ## Where the classifier looks -/

/-- A word that the classifier takes for what it is: nothing in it is expanded, and it neither
    begins nor ends with a quote. -/
structure Plain (word : Word) : Prop where
  filled : word.text ≠ []
  unexpanded : ∀ c ∈ word.text, c ≠ '$' ∧ c.toNat ≠ 96
  opening : ∀ c ∈ word.text.head?, isQuote c = false
  closing : ∀ c ∈ word.text.getLast?, isQuote c = false
  homeless : word.text ≠ ['~'] ∧ ¬ ['~', '/'] <+: word.text

/-- The word at the end of a mark when it stands by itself. -/
def Mark.ownWord : Mark → Option Word
  | .piece (.word word) => some word
  | .piece (.redirection redirection) =>
    if redirection.space.val = [] then none else some redirection.target
  | .ampersand => none

def isDashed (text : List Char) : Prop := ['-'] <+: text

instance (text : List Char) : Decidable (isDashed text) := inferInstanceAs (Decidable (['-'] <+: text))

def Stretch.Begins (stretch : Stretch) (name : Word) (rest : List (List Char × Mark)) : Prop :=
  ∃ gap, stretch.marks = (gap, .piece (.word name)) :: rest

/-- The words of a stretch where the classifier looks for targets: after `>` or `>>`, after the name
    `rm` or `tee`, and last after the name `cp`, `mv` or `sed` with `-i`. -/
inductive Names (stretch : Stretch) : Word → Prop
  | redirection {gap : List Char} {redirection : Redirection}
      (member : (gap, .piece (.redirection redirection)) ∈ stretch.marks)
      (arrow : isArrow redirection.operatorText = true) : Names stretch redirection.target
  | operand {name : Word} {rest : List (List Char × Mark)} {mark : List Char × Mark} {word : Word}
      (begins : stretch.Begins name rest) (named : name.text = "rm".toList ∨ name.text = "tee".toList)
      (member : mark ∈ rest) (own : mark.2.ownWord = some word) (plain : ¬ isDashed word.text) :
      Names stretch word
  | last {name : Word} {front options : List (List Char × Mark)} {mark : List Char × Mark} {word : Word}
      (begins : stretch.Begins name (front ++ mark :: options))
      (named : name.text = "cp".toList ∨ name.text = "mv".toList ∨ name.text = "sed".toList ∧
        ∃ flag ∈ front ++ mark :: options, ∃ own, flag.2 = .piece (.word own) ∧ "-i".toList <+: own.text)
      (own : mark.2.ownWord = some word) (plain : ¬ isDashed word.text)
      (dashed : ∀ option ∈ options, ∃ own, option.2 = .piece (.word own) ∧ isDashed own.text) :
      Names stretch word

def CommandLine.Shows (directory : String) (line : CommandLine) (path : String) : Prop :=
  ∃ stretch ∈ line.stretches, Legible stretch ∧ ∃ word, Names stretch word ∧ Plain word ∧
    path = resolve directory (String.ofList word.text)

/-! ## Quotes -/

def dropLastQuote : List Char → List Char
  | [] => []
  | [c] => if isQuote c then [] else [c]
  | c :: next :: rest => c :: dropLastQuote (next :: rest)

variable {quote : Char}

theorem dropLastQuote_concat (isQuoteChar : isQuote quote = true) (text : List Char) :
    dropLastQuote (text ++ [quote]) = text := by
  induction text with
  | nil => simp [dropLastQuote, isQuoteChar]
  | cons c text ih =>
    cases text with
    | nil => simp [dropLastQuote, isQuoteChar]
    | cons next rest =>
      rw [List.cons_append, List.cons_append, dropLastQuote, ← List.cons_append, ih]

variable {text : List Char}

theorem dropLastQuote_of_closing (closing : ∀ c ∈ text.getLast?, isQuote c = false) : dropLastQuote text = text := by
  induction text with
  | nil => rfl
  | cons c text ih =>
    cases text with
    | nil =>
      have plain := closing c rfl
      simp [dropLastQuote, plain]
    | cons next rest =>
      rw [dropLastQuote, ih fun last isLast => closing last (List.mem_getLast?_cons isLast)]

/-- The pattern of `unquote`. -/
def outerQuote : Pattern Char := either (andThen atStart (unit isQuote)) (andThen (unit isQuote) atEnd)

theorem intercalate_prependTo (c : Char) (pieces : List (List Char)) :
    ([] : List Char).intercalate (prependTo c pieces) = c :: ([] : List Char).intercalate pieces := by
  cases pieces with
  | nil => rfl
  | cons piece pieces => cases pieces <;> simp [prependTo, List.intercalate]

theorem outerQuote_inside (c : Char) (rest : List Char) : (outerQuote.ways false (c :: rest)).head? =
      if isQuote c = true ∧ rest = [] then some ⟨[c], [], []⟩ else none := by
  cases rest with
  | nil => by_cases isQuoteChar : isQuote c <;> simp [outerQuote, ways, isQuoteChar]
  | cons next rest => by_cases isQuoteChar : isQuote c <;> simp [outerQuote, ways, isQuoteChar]

theorem unquote_inside {fuel : Nat} (enough : text.length ≤ fuel) :
    ([] : List Char).intercalate (outerQuote.cutFrom fuel false text) = dropLastQuote text := by
  induction text with
  | nil =>
    rw [cutFrom_nil (by rfl)]
    rfl
  | cons c text ih =>
    cases fuel with
    | zero => simp at enough
    | succ fuel =>
      have later := ih (Nat.le_of_succ_le enough)
      by_cases last : isQuote c = true ∧ text = []
      · obtain ⟨isQuoteChar, rfl⟩ := last
        rw [cutFrom_of_way (by rw [outerQuote_inside, if_pos ⟨isQuoteChar, rfl⟩]), cutFrom_nil (by rfl)]
        simp [dropLastQuote, isQuoteChar, List.intercalate]
      · rw [cutFrom_of_none (by rw [outerQuote_inside, if_neg last]), intercalate_prependTo, later]
        cases text with
        | nil =>
          have plain : isQuote c = false := by simpa using last
          simp [dropLastQuote, plain]
        | cons next rest => rfl

theorem unquote_cons (c : Char) (rest : List Char) :
    unquote (c :: rest) = if isQuote c then dropLastQuote rest else dropLastQuote (c :: rest) := by
  have whole : unquote (c :: rest) =
      ([] : List Char).intercalate (outerQuote.cutFrom (rest.length + 1) true (c :: rest)) := rfl
  rw [whole]
  by_cases isQuoteChar : isQuote c
  · rw [if_pos isQuoteChar]
    have first : (outerQuote.ways true (c :: rest)).head? = some ⟨[c], rest, []⟩ := by
      simp [outerQuote, ways, isQuoteChar]
    rw [cutFrom_of_way first]
    have tail := unquote_inside (Nat.le_refl rest.length)
    cases pieces : outerQuote.cutFrom rest.length false rest with
    | nil => exact absurd pieces (cutFrom_ne_nil _ _ _ _)
    | cons piece pieces' =>
      rw [pieces] at tail
      rw [← tail]
      simp [List.intercalate]
  · have none : (outerQuote.ways true (c :: rest)).head? = none := by
      simp [outerQuote, ways, isQuoteChar]
    have plain : isQuote c = false := by simpa using isQuoteChar
    rw [if_neg isQuoteChar, cutFrom_of_none none, intercalate_prependTo, unquote_inside (Nat.le_succ rest.length)]
    cases rest with
    | nil => simp [dropLastQuote, plain]
    | cons next rest => rfl

theorem unquote_plain (opening : ∀ c ∈ text.head?, isQuote c = false)
    (closing : ∀ c ∈ text.getLast?, isQuote c = false) : unquote text = text := by
  cases text with
  | nil => rfl
  | cons c rest =>
    rw [unquote_cons, opening c rfl, if_neg Bool.false_ne_true, dropLastQuote_of_closing closing]

theorem unquote_quoted (isQuoteChar : isQuote quote = true) (text : List Char) :
    unquote (quoted quote text) = text := by
  rw [quoted, unquote_cons, if_pos isQuoteChar, dropLastQuote_concat isQuoteChar]

theorem unquote_attached {quote c : Char} (isQuoteChar : isQuote quote = true) (plain : isQuote c = false)
    (rest text : List Char) : unquote (c :: rest ++ quoted quote text) = c :: rest ++ quote :: text := by
  rw [List.cons_append, unquote_cons, plain, if_neg Bool.false_ne_true, quoted, ← List.cons_append, ← List.cons_append,
    ← List.append_assoc, dropLastQuote_concat isQuoteChar]

theorem unquote_opened (isQuoteChar : isQuote quote = true)
    (closing : ∀ c ∈ text.getLast?, isQuote c = false) : unquote (quote :: text) = text := by
  rw [unquote_cons, if_pos isQuoteChar, dropLastQuote_of_closing closing]

/-! ## Tokens -/

theorem space_quote {c : Char} (space : isJsWhitespace c = true) : isQuote c = false ∧ c ≠ '>' := by
  constructor
  · rw [isQuote, Bool.or_eq_false_iff, decide_eq_false_iff_not, decide_eq_false_iff_not]
    constructor
    · rintro rfl
      cases space
    · rintro rfl
      cases space
  · rintro rfl
    cases space

theorem tokenPattern_eq : tokenPattern = either (quotedToken '"')
    (either (quotedToken '\'') (many (fun c => !isJsWhitespace c) 1 none true)) := rfl

theorem quotedToken_eq (quote : Char) : quotedToken quote =
    andThen (either (either (literal ">>") (literal ">")) nothing) (andThen (unit fun c => c = quote)
        (andThen (many (fun c => c ≠ quote) 0 none true) (unit fun c => c = quote))) := rfl

/-- The operators that a quoted token can begin with. -/
def tokenLeads : List (List Char) := [['>', '>'], ['>'], []]

theorem ways_lead (start : Bool) (text : List Char) : ∀ way ∈
    (either (either (literal ">>") (literal ">")) nothing).ways start text,
    way.taken ∈ tokenLeads ∧ way.taken ++ way.rest = text := by
  intro way member
  refine ⟨?_, ways_append member⟩
  have two : ">>".toList = ['>', '>'] := rfl
  have one : ">".toList = ['>'] := rfl
  simp only [ways, ways_literal, two, one, List.mem_append, List.mem_singleton] at member
  rcases member with (isTwo | isOne) | isNone
  · split at isTwo
    · obtain rfl := List.mem_singleton.mp isTwo
      exact List.mem_cons_self
    · cases isTwo
  · split at isOne
    · obtain rfl := List.mem_singleton.mp isOne
      exact List.mem_cons_of_mem _ List.mem_cons_self
    · cases isOne
  · obtain rfl := isNone
    simp [tokenLeads]

theorem quotedToken_none (absent : ∀ lead ∈ tokenLeads, ∀ rest, text ≠ lead ++ quote :: rest) (start : Bool) :
    (quotedToken quote).ways start text = [] := by
  rw [List.eq_nil_iff_forall_not_mem]
  intro way member
  obtain ⟨front, inFront, back, inBack, -⟩ := mem_ways_andThen.mp member
  obtain ⟨isLead, whole⟩ := ways_lead start text front inFront
  obtain ⟨next, inNext, -⟩ := mem_ways_andThen.mp inBack
  obtain ⟨c, accepted, opened, -⟩ := mem_ways_unit.mp inNext
  obtain rfl : c = quote := by simpa using accepted
  exact absent front.taken isLead next.rest (by rw [← whole, opened])

variable {token : List Char}

theorem takesWhole_run (filled : token ≠ []) (solid : ∀ c ∈ token, isJsWhitespace c = false)
    (unquoted : ∀ c ∈ token, isQuote c = false) : TakesWhole tokenPattern isJsWhitespace token := by
  intro start rest ends
  have none {quote : Char} (isQuoteChar : isQuote quote = true) (start : Bool) :
      (quotedToken quote).ways start (token ++ rest) = [] := by
    refine quotedToken_none (fun lead isLead back same => ?_) start
    have arrows : ∀ c ∈ lead, c = '>' := by
      intro c member
      simp only [tokenLeads, List.mem_cons, List.not_mem_nil, or_false] at isLead
      rcases isLead with rfl | rfl | rfl <;> simp_all
    -- the quote would lie in the token or be what follows it
    rcases List.append_eq_append_iff.mp same with ⟨more, leadSame, restSame⟩ | ⟨more, tokenSame, backSame⟩
    · cases more with
      | nil =>
        have space := ends quote (by rw [restSame]; rfl)
        rw [(space_quote space).1] at isQuoteChar
        cases isQuoteChar
      | cons c more =>
        have space := ends c (by rw [restSame]; rfl)
        exact (space_quote space).2 (arrows c (by rw [leadSame]; simp))
    · cases more with
      | nil =>
        have space := ends quote (by rw [← List.nil_append rest, ← backSame]; rfl)
        rw [(space_quote space).1] at isQuoteChar
        cases isQuoteChar
      | cons c more =>
        obtain ⟨rfl, -⟩ := List.cons.inj backSame
        have plain := unquoted quote (by rw [tokenSame]; simp)
        rw [plain] at isQuoteChar
        cases isQuoteChar
  have run := @head_many Char 1 (fun c => !isJsWhitespace c) token rest (by simpa using solid)
    (fun c first => by simp [ends c first]) (List.length_pos_iff.mpr filled) start
  rw [tokenPattern_eq, head_either_right (none rfl start), head_either_right (none rfl start), run]

theorem ways_leading {lead text : List Char} (isLead : lead ∈ tokenLeads) (plain : ∀ c ∈ text.head?, c ≠ '>')
    (start : Bool) : ((either (either (literal ">>") (literal ">")) nothing).ways start (lead ++ text)).head? =
      some ⟨lead, text, []⟩ := by
  have two : ">>".toList = ['>', '>'] := rfl
  have one : ">".toList = ['>'] := rfl
  have noArrow : ¬ ['>'] <+: text := by
    rintro ⟨rest, rfl⟩
    exact plain '>' rfl rfl
  have noArrows : ¬ ['>', '>'] <+: text := fun front => noArrow ((List.prefix_append ['>'] ['>']).trans front)
  simp only [tokenLeads, List.mem_cons, List.not_mem_nil, or_false] at isLead
  rcases isLead with rfl | rfl | rfl
  · simp [ways, ways_literal, two, one]
  · simp [ways, ways_literal, two, one, noArrow]
  · simp [ways, ways_literal, two, one, noArrow, noArrows]

theorem isQuote_ne_arrow (isQuoteChar : isQuote quote = true) : quote ≠ '>' := by
  rintro rfl
  cases isQuoteChar

theorem head_quotedToken (isQuoteChar : isQuote quote = true) {lead text rest : List Char}
    (isLead : lead ∈ tokenLeads) (absent : quote ∉ text) (start : Bool) :
    ((quotedToken quote).ways start (lead ++ quoted quote text ++ rest)).head? =
      some ⟨lead ++ quoted quote text, rest, []⟩ := by
  have opened : (lead ++ quoted quote text ++ rest) = lead ++ quote :: (text ++ quote :: rest) := by
    simp [quoted]
  have inLead := @ways_leading lead (quote :: (text ++ quote :: rest)) isLead
    (by rintro _ ⟨⟩; exact isQuote_ne_arrow isQuoteChar) start
  have inOpen (start : Bool) : ((unit fun c => c = quote).ways start (quote :: (text ++ quote :: rest))).head? =
      some ⟨[quote], text ++ quote :: rest, []⟩ := by simp [ways]
  have inText := @head_many Char 0 (fun c => c ≠ quote) text (quote :: rest)
    (fun c member => by simpa using fun same : c = quote => absent (same ▸ member)) (by simp) (Nat.zero_le _)
  have inClose (start : Bool) : ((unit fun c => c = quote).ways start (quote :: rest)).head? =
      some ⟨[quote], rest, []⟩ := by simp [ways]
  rw [opened, quotedToken_eq, head_andThen inLead (head_andThen (inOpen _) (head_andThen (inText _) (inClose _)))]
  simp [quoted]

theorem takesWhole_quoted (isQuoteChar : isQuote quote = true) {lead text : List Char}
    (isLead : lead ∈ tokenLeads) (absent : quote ∉ text) :
    TakesWhole tokenPattern isJsWhitespace (lead ++ quoted quote text) := by
  intro start rest _
  have own := @head_quotedToken quote isQuoteChar lead text rest isLead absent start
  rw [tokenPattern_eq]
  by_cases double : quote = '"'
  · subst double
    exact head_either_left own
  · have single : quote = '\'' := by
      simpa [isQuote, double] using isQuoteChar
    subst single
    rw [head_either_right, head_either_left own]
    refine quotedToken_none (fun other isOther back same => ?_) start
    -- the first unit that is no arrow is the single quote
    have first : ∀ text : List Char, ∀ lead ∈ tokenLeads, ∀ c ≠ '>',
        (lead ++ c :: text).find? (fun unit => unit ≠ '>') = some c := by
      intro text lead isLead c plain
      simp only [tokenLeads, List.mem_cons, List.not_mem_nil, or_false] at isLead
      rcases isLead with rfl | rfl | rfl <;> simp [plain]
    have left := first (text ++ ['\''] ++ rest) lead isLead '\'' (by decide)
    have right := first back other isOther '"' (by decide)
    rw [← same] at right
    have opened : lead ++ quoted '\'' text ++ rest = lead ++ '\'' :: (text ++ ['\''] ++ rest) := by simp [quoted]
    rw [opened, left] at right
    exact absurd (Option.some.inj right) (by decide)

theorem tokenPattern_space (start : Bool) (c : Char) (rest : List Char) (space : isJsWhitespace c = true) :
    tokenPattern.ways start (c :: rest) = [] := by
  obtain ⟨plain, noArrow⟩ := space_quote space
  have none {quote : Char} (isQuoteChar : isQuote quote = true) : (quotedToken quote).ways start (c :: rest) = [] := by
    refine quotedToken_none (fun lead isLead back same => ?_) start
    simp only [tokenLeads, List.mem_cons, List.not_mem_nil, or_false] at isLead
    rcases isLead with rfl | rfl | rfl
    · exact noArrow (List.cons.inj same).1
    · exact noArrow (List.cons.inj same).1
    · obtain rfl := (List.cons.inj same).1
      rw [plain] at isQuoteChar
      cases isQuoteChar
  have run : (many (fun c => !isJsWhitespace c) 1 Option.none true).ways start (c :: rest) = [] := by
    simp [ways, lengths, space]
  rw [tokenPattern_eq, ways, ways, none rfl, none rfl, run]
  rfl

/-! ## The tokens of a stretch -/

/-- The tokens of a mark as they are written, with what stands before each. -/
def spellingsOf : List Char × Mark → List (List Char × List Char)
  | (gap, .piece (.word word)) => [(gap, word.spelled)]
  | (gap, .piece (.redirection redirection)) =>
    if redirection.space.val = [] then [(gap, redirection.operatorText ++ redirection.target.spelled)]
    else [(gap, redirection.operatorText), (redirection.space.val, redirection.target.spelled)]
  | (gap, .ampersand) => [(gap, ['&'])]

def Mark.tokens : Mark → List (List Char)
  | .piece (.word word) => [word.text]
  | .piece (.redirection redirection) =>
    if redirection.space.val = [] then [unquote (redirection.operatorText ++ redirection.target.spelled)]
    else [redirection.operatorText, redirection.target.text]
  | .ampersand => [['&']]

def Stretch.tokens (stretch : Stretch) : List (List Char) := stretch.marks.flatMap fun mark => mark.2.tokens

theorem spellingsOf_text (mark : List Char × Mark) :
    (spellingsOf mark).flatMap (fun token => token.1 ++ token.2) = markText mark := by
  obtain ⟨gap, own⟩ := mark
  cases own with
  | ampersand => simp [spellingsOf, markText, Mark.spelled]
  | piece own =>
    cases own with
    | word word => simp [spellingsOf, markText, Mark.spelled, Piece.spelled]
    | redirection redirection =>
      rw [spellingsOf]
      split
      next together => simp [markText, Mark.spelled, Piece.spelled, Redirection.spelled, together]
      next => simp [markText, Mark.spelled, Piece.spelled, Redirection.spelled]

theorem operator_solid (redirection : Redirection) : ∀ c ∈ redirection.operatorText,
    isJsWhitespace c = false ∧ isQuote c = false := by
  intro c member
  rcases List.mem_append.mp member with digit | operator
  · have isDigit := redirection.digits c digit
    have bounds : 48 ≤ c.toNat ∧ c.toNat ≤ 57 := by
      simpa [Char.isDigit, UInt32.le_iff_toNat_le] using isDigit
    constructor
    · simp only [isJsWhitespace, Bool.or_eq_false_iff, Bool.and_eq_false_iff, decide_eq_false_iff_not]
      omega
    · rw [isQuote, Bool.or_eq_false_iff, decide_eq_false_iff_not, decide_eq_false_iff_not]
      constructor
      · rintro rfl
        simp at bounds
      · rintro rfl
        simp at bounds
  · cases kind : redirection.operator with
    | write append =>
      cases append <;> simp [kind, Operator.text] at operator <;> simp [operator, isJsWhitespace, isQuote]
    | clobber =>
      simp [kind, Operator.text] at operator
      rcases operator with rfl | rfl <;> decide
    | writeBoth append =>
      cases append <;> simp [kind, Operator.text] at operator <;> rcases operator with rfl | rfl <;> decide

variable {word : Word}

theorem bare_unquoted (bare : word.quoting = .bare) : ∀ c ∈ word.text, isQuote c = false := by
  intro c member
  have isLiteral := (literal_of_bare bare).2 c member
  rw [isQuote, Bool.or_eq_false_iff, decide_eq_false_iff_not, decide_eq_false_iff_not]
  exact ⟨isLiteralChar_ne isLiteral (by decide), isLiteralChar_ne isLiteral (by decide)⟩

theorem unquote_of_unquoted (unquoted : ∀ c ∈ text, isQuote c = false) : unquote text = text :=
  unquote_plain (fun c first => unquoted c (List.mem_of_mem_head? first))
    fun c last => unquoted c (List.mem_of_mem_getLast? last)

theorem unquote_spelled (word : Word) : unquote word.spelled = word.text := by
  rcases spelled_cases word with ⟨bare, same⟩ | ⟨quote, isQuoteChar, -, -, same⟩
  · rw [same, unquote_of_unquoted (bare_unquoted bare)]
  · rw [same, unquote_quoted isQuoteChar]

theorem spellingsOf_tokens (mark : List Char × Mark) :
    (spellingsOf mark).map (fun token => unquote token.2) = mark.2.tokens := by
  obtain ⟨gap, own⟩ := mark
  cases own with
  | ampersand => rfl
  | piece own =>
    cases own with
    | word word => simp [spellingsOf, Mark.tokens, unquote_spelled]
    | redirection redirection =>
      have operator := unquote_of_unquoted fun c member => (operator_solid redirection c member).2
      rw [spellingsOf, Mark.tokens]
      split
      · rfl
      · simp [operator, unquote_spelled]

/-- A token that the classifier finds: it is taken whole, and neither begins nor ends with a space. -/
structure IsToken (token : List Char) : Prop where
  whole : TakesWhole tokenPattern isJsWhitespace token
  filled : token ≠ []
  first : ∀ c ∈ token.head?, isJsWhitespace c = false
  last : ∀ c ∈ token.getLast?, isJsWhitespace c = false

theorem isToken_run (filled : token ≠ []) (solid : ∀ c ∈ token, isJsWhitespace c = false)
    (unquoted : ∀ c ∈ token, isQuote c = false) : IsToken token where
  whole := takesWhole_run filled solid unquoted
  filled := filled
  first := fun c first => solid c (List.mem_of_mem_head? first)
  last := fun c last => solid c (List.mem_of_mem_getLast? last)

theorem isToken_quoted (isQuoteChar : isQuote quote = true) {lead text : List Char}
    (isLead : lead ∈ tokenLeads) (absent : quote ∉ text) : IsToken (lead ++ quoted quote text) := by
  have solid : isJsWhitespace quote = false := by
    cases space : isJsWhitespace quote with
    | false => rfl
    | true =>
      rw [(space_quote space).1] at isQuoteChar
      cases isQuoteChar
  refine ⟨takesWhole_quoted isQuoteChar isLead absent, by simp [quoted], fun c first => ?_, fun c last => ?_⟩
  · simp only [tokenLeads, List.mem_cons, List.not_mem_nil, or_false] at isLead
    rcases isLead with rfl | rfl | rfl
    · obtain rfl : '>' = c := by simpa using first
      decide
    · obtain rfl : '>' = c := by simpa using first
      decide
    · obtain rfl : quote = c := by simpa [quoted] using first
      exact solid
  · rw [quoted, ← List.cons_append, ← List.append_assoc, List.getLast?_concat] at last
    obtain rfl := Option.some.inj last
    exact solid

theorem isToken_word
    (solid : word.quoting = .bare → ∀ c ∈ word.text, isJsWhitespace c = false) : IsToken word.spelled := by
  rcases spelled_cases word with ⟨bare, same⟩ | ⟨quote, isQuoteChar, absent, -, same⟩
  · rw [same]
    exact isToken_run (literal_of_bare bare).1 (solid bare) (bare_unquoted bare)
  · rw [same]
    exact @isToken_quoted quote isQuoteChar [] word.text (by simp [tokenLeads]) absent

theorem mem_tokenLeads (arrow : isArrow text = true) : text ∈ tokenLeads := by
  rcases (Bool.or_eq_true _ _).mp arrow with one | two
  · obtain rfl := of_decide_eq_true one
    simp [tokenLeads]
  · obtain rfl := of_decide_eq_true two
    simp [tokenLeads]

variable {mark : List Char × Mark}

theorem isToken_spellings (legible : LegibleMark mark.2) : ∀ token ∈ spellingsOf mark, IsToken token.2 := by
  obtain ⟨gap, own⟩ := mark
  cases own with
  | ampersand =>
    intro token member
    obtain rfl := List.mem_singleton.mp member
    exact isToken_run (List.cons_ne_nil _ _) (by simp [isJsWhitespace]) (by simp [isQuote])
  | piece own =>
    obtain ⟨solid, -, joined⟩ := legible
    cases own with
    | word word =>
      intro token member
      obtain rfl := List.mem_singleton.mp member
      exact isToken_word solid
    | redirection redirection =>
      have operator := operator_solid redirection
      intro token member
      rw [spellingsOf] at member
      split at member
      next together =>
        obtain rfl := List.mem_singleton.mp member
        -- the operator and the target are one token
        rcases spelled_cases redirection.target with ⟨bare, same⟩ | ⟨quote, isQuoteChar, absent, notBare, same⟩
        · rw [same]
          refine isToken_run (List.append_ne_nil_of_left_ne_nil (operatorText_ne_nil _) _) ?_ ?_
          · intro c inToken
            rcases List.mem_append.mp inToken with inOperator | inTarget
            · exact (operator c inOperator).1
            · exact solid bare c inTarget
          · intro c inToken
            rcases List.mem_append.mp inToken with inOperator | inTarget
            · exact (operator c inOperator).2
            · exact bare_unquoted bare c inTarget
        · rw [same]
          have arrow := (joined redirection rfl together).resolve_left notBare
          exact isToken_quoted isQuoteChar (mem_tokenLeads arrow) absent
      next =>
        rcases List.mem_cons.mp member with rfl | later
        · exact isToken_run (operatorText_ne_nil _) (fun c inside => (operator c inside).1)
            fun c inside => (operator c inside).2
        · obtain rfl := List.mem_singleton.mp later
          exact isToken_word solid

theorem trim_core {before core after : List Char} (front : ∀ c ∈ before, isJsWhitespace c = true)
    (back : ∀ c ∈ after, isJsWhitespace c = true) (filled : core ≠ [])
    (first : ∀ c ∈ core.head?, isJsWhitespace c = false) (last : ∀ c ∈ core.getLast?, isJsWhitespace c = false) :
    trim (before ++ (core ++ after)) = core := by
  have dropped : (before ++ (core ++ after)).dropWhile isJsWhitespace = core ++ after := by
    rw [List.dropWhile_append_of_pos front]
    obtain ⟨c, rest, rfl⟩ := List.exists_cons_of_ne_nil filled
    exact List.dropWhile_cons_of_neg (by simp [first c rfl])
  have reversed : (after.reverse ++ core.reverse).dropWhile isJsWhitespace = core.reverse := by
    rw [List.dropWhile_append_of_pos fun c member => back c (List.mem_reverse.mp member)]
    cases turned : core.reverse with
    | nil => exact absurd (List.reverse_eq_nil_iff.mp turned) filled
    | cons c rest =>
      have isLast : core.getLast? = some c := by
        rw [List.getLast?_eq_head?_reverse, turned]
        rfl
      exact List.dropWhile_cons_of_neg (by simp [last c isLast])
  rw [trim, dropped, List.reverse_append, reversed, List.reverse_reverse]

/-- What stands between the marks of a stretch is white space. -/
structure Spaced (stretch : Stretch) : Prop where
  gaps : ∀ mark ∈ stretch.marks, ∀ c ∈ mark.1, isJsWhitespace c = true
  after : ∀ c ∈ stretch.after, isJsWhitespace c = true

theorem space_of_blank {c : Char} (blank : isBlank c = true) : isJsWhitespace c = true := by
  rcases (Bool.or_eq_true _ _).mp blank with space | tab
  · obtain rfl := of_decide_eq_true space
    rfl
  · obtain rfl := of_decide_eq_true tab
    rfl

theorem marks_gaps {lead : List Char} {command : SimpleCommand} (spaces : ∀ c ∈ lead, isJsWhitespace c = true) :
    ∀ mark ∈ command.marks lead, ∀ c ∈ mark.1, isJsWhitespace c = true := by
  obtain ⟨first, rest, -, marks⟩ := marks_eq lead command
  intro mark member c inGap
  rw [marks] at member
  rcases List.mem_cons.mp member with rfl | later
  · rcases List.mem_append.mp inGap with inLead | own
    · exact spaces c inLead
    · exact space_of_blank (first.gap.property c own)
  · obtain ⟨spaced, -, rfl⟩ := List.mem_map.mp later
    exact space_of_blank (spaced.gap.property c inGap)

theorem stretchesFrom_spaced {rest : List (Joint × SimpleCommand)} {current : Stretch} (spaced : Spaced current)
    (filled : current.marks ≠ []) : ∀ stretch ∈ stretchesFrom current rest, Spaced stretch ∧ stretch.marks ≠ [] := by
  induction rest generalizing current with
  | nil =>
    intro stretch member
    obtain rfl := List.mem_singleton.mp member
    exact ⟨spaced, filled⟩
  | cons joined rest ih =>
    obtain ⟨joint, command⟩ := joined
    have own (lead : List Char) : ∀ c ∈ command.after.val, isJsWhitespace c = true :=
      fun c member => space_of_blank (command.after.property c member)
    have fresh : Spaced ⟨command.marks [], command.after.val⟩ := ⟨marks_gaps (by simp), own []⟩
    have some (lead : List Char) : command.marks lead ≠ [] := by
      obtain ⟨first, others, -, marks⟩ := marks_eq lead command
      rw [marks]
      exact List.cons_ne_nil _ _
    have cut : ∀ stretch ∈ current :: stretchesFrom ⟨command.marks [], command.after.val⟩ rest,
        Spaced stretch ∧ stretch.marks ≠ [] := by
      intro stretch member
      rcases List.mem_cons.mp member with rfl | later
      · exact ⟨spaced, filled⟩
      · exact ih fresh (some []) stretch later
    cases joint with
    | newline =>
      refine ih ⟨fun mark member => ?_, own []⟩ (List.append_ne_nil_of_left_ne_nil filled _)
      rcases List.mem_append.mp member with before | new
      · exact spaced.gaps mark before
      · refine marks_gaps (fun c inLead => ?_) mark new
        rcases List.mem_append.mp inLead with after | newline
        · exact spaced.after c after
        · obtain rfl := List.mem_singleton.mp newline
          rfl
    | background =>
      refine ih ⟨fun mark member => ?_, own []⟩ (List.append_ne_nil_of_left_ne_nil filled _)
      rcases List.mem_append.mp member with before | new
      · exact spaced.gaps mark before
      · rcases List.mem_cons.mp new with rfl | later
        · exact spaced.after
        · exact fresh.gaps mark later
    | andIf => exact cut
    | orIf => exact cut
    | semicolon => exact cut
    | pipe => exact cut

variable {tokens : List (List Char × List Char)}

theorem length_le_flatMap (filled : ∀ token ∈ tokens, token.2 ≠ []) :
    tokens.length ≤ (tokens.flatMap fun token => token.1 ++ token.2).length := by
  induction tokens with
  | nil => exact Nat.zero_le _
  | cons token tokens ih =>
    have rest := ih fun other member => filled other (List.mem_cons_of_mem _ member)
    have own := List.length_pos_iff.mpr (filled token List.mem_cons_self)
    rw [List.flatMap_cons, List.length_append, List.length_append, List.length_cons]
    omega

theorem flatMap_last (isTokens : ∀ token ∈ tokens, IsToken token.2) :
    ∀ c ∈ (tokens.flatMap fun token => token.1 ++ token.2).getLast?, isJsWhitespace c = false := by
  intro c isLast
  rcases List.eq_nil_or_concat tokens with rfl | ⟨front, last, rfl⟩
  · cases isLast
  · have own := isTokens last (by simp)
    rw [List.concat_eq_append, List.flatMap_append, List.flatMap_singleton, ← List.append_assoc,
      List.getLast?_append_of_ne_nil _ own.filled] at isLast
    exact own.last c isLast

theorem tokenize_trim {after : List Char} (filled : tokens ≠ [])
    (gaps : ∀ token ∈ tokens, ∀ c ∈ token.1, isJsWhitespace c = true) (apart : ∀ token ∈ tokens.tail, token.1 ≠ [])
    (isTokens : ∀ token ∈ tokens, IsToken token.2) (spaces : ∀ c ∈ after, isJsWhitespace c = true) :
    trim (tokens.flatMap (fun token => token.1 ++ token.2) ++ after) ≠ [] ∧
      tokenize (trim (tokens.flatMap (fun token => token.1 ++ token.2) ++ after)) =
        tokens.map fun token => unquote token.2 := by
  obtain ⟨⟨gap, token⟩, others, rfl⟩ := List.exists_cons_of_ne_nil filled
  have own : IsToken token := isTokens (gap, token) List.mem_cons_self
  -- the core is the same tokens, without the first gap
  have isCore : ∀ other ∈ (([] : List Char), token) :: others, IsToken other.2 := by
    intro other member
    rcases List.mem_cons.mp member with rfl | later
    · exact own
    · exact isTokens other (List.mem_cons_of_mem _ later)
  have coreGaps : ∀ other ∈ (([] : List Char), token) :: others, ∀ c ∈ other.1, isJsWhitespace c = true := by
    intro other member
    rcases List.mem_cons.mp member with rfl | later
    · simp
    · exact gaps other (List.mem_cons_of_mem _ later)
  have whole : ((gap, token) :: others).flatMap (fun token => token.1 ++ token.2) ++ after =
      gap ++ (((([], token) :: others).flatMap fun token => token.1 ++ token.2) ++ after) := by
    simp
  have coreFilled : ((([], token) :: others).flatMap fun token => token.1 ++ token.2) ≠ [] := by
    simp [own.filled]
  have coreFirst : ∀ c ∈ ((([], token) :: others).flatMap fun token => token.1 ++ token.2).head?,
      isJsWhitespace c = false := by
    intro c first
    rw [List.flatMap_cons, List.nil_append, List.head?_append_of_ne_nil _ own.filled] at first
    exact own.first c first
  have core := trim_core (gaps (gap, token) List.mem_cons_self) spaces coreFilled coreFirst (flatMap_last isCore)
  rw [whole, core]
  refine ⟨coreFilled, ?_⟩
  have nothing : ∀ c ∈ ([] : List Char), isJsWhitespace c = true := by simp
  have taken := takenFrom_tokens tokenPattern_space (fun _ => rfl) coreGaps apart
    (fun other member => (isCore other member).whole) nothing
    (length_le_flatMap fun other member => (isCore other member).filled) true
  rw [List.append_nil] at taken
  rw [tokenize, takenAll, taken]
  simp

theorem spellingsOf_cons (mark : List Char × Mark) : ∃ token more, spellingsOf mark = (mark.1, token) :: more ∧
      ∀ other ∈ more, other.1 ≠ [] ∧ ∀ c ∈ other.1, isJsWhitespace c = true := by
  obtain ⟨gap, own⟩ := mark
  cases own with
  | ampersand => exact ⟨_, [], rfl, by simp⟩
  | piece own =>
    cases own with
    | word word => exact ⟨_, [], rfl, by simp⟩
    | redirection redirection =>
      rw [spellingsOf]
      split
      · exact ⟨_, [], rfl, by simp⟩
      next apart =>
        refine ⟨_, _, rfl, fun other member => ?_⟩
        obtain rfl := List.mem_singleton.mp member
        exact ⟨apart, fun c inSpace => space_of_blank (redirection.space.property c inSpace)⟩

variable {stretch : Stretch}

theorem tokenize_stretch (legible : Legible stretch) (spaced : Spaced stretch)
    (filled : stretch.marks ≠ []) : trim stretch.text ≠ [] ∧ tokenize (trim stretch.text) = stretch.tokens := by
  have text : stretch.text =
      (stretch.marks.flatMap spellingsOf).flatMap (fun token => token.1 ++ token.2) ++ stretch.after := by
    rw [Stretch.text, List.flatMap_assoc]
    congr 2
    funext mark
    exact (spellingsOf_text mark).symm
  have tokens : (stretch.marks.flatMap spellingsOf).map (fun token => unquote token.2) = stretch.tokens := by
    rw [List.map_flatMap]
    congr 1
    funext mark
    exact spellingsOf_tokens mark
  have some : stretch.marks.flatMap spellingsOf ≠ [] := by
    obtain ⟨mark, rest, marks⟩ := List.exists_cons_of_ne_nil filled
    obtain ⟨token, more, spellings, -⟩ := spellingsOf_cons mark
    simp [marks, spellings]
  have gaps : ∀ token ∈ stretch.marks.flatMap spellingsOf, ∀ c ∈ token.1, isJsWhitespace c = true := by
    intro token member
    obtain ⟨mark, inMarks, inSpellings⟩ := List.mem_flatMap.mp member
    obtain ⟨own, more, spellings, others⟩ := spellingsOf_cons mark
    rw [spellings] at inSpellings
    rcases List.mem_cons.mp inSpellings with rfl | later
    · exact spaced.gaps mark inMarks
    · exact (others token later).2
  have apart : ∀ token ∈ (stretch.marks.flatMap spellingsOf).tail, token.1 ≠ [] := by
    obtain ⟨mark, rest, marks⟩ := List.exists_cons_of_ne_nil filled
    obtain ⟨own, more, spellings, others⟩ := spellingsOf_cons mark
    rw [marks, List.flatMap_cons, spellings, List.cons_append, List.tail_cons]
    intro token member
    rcases List.mem_append.mp member with inMark | later
    · exact (others token inMark).1
    · obtain ⟨next, inRest, inSpellings⟩ := List.mem_flatMap.mp later
      obtain ⟨nextOwn, nextMore, nextSpellings, nextOthers⟩ := spellingsOf_cons next
      rw [nextSpellings] at inSpellings
      rcases List.mem_cons.mp inSpellings with rfl | inMore
      · exact legible.apart next (by rw [marks]; exact inRest)
      · exact (nextOthers token inMore).1
  have isTokens : ∀ token ∈ stretch.marks.flatMap spellingsOf, IsToken token.2 := by
    intro token member
    obtain ⟨mark, inMarks, inSpellings⟩ := List.mem_flatMap.mp member
    exact isToken_spellings (legible.marks mark inMarks) token inSpellings
  rw [text, ← tokens]
  exact tokenize_trim some gaps apart isTokens spaced.after

theorem stretch_mem_segments {line : CommandLine} (stripped : stripHeredocs line.text = line.text)
    (member : stretch ∈ line.stretches) (legible : Legible stretch) :
    ∃ segment ∈ splitShellSegments line.text, tokenize segment = stretch.tokens := by
  have start : Spaced ⟨line.first.marks [], line.first.after.val⟩ :=
    ⟨marks_gaps (by simp), fun c inAfter => space_of_blank (line.first.after.property c inAfter)⟩
  have some : line.first.marks [] ≠ [] := by
    obtain ⟨first, others, -, marks⟩ := marks_eq [] line.first
    rw [marks]
    exact List.cons_ne_nil _ _
  obtain ⟨spaced, filled⟩ := stretchesFrom_spaced start some stretch member
  obtain ⟨notEmpty, tokens⟩ := tokenize_stretch legible spaced filled
  have whole : line.text = Stretch.text ⟨line.first.marks [], line.first.after.val⟩ ++ followingText line.rest := by
    have first := joined_text [] [] line.first
    rw [List.nil_append] at first
    rw [first]
    rfl
  have inCut := stretch_mem_cut (marks_closed [] [] line.first) legible member line.text.length true
    (by rw [whole]; rfl)
  refine ⟨trim stretch.text, List.mem_filter.mpr ⟨List.mem_map.mpr ⟨stretch.text, ?_, rfl⟩, ?_⟩, tokens⟩
  · rw [stripped, cut, whole]
    rw [whole] at inCut
    exact inCut
  · simpa using notEmpty

/-! ## Targets -/

/-- The token of a word that is a target: its text, with the quote that opens it or without. -/
def Reads (token : List Char) (word : Word) : Prop :=
  token = word.text ∨ ∃ quote, isQuote quote = true ∧ token = quote :: word.text

theorem extract_arrow (arrow : isArrow token = true) (next : List Char)
    (rest : List (List Char)) : extractRedirectTargets (token :: next :: rest) =
      (if next = [] then [] else [next]) ++ extractRedirectTargets rest := by
  rw [extractRedirectTargets, if_pos]
  simpa [isArrow] using arrow

def ownTarget (token : List Char) : List (List Char) :=
  if ['>', '>'].isPrefixOf token then [token.drop 2]
  else if ['>'].isPrefixOf token then [token.drop 1]
  else []

theorem extract_other (other : isArrow token = false) (rest : List (List Char)) :
    extractRedirectTargets (token :: rest) = ownTarget token ++ extractRedirectTargets rest := by
  have noArrow : ¬ (token = ['>'] || token = ['>', '>']) = true := by simpa [isArrow] using other
  cases rest with
  | nil =>
    simp only [extractRedirectTargets, noArrow, ownTarget, List.append_nil]
    rfl
  | cons next rest =>
    rw [extractRedirectTargets, if_neg noArrow, ownTarget]
    split
    · rfl
    split <;> rfl

theorem together_token (redirection : Redirection) :
    ∃ token, unquote (redirection.operatorText ++ redirection.target.spelled) = redirection.operatorText ++ token ∧
      Reads token redirection.target ∧ ∃ c rest, token = c :: rest ∧ c ≠ '>' := by
  have operator := operator_solid redirection
  rcases spelled_cases redirection.target with ⟨bare, same⟩ | ⟨quote, isQuoteChar, -, -, same⟩
  · refine ⟨redirection.target.text, ?_, .inl rfl, ?_⟩
    · rw [same]
      refine unquote_of_unquoted fun c member => ?_
      rcases List.mem_append.mp member with inOperator | inTarget
      · exact (operator c inOperator).2
      · exact bare_unquoted bare c inTarget
    · obtain ⟨filled, literal⟩ := literal_of_bare bare
      obtain ⟨c, rest, text⟩ := List.exists_cons_of_ne_nil filled
      exact ⟨c, rest, text, isLiteralChar_ne (literal c (by rw [text]; exact List.mem_cons_self)) (by decide)⟩
  · refine ⟨quote :: redirection.target.text, ?_, .inr ⟨quote, isQuoteChar, rfl⟩, quote, _, rfl,
      isQuote_ne_arrow isQuoteChar⟩
    obtain ⟨c, rest, text⟩ := List.exists_cons_of_ne_nil (operatorText_ne_nil redirection)
    rw [same, text]
    exact unquote_attached isQuoteChar (operator c (by rw [text]; exact List.mem_cons_self)).2 rest _

theorem ownTarget_together {operator token : List Char} (arrow : isArrow operator = true)
    (plain : ∃ c rest, token = c :: rest ∧ c ≠ '>') :
    ownTarget (operator ++ token) = [token] ∧ isArrow (operator ++ token) = false := by
  obtain ⟨c, rest, rfl, other⟩ := plain
  rcases (Bool.or_eq_true _ _).mp arrow with one | two
  · obtain rfl := of_decide_eq_true one
    simp [ownTarget, isArrow, other, Ne.symm other]
  · obtain rfl := of_decide_eq_true two
    simp [ownTarget, isArrow]

theorem extract_mark {mark : Mark} (legible : LegibleMark mark) (rest : List (List Char)) :
    ∃ own, extractRedirectTargets (mark.tokens ++ rest) = own ++ extractRedirectTargets rest ∧
      ∀ redirection, mark = .piece (.redirection redirection) → isArrow redirection.operatorText = true →
        redirection.target.text ≠ [] → ∃ token ∈ own, Reads token redirection.target := by
  cases mark with
  | ampersand => exact ⟨_, extract_other rfl rest, nofun⟩
  | piece own =>
    obtain ⟨-, noArrow, joined⟩ := legible
    cases own with
    | word word => exact ⟨_, extract_other noArrow rest, nofun⟩
    | redirection redirection =>
      rw [Mark.tokens]
      by_cases arrow : isArrow redirection.operatorText = true
      · split
        next =>
          obtain ⟨token, unquoted, reads, plain⟩ := together_token redirection
          obtain ⟨target, other⟩ := ownTarget_together arrow plain
          rw [unquoted, List.singleton_append, extract_other other, target]
          refine ⟨[token], rfl, ?_⟩
          rintro _ ⟨⟩ _ _
          exact ⟨token, List.mem_singleton_self _, reads⟩
        next =>
          refine ⟨_, extract_arrow arrow _ rest, ?_⟩
          rintro _ ⟨⟩ _ filled
          rw [if_neg filled]
          exact ⟨_, List.mem_singleton_self _, .inl rfl⟩
      · have other : isArrow redirection.operatorText = false := by simpa using arrow
        split
        next together =>
          -- the operator is no arrow, so the target is bare and the token no arrow either
          have bare := (joined redirection rfl together).resolve_right arrow
          have token : isArrow (unquote (redirection.operatorText ++ redirection.target.spelled)) = false := by
            rw [spelled_of_bare bare]
            obtain ⟨filled, literal⟩ := literal_of_bare bare
            have unquoted : ∀ c ∈ redirection.operatorText ++ redirection.target.text, isQuote c = false := by
              intro c member
              rcases List.mem_append.mp member with inOperator | inTarget
              · exact (operator_solid redirection c inOperator).2
              · exact bare_unquoted bare c inTarget
            rw [unquote_of_unquoted unquoted, isArrow, Bool.or_eq_false_iff, decide_eq_false_iff_not,
              decide_eq_false_iff_not]
            obtain ⟨c, more, text⟩ := List.exists_cons_of_ne_nil filled
            have plain : c ≠ '>' := isLiteralChar_ne (literal c (by rw [text]; exact List.mem_cons_self)) (by decide)
            constructor
            · intro same
              have inArrow : c ∈ ['>'] := same ▸ (by rw [text]; simp)
              exact plain (List.mem_singleton.mp inArrow)
            · intro same
              have inArrow : c ∈ ['>', '>'] := same ▸ (by rw [text]; simp)
              simp at inArrow
              exact plain inArrow
          refine ⟨_, extract_other token rest, ?_⟩
          rintro _ ⟨⟩ isOne
          exact absurd isOne arrow
        next =>
          refine ⟨ownTarget redirection.operatorText ++ ownTarget redirection.target.text, ?_, ?_⟩
          · have target : isArrow redirection.target.text = false := noArrow
            rw [List.cons_append, List.singleton_append, extract_other other, extract_other target, List.append_assoc]
          · rintro _ ⟨⟩ isOne
            exact absurd isOne arrow

theorem extract_redirection {marks : List (List Char × Mark)} (legible : ∀ mark ∈ marks, LegibleMark mark.2)
    {gap : List Char} {redirection : Redirection} (member : (gap, .piece (.redirection redirection)) ∈ marks)
    (arrow : isArrow redirection.operatorText = true) (filled : redirection.target.text ≠ []) :
    ∃ token ∈ extractRedirectTargets (marks.flatMap fun mark => mark.2.tokens), Reads token redirection.target := by
  induction marks with
  | nil => cases member
  | cons mark marks ih =>
    obtain ⟨own, extracted, named⟩ :=
      extract_mark (legible mark List.mem_cons_self) (marks.flatMap fun mark => mark.2.tokens)
    rw [List.flatMap_cons, extracted]
    rcases List.mem_cons.mp member with rfl | later
    · obtain ⟨token, inOwn, reads⟩ := named redirection rfl arrow filled
      exact ⟨token, List.mem_append_left _ inOwn, reads⟩
    · obtain ⟨token, inRest, reads⟩ := ih (fun other inMarks => legible other (List.mem_cons_of_mem _ inMarks)) later
      exact ⟨token, List.mem_append_right _ inRest, reads⟩

theorem ownWord_tokens {mark : Mark} (own : mark.ownWord = some word) :
    ∃ front, mark.tokens = front ++ [word.text] := by
  cases mark with
  | ampersand => cases own
  | piece piece =>
    cases piece with
    | word other =>
      obtain rfl := Option.some.inj own
      exact ⟨[], rfl⟩
    | redirection redirection =>
      rw [Mark.ownWord] at own
      rw [Mark.tokens]
      split at own
      · cases own
      next apart =>
        obtain rfl := Option.some.inj own
        rw [if_neg apart]
        exact ⟨[redirection.operatorText], rfl⟩

variable {name : Word}

variable {rest : List (List Char × Mark)}

theorem begins_tokens
    (begins : stretch.Begins name rest) : stretch.tokens = name.text :: rest.flatMap fun mark => mark.2.tokens := by
  obtain ⟨gap, marks⟩ := begins
  rw [Stretch.tokens, marks]
  rfl

theorem not_dashed (plain : ¬ isDashed text) : (!(['-'].isPrefixOf text)) = true := by
  rw [Bool.not_eq_true', ← Bool.not_eq_true, List.isPrefixOf_iff_prefix]
  exact plain

theorem commandTargets_operand (begins : stretch.Begins name rest)
    (named : name.text = "rm".toList ∨ name.text = "tee".toList) (member : mark ∈ rest)
    (own : mark.2.ownWord = some word) (plain : ¬ isDashed word.text) : word.text ∈ commandTargets stretch.tokens := by
  obtain ⟨front, tokens⟩ := ownWord_tokens own
  have inRest : word.text ∈ rest.flatMap fun mark => mark.2.tokens :=
    List.mem_flatMap.mpr ⟨mark, member, by rw [tokens]; simp⟩
  have positional : word.text ∈ positionalTokens stretch.tokens := by
    rw [begins_tokens begins, positionalTokens, List.tail_cons]
    exact List.mem_filter.mpr ⟨inRest, not_dashed plain⟩
  have removes : (name.text = "tee".toList || name.text = "rm".toList) = true := by
    rcases named with rm | tee
    · simp [rm]
    · simp [tee]
  rw [begins_tokens begins] at positional ⊢
  simpa only [commandTargets, removes, if_true] using positional

theorem commandTargets_last {front options : List (List Char × Mark)}
    (begins : stretch.Begins name (front ++ mark :: options))
    (named : name.text = "cp".toList ∨ name.text = "mv".toList ∨ name.text = "sed".toList ∧
      ∃ flag ∈ front ++ mark :: options, ∃ own, flag.2 = .piece (.word own) ∧ "-i".toList <+: own.text)
    (own : mark.2.ownWord = some word) (plain : ¬ isDashed word.text)
    (dashed : ∀ option ∈ options, ∃ own, option.2 = .piece (.word own) ∧ isDashed own.text)
    (filled : word.text ≠ []) : word.text ∈ commandTargets stretch.tokens := by
  obtain ⟨start, tokens⟩ := ownWord_tokens own
  have noOptions : (options.flatMap fun mark => mark.2.tokens).filter (fun token => !(['-'].isPrefixOf token)) = [] := by
    rw [List.filter_eq_nil_iff]
    intro token member
    obtain ⟨option, inOptions, inTokens⟩ := List.mem_flatMap.mp member
    obtain ⟨other, isWord, dash⟩ := dashed option inOptions
    rw [isWord] at inTokens
    obtain rfl := List.mem_singleton.mp inTokens
    simpa [isDashed] using dash
  have positional : (positionalTokens stretch.tokens).getLast? = some word.text := by
    rw [begins_tokens begins, positionalTokens, List.tail_cons, List.flatMap_append, List.flatMap_cons, tokens,
      List.filter_append, List.filter_append, noOptions, List.append_nil, List.filter_append]
    have kept : [word.text].filter (fun token => !(['-'].isPrefixOf token)) = [word.text] := by
      simp [not_dashed plain]
    rw [kept, ← List.append_assoc, List.getLast?_concat]
  have notRemoves : (name.text = "tee".toList || name.text = "rm".toList) = false := by
    rcases named with cp | mv | ⟨sed, -⟩
    · rw [cp]
      rfl
    · rw [mv]
      rfl
    · rw [sed]
      rfl
  have copies : (name.text = "cp".toList || name.text = "mv".toList ||
      (name.text = "sed".toList && stretch.tokens.any fun token => "-i".toList.isPrefixOf token)) = true := by
    rcases named with cp | mv | ⟨sed, flag, inMarks, other, isWord, inPlace⟩
    · simp [cp]
    · simp [mv]
    · have inTokens : other.text ∈ stretch.tokens := by
        rw [begins_tokens begins]
        refine List.mem_cons_of_mem _ (List.mem_flatMap.mpr ⟨flag, inMarks, ?_⟩)
        rw [isWord]
        exact List.mem_singleton_self _
      have some : (stretch.tokens.any fun token => "-i".toList.isPrefixOf token) = true :=
        List.any_eq_true.mpr ⟨other.text, inTokens, List.isPrefixOf_iff_prefix.mpr inPlace⟩
      simp only [some, Bool.and_true, sed, decide_true, Bool.or_true]
  rw [begins_tokens begins] at positional copies ⊢
  simp only [commandTargets, notRemoves, copies, Bool.false_eq_true, if_false, if_true, positional,
    Option.toList_some]
  simp [filled]

theorem mem_targets_of_names (legible : Legible stretch) (names : Names stretch word) (filled : word.text ≠ []) :
    ∃ token ∈ extractRedirectTargets stretch.tokens ++ commandTargets stretch.tokens, Reads token word := by
  cases names with
  | redirection member arrow =>
    obtain ⟨token, inTargets, reads⟩ := extract_redirection legible.marks member arrow filled
    exact ⟨token, List.mem_append_left _ inTargets, reads⟩
  | operand begins named member own plain =>
    exact ⟨word.text, List.mem_append_right _ (commandTargets_operand begins named member own plain), .inl rfl⟩
  | last begins named own plain dashed =>
    exact ⟨word.text, List.mem_append_right _ (commandTargets_last begins named own plain dashed filled), .inl rfl⟩

variable {deps : TrunkWriteFirewallDeps}

theorem unquote_reads (reads : Reads token word) (plain : Plain word) : unquote token = word.text := by
  rcases reads with rfl | ⟨quote, isQuoteChar, rfl⟩
  · exact unquote_plain plain.opening plain.closing
  · exact unquote_opened isQuoteChar plain.closing

theorem resolveCommandPath_plain (reads : Reads token word) (plain : Plain word)
    (workdir : String) : resolveCommandPath deps token workdir =
      some (normalizeTargetPath deps.workingDirectory (String.ofList word.text) workdir) := by
  have static : (word.text.any fun c => c = '$' || c.toNat = 96) = false := by
    rw [List.any_eq_false]
    intro c member
    obtain ⟨notVariable, notCommand⟩ := plain.unexpanded c member
    simp [notVariable, notCommand]
  have elsewhere : ['~', '/'].isPrefixOf word.text = false := by
    rw [← Bool.not_eq_true, List.isPrefixOf_iff_prefix]
    exact plain.homeless.2
  rw [resolveCommandPath, unquote_reads reads plain]
  simp only [static, plain.homeless.1, elsewhere, Bool.false_eq_true, if_false]

theorem resolve_normalizeTargetPath (workingDirectory path workdir : String) :
    resolve workingDirectory (normalizeTargetPath workingDirectory path workdir) =
      resolve (resolve workingDirectory workdir) path := by
  unfold normalizeTargetPath
  split
  next absolute => exact resolve_absolute (of_decide_eq_true absolute) _ _
  next => exact resolve_resolve _ _ _

theorem normalizeTargetPath_ne_empty {path : String} (filled : path.toList ≠ []) (workingDirectory workdir : String) :
    normalizeTargetPath workingDirectory path workdir ≠ "" := by
  unfold normalizeTargetPath
  split
  · rintro rfl
    exact filled rfl
  · exact resolve_ne_empty _ _

theorem shows_target {line : CommandLine} {workdir path : String} (stripped : stripHeredocs line.text = line.text)
    (shown : line.Shows (resolve deps.workingDirectory workdir) path) :
    ∃ target ∈ classifyDestructiveBash deps line.text workdir, resolve deps.workingDirectory target = path := by
  obtain ⟨stretch, member, legible, word, names, plain, rfl⟩ := shown
  obtain ⟨segment, inSegments, tokens⟩ := stretch_mem_segments stripped member legible
  obtain ⟨token, inTargets, reads⟩ := mem_targets_of_names legible names plain.filled
  have resolved := @resolveCommandPath_plain token word deps reads plain workdir
  have filled : (String.ofList word.text).toList ≠ [] := by
    rw [String.toList_ofList]
    exact plain.filled
  have pushed : pushResolved deps workdir token =
      some (normalizeTargetPath deps.workingDirectory (String.ofList word.text) workdir) := by
    rw [pushResolved, resolved, Option.filter_some, if_pos]
    simpa using normalizeTargetPath_ne_empty filled deps.workingDirectory workdir
  refine ⟨_, List.mem_flatMap.mpr ⟨segment, inSegments, ?_⟩, resolve_normalizeTargetPath _ _ _⟩
  rw [segmentTargets, tokens]
  exact List.mem_filterMap.mpr ⟨token, inTargets, pushed⟩

/-! ## Coverage -/

def Covers (deps : TrunkWriteFirewallDeps) (line : CommandLine) (workdir : String) : Prop :=
  ∀ path ∈ line.writes (resolve deps.workingDirectory workdir),
    ∃ target ∈ classifyDestructiveBash deps line.text workdir, resolve deps.workingDirectory target = path

def trunkCheckout : TrunkWriteFirewallDeps where
  getDefaultBranch _ := some "main"
  execGit command _ :=
    if command = ["rev-parse", "--show-toplevel"] then some "/repo\n"
    else if command = ["rev-parse", "--abbrev-ref", "HEAD"] then some "main\n"
    else some "worktree /repo\nHEAD 0a1b\n"
  worktreePaths := []
  projectRoot := "/repo"
  getRepoState _ := .ok
  existsSync _ := true
  homedir := "/home/user"
  workingDirectory := "/repo"

def oneBlank : Blanks := ⟨[' '], List.forall_mem_singleton.mpr rfl⟩

def noBlanks : Blanks := ⟨[], List.forall_mem_nil _⟩

theorem follow_blanks (first : SpacedPiece) (pieces : List Piece) :
    (first :: pieces.map (SpacedPiece.mk oneBlank)).IsChain Follows := by
  induction pieces generalizing first with
  | nil => exact List.IsChain.singleton first
  | cons piece pieces ih => exact List.isChain_cons_cons.mpr ⟨.inl (List.cons_ne_nil _ _), ih _⟩

def spacedCommand (name : Word) (rest : List Piece) (unassigned : '=' ∉ name.text) : SimpleCommand where
  pieces := ⟨noBlanks, .word name⟩ :: rest.map (SpacedPiece.mk oneBlank)
  after := noBlanks
  nonempty := List.cons_ne_nil _ _
  follow := follow_blanks _ rest
  unassigned := by
    rintro _ ⟨⟩
    exact unassigned

def bareWord (text : String) (spellable : Spellable .bare text.toList) : Word := ⟨.bare, text.toList, spellable⟩

def removeWord : Word := bareWord "rm" (by decide)
def echoWord : Word := bareWord "echo" (by decide)
def startWord : Word := bareWord "start" (by decide)
def logWord : Word := bareWord "log" (by decide)
def draftWord : Word := ⟨.single, "a b".toList, by decide⟩

def appendLog : Redirection := ⟨[], .write true, oneBlank, logWord, List.forall_mem_nil _, fun _ => rfl⟩

def removalLine : CommandLine :=
  ⟨spacedCommand removeWord [.word draftWord] (by decide),
    [(.andIf, spacedCommand echoWord [.word startWord, .redirection appendLog] (by decide))]⟩

def newlineLine : CommandLine :=
  ⟨spacedCommand echoWord [.word startWord] (by decide),
    [(.newline, spacedCommand removeWord [.word logWord] (by decide))]⟩

def removalStretch : Stretch :=
  ⟨[([], .piece (.word removeWord)), ([' '], .piece (.word draftWord))], []⟩

def echoStretch : Stretch :=
  ⟨[([], .piece (.word echoWord)), ([' '], .piece (.word startWord)), ([' '], .piece (.redirection appendLog))], []⟩

theorem removalLine_stretches : removalLine.stretches = [removalStretch, echoStretch] := rfl

theorem uncut_of_absent (semicolon : ';' ∉ text) (bar : '|' ∉ text) : ∀ c ∈ text, c ≠ ';' ∧ c ≠ '|' := by
  intro c member
  constructor
  · rintro rfl
    exact semicolon member
  · rintro rfl
    exact bar member

theorem solid_of_any (solid : text.any isJsWhitespace = false) : ∀ c ∈ text, isJsWhitespace c = false := by
  intro c member
  simpa using List.any_eq_false.mp solid c member

theorem plain_of_all (filled : word.text ≠ [])
    (static : (word.text.all fun c => c ≠ '$' && c.toNat ≠ 96 && !isQuote c) = true)
    (homeless : word.text ≠ ['~'] ∧ ¬ ['~', '/'] <+: word.text) : Plain word := by
  have each : ∀ c ∈ word.text, (c ≠ '$' ∧ c.toNat ≠ 96) ∧ isQuote c = false := by
    intro c member
    simpa using List.all_eq_true.mp static c member
  exact {
    filled
    unexpanded := fun c member => (each c member).1
    opening := fun c first => (each c (List.mem_of_mem_head? first)).2
    closing := fun c last => (each c (List.mem_of_mem_getLast? last)).2
    homeless }

theorem removalStretch_legible : Legible removalStretch := by
  refine ⟨uncut_of_absent (by decide) (by decide), by decide, by decide, ?_⟩
  rw [removalStretch, List.forall_mem_cons, List.forall_mem_singleton]
  exact ⟨⟨fun _ => solid_of_any (by rfl), rfl, nofun⟩, ⟨nofun, rfl, nofun⟩⟩

theorem echoStretch_legible : Legible echoStretch := by
  refine ⟨uncut_of_absent (by decide) (by decide), by decide, by decide, ?_⟩
  rw [echoStretch, List.forall_mem_cons, List.forall_mem_cons, List.forall_mem_singleton]
  refine ⟨⟨fun _ => solid_of_any (by rfl), rfl, nofun⟩, ⟨fun _ => solid_of_any (by rfl), rfl, nofun⟩,
    ⟨fun _ => solid_of_any (by rfl), rfl, ?_⟩⟩
  rintro _ ⟨⟩ _
  exact .inr rfl

end Advance.Tools
