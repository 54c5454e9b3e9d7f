import Mathlib.Data.List.Infix
import Mathlib.Data.List.TakeWhile

/-! # Patterns

Backtracking patterns over any alphabet: the ways in which a pattern matches the beginning of a
text, in the order in which they are tried, and searching, replacing and cutting with it.
-/

universe u

namespace Advance.Foundation

variable {α : Type u}

/-- One way in which a pattern matches the beginning of a text. -/
structure Way (α : Type u) where
  taken : List α
  rest : List α
  groups : List (List α)
  deriving DecidableEq

/-- A group by its number, empty where there is none. -/
def Way.group (way : Way α) (index : Nat) : List α := (way.groups[index]?).getD []

inductive Pattern (α : Type u) where
  | unit (accepts : α → Bool)
  | many (accepts : α → Bool) (least : Nat) (most : Option Nat) (greedy : Bool)
  | nothing
  | andThen (first second : Pattern α)
  | either (first second : Pattern α)
  | captured (inner : Pattern α)
  | atStart
  | atEnd

namespace Pattern

/-- The lengths a repetition tries, in their order. -/
def lengths (least : Nat) (most : Option Nat) (greedy : Bool) (longest : Nat) : List Nat :=
  let bound := most.elim longest (min longest)
  let ascending := List.range' least (bound + 1 - least)
  if greedy then ascending.reverse else ascending

/-- The ways of a pattern, from the start of a whole text or from a later place. -/
@[simp] def ways : Pattern α → Bool → List α → List (Way α)
  | .unit _, _, [] => []
  | .unit accepts, _, c :: rest => if accepts c then [⟨[c], rest, []⟩] else []
  | .many accepts least most greedy, _, text =>
    (lengths least most greedy (text.takeWhile accepts).length).map fun n =>
      ⟨text.take n, text.drop n, []⟩
  | .nothing, _, text => [⟨[], text, []⟩]
  | .andThen first second, start, text =>
    (first.ways start text).flatMap fun front =>
      (second.ways (start && front.taken.isEmpty) front.rest).map fun back =>
        ⟨front.taken ++ back.taken, back.rest, front.groups ++ back.groups⟩
  | .either first second, start, text => first.ways start text ++ second.ways start text
  | .captured inner, start, text =>
    (inner.ways start text).map fun way => { way with groups := way.taken :: way.groups }
  | .atStart, start, text => if start then [⟨[], text, []⟩] else []
  | .atEnd, _, text => if text.isEmpty then [⟨[], text, []⟩] else []

/-- The way that is found first at the start of a text. -/
def leading (pattern : Pattern α) (text : List α) : Option (Way α) := (pattern.ways true text).head?

/-- The first place from which there is a way, with what stands before it. -/
def search (pattern : Pattern α) : Bool → List α → Option (List α × Way α)
  | start, [] => (pattern.ways start []).head?.map fun way => ([], way)
  | start, c :: rest =>
    match (pattern.ways start (c :: rest)).head? with
    | some way => some ([], way)
    | none => (pattern.search false rest).map fun found => (c :: found.1, found.2)

def replaceFirst (pattern : Pattern α) (replacement text : List α) : List α :=
  match pattern.search true text with
  | none => text
  | some (before, way) => before ++ replacement ++ way.rest

/-- The pieces between what a pattern takes, for a pattern that never takes nothing. -/
def cutFrom (pattern : Pattern α) : Nat → Bool → List α → List (List α)
  | 0, _, text => [text]
  | fuel + 1, start, text =>
    match pattern.search start text with
    | none => [text]
    | some (before, way) => before :: pattern.cutFrom fuel false way.rest

def cut (pattern : Pattern α) (text : List α) : List (List α) :=
  pattern.cutFrom text.length true text

/-- Everything that a pattern takes is replaced, for a pattern that never takes nothing. -/
def replaceAll (pattern : Pattern α) (replacement text : List α) : List α :=
  replacement.intercalate (pattern.cut text)

/-- Everything that a pattern takes, for a pattern that never takes nothing. -/
def takenFrom (pattern : Pattern α) : Nat → Bool → List α → List (List α)
  | 0, _, _ => []
  | fuel + 1, start, text =>
    match pattern.search start text with
    | none => []
    | some (_, way) => way.taken :: pattern.takenFrom fuel false way.rest

def takenAll (pattern : Pattern α) (text : List α) : List (List α) :=
  pattern.takenFrom text.length true text

def word (same : α → α → Bool) : List α → Pattern α
  | [] => .nothing
  | c :: rest => .andThen (.unit (same c)) (word same rest)

def anyOf : List (Pattern α) → Pattern α
  | [] => .unit fun _ => false
  | [only] => only
  | first :: others => .either first (anyOf others)

def inTurn : List (Pattern α) → Pattern α
  | [] => .nothing
  | [only] => only
  | first :: others => .andThen first (inTurn others)

/-! ## The ways of each pattern -/

variable {least : Nat}

theorem mem_lengths {most : Option Nat} {greedy : Bool} {longest n : Nat} :
    n ∈ lengths least most greedy longest ↔ least ≤ n ∧ n ≤ longest ∧ ∀ bound ∈ most, n ≤ bound := by
  have ascending (bound : Nat) : n ∈ List.range' least (bound + 1 - least) ↔ least ≤ n ∧ n ≤ bound := by
    rw [List.mem_range'_1]
    omega
  have unordered : n ∈ lengths least most greedy longest ↔ least ≤ n ∧ n ≤ most.elim longest (min longest) := by
    rw [← ascending, lengths]
    cases greedy <;> simp
  rw [unordered]
  cases most with
  | none => simp
  | some bound => simp [Nat.le_min]

variable {text : List α} {start : Bool} {way : Way α} {accepts : α → Bool}

theorem mem_ways_unit : way ∈ (unit accepts).ways start text ↔ ∃ c, accepts c = true ∧ text = c :: way.rest ∧
      way.taken = [c] ∧ way.groups = [] := by
  cases text with
  | nil => simp [ways]
  | cons c rest =>
    obtain ⟨taken, after, groups⟩ := way
    by_cases accepted : accepts c
    · simp [ways, accepted]
      grind
    · simp [ways, accepted]

theorem length_takeWhile_of_all {n : Nat}
    (short : n ≤ (text.takeWhile accepts).length) : ∀ c ∈ text.take n, accepts c = true := by
  intro c member
  have front : text.take n <+: text.takeWhile accepts :=
    List.prefix_of_prefix_length_le (List.take_prefix n text) (List.takeWhile_prefix accepts)
      ((List.length_take_le n text).trans short)
  exact List.mem_takeWhile_imp (front.subset member)

theorem le_length_takeWhile {front back : List α} (all : ∀ c ∈ front, accepts c = true) :
    front.length ≤ ((front ++ back).takeWhile accepts).length := by
  rw [List.takeWhile_append_of_pos all, List.length_append]
  exact Nat.le_add_right _ _

theorem mem_ways_many {most : Option Nat} {greedy start : Bool} :
    way ∈ (many accepts least most greedy).ways start text ↔
      way.taken ++ way.rest = text ∧ (∀ c ∈ way.taken, accepts c = true) ∧
        least ≤ way.taken.length ∧ (∀ bound ∈ most, way.taken.length ≤ bound) ∧ way.groups = [] := by
  simp only [ways, List.mem_map, mem_lengths]
  constructor
  · rintro ⟨n, ⟨atLeast, short, bounded⟩, rfl⟩
    have fits : n ≤ text.length := short.trans (List.takeWhile_prefix _).length_le
    have length : (text.take n).length = n := List.length_take_of_le fits
    refine ⟨List.take_append_drop n text, length_takeWhile_of_all short, ?_, ?_, rfl⟩
    · rwa [length]
    · rwa [length]
  · rintro ⟨rfl, all, atLeast, bounded, groups⟩
    refine ⟨way.taken.length, ⟨atLeast, le_length_takeWhile all, bounded⟩, ?_⟩
    rw [List.take_left, List.drop_left, ← groups]

variable {first second : Pattern α}

theorem mem_ways_andThen : way ∈ (andThen first second).ways start text ↔ ∃ front ∈ first.ways start text,
        ∃ back ∈ second.ways (start && front.taken.isEmpty) front.rest,
          way = ⟨front.taken ++ back.taken, back.rest, front.groups ++ back.groups⟩ := by
  simp only [ways, List.mem_flatMap, List.mem_map, eq_comm]

theorem mem_ways_either : way ∈ (either first second).ways start text ↔
      way ∈ first.ways start text ∨ way ∈ second.ways start text := List.mem_append

theorem mem_ways_captured {inner : Pattern α} : way ∈ (captured inner).ways start text ↔
      ∃ own ∈ inner.ways start text, way = { own with groups := own.taken :: own.groups } := by
  simp only [ways, List.mem_map, eq_comm]

theorem mem_ways_atEnd : way ∈ (atEnd : Pattern α).ways start text ↔ text = [] ∧ way = ⟨[], [], []⟩ := by
  cases text with
  | nil => simp [ways]
  | cons c rest => simp [ways]

theorem word_taken {same : α → α → Bool} {letters : List α} (member : way ∈ (word same letters).ways start text) :
    List.Forall₂ (fun own other => same own other = true) letters way.taken := by
  induction letters generalizing start text way with
  | nil =>
    obtain rfl := List.mem_singleton.mp member
    exact .nil
  | cons c rest ih =>
    obtain ⟨front, inFront, back, inBack, rfl⟩ := mem_ways_andThen.mp member
    obtain ⟨other, accepted, -, taken, -⟩ := mem_ways_unit.mp inFront
    rw [taken, List.singleton_append]
    exact .cons accepted (ih inBack)

/-! ## What a way takes -/

variable {pattern : Pattern α}

section

variable (member : way ∈ pattern.ways start text)
include member

/-- What a way takes and what it leaves make up the text. -/
theorem ways_append : way.taken ++ way.rest = text := by
  induction pattern generalizing start text way with
  | unit accepts =>
    obtain ⟨c, -, rfl, taken, -⟩ := mem_ways_unit.mp member
    rw [taken, List.singleton_append]
  | many accepts least most greedy => exact (mem_ways_many.mp member).1
  | nothing =>
    obtain rfl := List.mem_singleton.mp member
    rfl
  | andThen first second ihFirst ihSecond =>
    obtain ⟨front, inFirst, back, inSecond, rfl⟩ := mem_ways_andThen.mp member
    rw [List.append_assoc, ihSecond inSecond, ihFirst inFirst]
  | either first second ihFirst ihSecond =>
    rcases mem_ways_either.mp member with inFirst | inSecond
    · exact ihFirst inFirst
    · exact ihSecond inSecond
  | captured inner ih =>
    obtain ⟨own, inInner, rfl⟩ := mem_ways_captured.mp member
    have whole := ih inInner
    exact whole
  | atStart =>
    cases start with
    | false => simp [ways] at member
    | true =>
      obtain rfl := List.mem_singleton.mp member
      rfl
  | atEnd =>
    obtain ⟨rfl, rfl⟩ := mem_ways_atEnd.mp member
    rfl

theorem group_infix_taken : ∀ group ∈ way.groups, group <:+: way.taken := by
  induction pattern generalizing start text way with
  | unit accepts =>
    obtain ⟨c, -, -, -, groups⟩ := mem_ways_unit.mp member
    simp [groups]
  | many accepts least most greedy => simp [(mem_ways_many.mp member).2.2.2.2]
  | nothing =>
    obtain rfl := List.mem_singleton.mp member
    simp
  | andThen first second ihFirst ihSecond =>
    obtain ⟨front, inFirst, back, inSecond, rfl⟩ := mem_ways_andThen.mp member
    intro group inGroups
    rcases List.mem_append.mp inGroups with early | late
    · exact (ihFirst inFirst group early).trans (List.prefix_append _ _).isInfix
    · exact (ihSecond inSecond group late).trans (List.suffix_append _ _).isInfix
  | either first second ihFirst ihSecond =>
    rcases mem_ways_either.mp member with inFirst | inSecond
    · exact ihFirst inFirst
    · exact ihSecond inSecond
  | captured inner ih =>
    obtain ⟨own, inInner, rfl⟩ := mem_ways_captured.mp member
    intro group inGroups
    rcases List.mem_cons.mp inGroups with rfl | inside
    · exact List.infix_refl _
    · exact ih inInner group inside
  | atStart =>
    cases start with
    | false => simp [ways] at member
    | true =>
      obtain rfl := List.mem_singleton.mp member
      simp
  | atEnd =>
    obtain ⟨-, rfl⟩ := mem_ways_atEnd.mp member
    simp

theorem group_within (index : Nat) : way.group index <:+: text := by
  unfold Way.group
  cases named : way.groups[index]? with
  | none => exact List.nil_infix
  | some group =>
    have inTaken := group_infix_taken member group (List.mem_of_getElem? named)
    rw [← ways_append member]
    exact inTaken.trans (List.prefix_append _ _).isInfix

end

theorem mem_of_leading (leads : pattern.leading text = some way) : way ∈ pattern.ways true text :=
  List.mem_of_head? leads

/-! ## Searching and cutting -/

theorem search_eq_some {text before : List α} (found : pattern.search start text = some (before, way)) :
    before ++ way.taken ++ way.rest = text ∧ ∃ start, way ∈ pattern.ways start (way.taken ++ way.rest) := by
  induction text generalizing start before with
  | nil =>
    obtain ⟨own, first, same⟩ := Option.map_eq_some_iff.mp found
    obtain ⟨rfl, rfl⟩ := Prod.mk.inj same
    have member := List.mem_of_head? first
    rw [List.nil_append, ways_append member]
    exact ⟨rfl, start, member⟩
  | cons c rest ih =>
    rw [search] at found
    split at found
    next own first =>
      obtain ⟨rfl, rfl⟩ := Prod.mk.inj (Option.some.inj found)
      have member := List.mem_of_head? first
      rw [List.nil_append, ways_append member]
      exact ⟨rfl, start, member⟩
    next =>
      obtain ⟨⟨front, own⟩, later, same⟩ := Option.map_eq_some_iff.mp found
      obtain ⟨rfl, rfl⟩ := Prod.mk.inj same
      obtain ⟨whole, member⟩ := ih later
      exact ⟨by rw [← whole]; rfl, member⟩

variable {fuel : Nat}

theorem cutFrom_infix : ∀ piece ∈ pattern.cutFrom fuel start text, piece <:+: text := by
  induction fuel generalizing start text with
  | zero =>
    intro piece member
    obtain rfl := List.mem_singleton.mp member
    exact List.infix_refl _
  | succ fuel ih =>
    intro piece member
    rw [cutFrom] at member
    split at member
    next =>
      obtain rfl := List.mem_singleton.mp member
      exact List.infix_refl _
    next before way found =>
      have whole := (search_eq_some found).1
      rcases List.mem_cons.mp member with rfl | later
      · rw [← whole, List.append_assoc]
        exact (List.prefix_append _ _).isInfix
      · rw [← whole]
        exact (ih piece later).trans (List.suffix_append _ _).isInfix

theorem cutFrom_ne_nil (pattern : Pattern α) (fuel : Nat) (start : Bool) (text : List α) :
    pattern.cutFrom fuel start text ≠ [] := by
  cases fuel with
  | zero => simp [cutFrom]
  | succ fuel =>
    rw [cutFrom]
    split <;> simp

theorem cut_within {text piece : List α} (member : piece ∈ pattern.cut text) :
    piece <:+: text := cutFrom_infix piece member

theorem replaceAll_filter {replacement : List α} {keep : α → Bool}
    (takes : ∀ start text, ∀ way ∈ pattern.ways start text, way.taken.filter keep = [])
    (new : replacement.filter keep = []) (text : List α) :
    (pattern.replaceAll replacement text).filter keep = text.filter keep := by
  have pieces : ∀ fuel start text,
      (replacement.intercalate (pattern.cutFrom fuel start text)).filter keep = text.filter keep := by
    intro fuel
    induction fuel with
    | zero => intro start text; simp [cutFrom, List.intercalate]
    | succ fuel ih =>
      intro start text
      rw [cutFrom]
      split
      next => simp [List.intercalate]
      next before way found =>
        obtain ⟨whole, place, member⟩ := search_eq_some found
        have left := ih false way.rest
        have joined : replacement.intercalate (before :: pattern.cutFrom fuel false way.rest) =
            before ++ replacement ++ replacement.intercalate (pattern.cutFrom fuel false way.rest) := by
          cases cuts : pattern.cutFrom fuel false way.rest with
          | nil => exact absurd cuts (cutFrom_ne_nil _ _ _ _)
          | cons piece pieces => simp [List.intercalate]
        rw [joined, ← whole]
        simp only [List.filter_append, left, new, takes _ _ _ member, List.append_nil]
  exact pieces _ _ _

/-! ## One unit at a time -/

theorem search_of_way
    (first : (pattern.ways start text).head? = some way) : pattern.search start text = some ([], way) := by
  cases text with
  | nil => rw [search, first]; rfl
  | cons c rest => rw [search, first]

theorem search_of_none {c : α} {rest : List α} (none : (pattern.ways start (c :: rest)).head? = none) :
    pattern.search start (c :: rest) = (pattern.search false rest).map fun found => (c :: found.1, found.2) := by
  rw [search, none]

/-- The unit before the first of some pieces. -/
def prependTo (c : α) : List (List α) → List (List α)
  | [] => [[c]]
  | piece :: pieces => (c :: piece) :: pieces

theorem cutFrom_of_way (first : (pattern.ways start text).head? = some way) :
    pattern.cutFrom (fuel + 1) start text = [] :: pattern.cutFrom fuel false way.rest := by
  rw [cutFrom, search_of_way first]

theorem cutFrom_of_none {c : α} {rest : List α} (none : (pattern.ways start (c :: rest)).head? = none) :
    pattern.cutFrom (fuel + 1) start (c :: rest) = prependTo c (pattern.cutFrom (fuel + 1) false rest) := by
  rw [cutFrom, cutFrom, search_of_none none]
  cases pattern.search false rest <;> rfl

theorem cutFrom_nil (none : pattern.ways start [] = []) (fuel : Nat) : pattern.cutFrom fuel start [] = [[]] := by
  cases fuel with
  | zero => rfl
  | succ fuel => rw [cutFrom, search, none]; rfl

theorem ways_word_exact [DecidableEq α] (letters : List α) (start : Bool) (text : List α) :
    (word (fun own other => decide (own = other)) letters).ways start text =
      if letters.isPrefixOf text then [⟨letters, text.drop letters.length, []⟩] else [] := by
  induction letters generalizing start text with
  | nil => simp [word, ways]
  | cons letter letters ih =>
    cases text with
    | nil => simp [word, ways]
    | cons c rest =>
      by_cases same : letter = c
      · subst same
        by_cases isPrefix : letters <+: rest <;> simp [word, ways, ih, isPrefix]
      · simp [word, ways, same]

/-! ## The way that comes first -/

theorem head_andThen {front back : Way α} (inFirst : (first.ways start text).head? = some front)
    (inSecond : (second.ways (start && front.taken.isEmpty) front.rest).head? = some back) :
    ((andThen first second).ways start text).head? =
      some ⟨front.taken ++ back.taken, back.rest, front.groups ++ back.groups⟩ := by
  obtain ⟨others, isFirst⟩ := List.head?_eq_some_iff.mp inFirst
  obtain ⟨more, isSecond⟩ := List.head?_eq_some_iff.mp inSecond
  simp [ways, isFirst, isSecond]

theorem head_either_left (inFirst : (first.ways start text).head? = some way) :
    ((either first second).ways start text).head? = some way := by
  obtain ⟨others, isFirst⟩ := List.head?_eq_some_iff.mp inFirst
  simp [ways, isFirst]

theorem head_either_right (none : first.ways start text = []) :
    ((either first second).ways start text).head? = (second.ways start text).head? := by
  simp [ways, none]

theorem head_many {run rest : List α} (all : ∀ c ∈ run, accepts c = true)
    (stops : ∀ c ∈ rest.head?, accepts c = false) (long : least ≤ run.length) (start : Bool) :
    ((many accepts least none true).ways start (run ++ rest)).head? = some ⟨run, rest, []⟩ := by
  have longest : (run ++ rest).takeWhile accepts = run := by
    rw [List.takeWhile_append_of_pos all]
    cases rest with
    | nil => simp
    | cons c rest => simp [stops c rfl]
  have split : run.length + 1 - least = (run.length - least) + 1 := by omega
  simp only [ways, longest, lengths, Option.elim_none, if_true, split, List.range'_1_concat, List.reverse_append,
    List.reverse_singleton, List.singleton_append, List.map_cons, List.head?_cons]
  rw [Nat.add_sub_cancel' long, List.take_left, List.drop_left]

/-! ## Tokens between spaces -/

def Ends (space : α → Bool) (rest : List α) : Prop := ∀ c ∈ rest.head?, space c = true

/-- A token is taken whole wherever it stands before a space or the end. -/
def TakesWhole (pattern : Pattern α) (space : α → Bool) (token : List α) : Prop :=
  ∀ start rest, Ends space rest → (pattern.ways start (token ++ rest)).head? = some ⟨token, rest, []⟩

section

variable {pattern : Pattern α} {space : α → Bool}
  (avoids : ∀ start c rest, space c = true → pattern.ways start (c :: rest) = [])
  (needs : ∀ start, pattern.ways start [] = [])

include avoids

theorem search_skip {gap token rest : List α} (gaps : ∀ c ∈ gap, space c = true)
    (whole : TakesWhole pattern space token) (ends : Ends space rest) (start : Bool) :
    pattern.search start (gap ++ (token ++ rest)) = some (gap, ⟨token, rest, []⟩) := by
  induction gap generalizing start with
  | nil => exact search_of_way (whole start rest ends)
  | cons c gap ih =>
    have skipped := ih (fun other member => gaps other (List.mem_cons_of_mem _ member)) false
    rw [List.cons_append, search_of_none, skipped]
    · rfl
    · rw [avoids start c _ (gaps c List.mem_cons_self)]
      rfl

include needs

theorem search_spaces {after : List α} (spaces : ∀ c ∈ after, space c = true) (start : Bool) :
    pattern.search start after = none := by
  induction after generalizing start with
  | nil => rw [search, needs]; rfl
  | cons c after ih =>
    rw [search_of_none, ih fun other member => spaces other (List.mem_cons_of_mem _ member)]
    · rfl
    · rw [avoids start c _ (spaces c List.mem_cons_self)]
      rfl

theorem takenFrom_tokens {tokens : List (List α × List α)} {after : List α}
    (gaps : ∀ token ∈ tokens, ∀ c ∈ token.1, space c = true) (apart : ∀ token ∈ tokens.tail, token.1 ≠ [])
    (whole : ∀ token ∈ tokens, TakesWhole pattern space token.2) (spaces : ∀ c ∈ after, space c = true)
    {fuel : Nat} (enough : tokens.length ≤ fuel) (start : Bool) :
    pattern.takenFrom fuel start (tokens.flatMap (fun token => token.1 ++ token.2) ++ after) =
      tokens.map Prod.snd := by
  induction tokens generalizing fuel start with
  | nil =>
    cases fuel with
    | zero => rfl
    | succ fuel =>
      have none := search_spaces avoids needs spaces start
      simp [takenFrom, none]
  | cons token tokens ih =>
    obtain ⟨gap, own⟩ := token
    cases fuel with
    | zero => simp at enough
    | succ fuel =>
      have rest := ih (fun other member => gaps other (List.mem_cons_of_mem _ member))
        (fun other member => apart other (List.mem_of_mem_tail member))
        (fun other member => whole other (List.mem_cons_of_mem _ member)) (Nat.le_of_succ_le_succ enough) false
      -- what follows the token begins with the next gap or with the spaces at the end
      have ends : Ends space (tokens.flatMap (fun token => token.1 ++ token.2) ++ after) := by
        intro c first
        cases tokens with
        | nil => exact spaces c (List.mem_of_mem_head? first)
        | cons next others =>
          obtain ⟨nextGap, nextOwn⟩ := next
          have filled : nextGap ≠ [] := apart _ List.mem_cons_self
          obtain ⟨d, nextRest, rfl⟩ := List.exists_cons_of_ne_nil filled
          obtain rfl : d = c := by simpa using first
          exact gaps (d :: nextRest, nextOwn) (by simp) d List.mem_cons_self
      have found := search_skip avoids (gaps (gap, own) List.mem_cons_self) (whole (gap, own) List.mem_cons_self)
        ends start
      rw [takenFrom, List.flatMap_cons, List.append_assoc, List.append_assoc, found]
      simp only [rest, List.map_cons]

end

end Pattern

end Advance.Foundation
