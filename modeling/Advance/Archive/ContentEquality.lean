import Advance.Archive.ProjectionProof
import Advance.Foundation.StableSort
import Advance.Storage.StoreDisk

/-! # Content equality of requirements

An add whose requirement is there with the same content counts as applied.  The
comparison sorts the tags and joins them by line breaks, and sorts the scenarios
by the locale order of their ids.
-/

namespace Advance.Archive

open Foundation
open JavaScript
open Storage
open Types

/-! ## The comparison -/

/-- The order `[...].sort()` sorts texts by. -/
def unitsBefore (left right : String) : Prop := textBefore right left = false

instance : DecidableRel unitsBefore :=
  fun left right => inferInstanceAs (Decidable (textBefore right left = false))

/-- `requirement.tags ?? []` -/
def tagList (requirement : Requirement) : List String := requirement.tags.getD []

/-- `requirement.scenarios ?? []` -/
def scenarioList (requirement : Requirement) : List Scenario := requirement.scenarios.getD []

/-- `[...(requirement.tags ?? [])].sort().join("\n")` -/
def joinedTags (requirement : Requirement) : String :=
  "\n".intercalate ((tagList requirement).insertionSort unitsBefore)

/-- The text `norm` makes of a scenario, as the value it spells. -/
def norm (scenario : Scenario) : JsVal :=
  .obj [("id", .str scenario.id), ("title", .str scenario.title), ("given", ofTexts scenario.given),
    ("when", .str scenario.whenText), ("then", ofTexts scenario.thenTexts)]

section

variable (localeCompare : String → String → Ordering)

def scenarioBefore (left right : Scenario) : Prop := localeBefore localeCompare left.id right.id

instance : DecidableRel (scenarioBefore localeCompare) :=
  fun left right => inferInstanceAs (Decidable (localeBefore localeCompare left.id right.id))

/-- `[...(requirement.scenarios ?? [])].sort((x, y) => x.id.localeCompare(y.id)).map(norm)` -/
def sortedNorms (requirement : Requirement) : List JsVal :=
  ((scenarioList requirement).insertionSort (scenarioBefore localeCompare)).map norm

def requirementsContentEqual (a b : Requirement) : Bool :=
  if a.id ≠ b.id then false
  else if a.title ≠ b.title then false
  else if a.body ≠ b.body then false
  else if a.priority ≠ b.priority then false
  else if joinedTags a ≠ joinedTags b then false
  else
    decide ((sortedNorms localeCompare a).length = (sortedNorms localeCompare b).length) &&
      ((sortedNorms localeCompare a).zip (sortedNorms localeCompare b)).all fun pair =>
        decide (pair.1 = pair.2)

end

/-! ## The fields it is about -/

/-- The fields of a scenario that count. -/
structure ScenarioContent where
  id : String
  title : String
  given : List String
  whenText : String
  thenTexts : List String
  deriving DecidableEq

def scenarioContent (scenario : Scenario) : ScenarioContent :=
  ⟨scenario.id, scenario.title, scenario.given, scenario.whenText, scenario.thenTexts⟩

def scenarioContents (requirement : Requirement) : List ScenarioContent :=
  (scenarioList requirement).map scenarioContent

structure SameHead (a b : Requirement) : Prop where
  id : a.id = b.id
  title : a.title = b.title
  body : a.body = b.body
  priority : a.priority = b.priority

/-- Equal fields, tags and scenarios as multisets. -/
structure SameContent (a b : Requirement) : Prop where
  head : SameHead a b
  tags : (tagList a).Perm (tagList b)
  scenarios : (scenarioContents a).Perm (scenarioContents b)

/-- The lines that tags spell one after the other; no tags at all spell one empty line. -/
def linesOf : List String → List (List Char)
  | [] => [[]]
  | tags => tags.flatMap fun tag => tag.toList.splitOn '\n'

def SameLines (a b : Requirement) : Prop :=
  linesOf ((tagList a).insertionSort unitsBefore) = linesOf ((tagList b).insertionSort unitsBefore)

section

variable (localeCompare : String → String → Ordering)

def contentBefore (left right : ScenarioContent) : Prop := localeBefore localeCompare left.id right.id

instance : DecidableRel (contentBefore localeCompare) :=
  fun left right => inferInstanceAs (Decidable (localeBefore localeCompare left.id right.id))

/-- Scenarios whose ids tie stand in both requirements the same number of times in the same order. -/
def SameIdOrder (a b : Requirement) : Prop :=
  ∀ pivot, tiesOf (contentBefore localeCompare) pivot (scenarioContents a) =
    tiesOf (contentBefore localeCompare) pivot (scenarioContents b)

/-- No two tag lists run together, and no scenarios of one id stand in another order. -/
structure Told (a b : Requirement) : Prop where
  tags : SameLines a b → SameIdOrder localeCompare a b → (tagList a).Perm (tagList b)
  scenarios : (tagList a).Perm (tagList b) →
    (scenarioContents a).Perm (scenarioContents b) → SameIdOrder localeCompare a b

end

/-! ## Sorting texts -/

theorem units_start {c d : Char} {rest others : List Nat} (same : (if c.toNat < 0x10000 then [c.toNat]
        else [0xD800 + (c.toNat - 0x10000) / 0x400, 0xDC00 + (c.toNat - 0x10000) % 0x400]) ++ rest =
      (if d.toNat < 0x10000 then [d.toNat]
        else [0xD800 + (d.toNat - 0x10000) / 0x400, 0xDC00 + (d.toNat - 0x10000) % 0x400]) ++ others) :
    c = d ∧ rest = others := by
  have validC : c.toNat < 0xD800 ∨ 0xDFFF < c.toNat ∧ c.toNat < 0x110000 := c.valid
  have validD : d.toNat < 0xD800 ∨ 0xDFFF < d.toNat ∧ d.toNat < 0x110000 := d.valid
  split at same
  · split at same
    · obtain ⟨first, later⟩ := List.cons.inj same
      exact ⟨Char.toNat_inj.mp first, later⟩
    · obtain ⟨first, _⟩ := List.cons.inj same
      omega
  · split at same
    · obtain ⟨first, _⟩ := List.cons.inj same
      omega
    · obtain ⟨first, later⟩ := List.cons.inj same
      obtain ⟨second, last⟩ := List.cons.inj later
      exact ⟨Char.toNat_inj.mp (by omega), last⟩

theorem utf16Units_injective : Function.Injective utf16Units := by
  have onLists : ∀ left right : List Char, (left.flatMap fun c =>
        if c.toNat < 0x10000 then [c.toNat]
        else [0xD800 + (c.toNat - 0x10000) / 0x400, 0xDC00 + (c.toNat - 0x10000) % 0x400]) =
      (right.flatMap fun c =>
        if c.toNat < 0x10000 then [c.toNat]
        else [0xD800 + (c.toNat - 0x10000) / 0x400, 0xDC00 + (c.toNat - 0x10000) % 0x400]) → left = right := by
    intro left
    induction left with
    | nil =>
      intro right same
      cases right with
      | nil => rfl
      | cons d right =>
        rw [List.flatMap_cons] at same
        split at same <;> cases same
    | cons c left ih =>
      intro right same
      cases right with
      | nil =>
        rw [List.flatMap_cons] at same
        split at same <;> cases same
      | cons d right =>
        rw [List.flatMap_cons, List.flatMap_cons] at same
        obtain ⟨rfl, rest⟩ := units_start same
        rw [ih right rest]
  intro left right same
  exact String.toList_injective (onLists left.toList right.toList same)

theorem unitsBefore_iff {left right : String} : unitsBefore left right ↔ ¬ utf16Units right < utf16Units left := by
  simp [unitsBefore, textBefore]

theorem unitsBefore_total : Std.Total unitsBefore where
  total := fun left right => by
    rw [unitsBefore_iff, unitsBefore_iff]
    exact List.le_total (utf16Units _) (utf16Units _)

theorem unitsBefore_trans : IsTrans String unitsBefore where
  trans := fun _ _ _ first second => unitsBefore_iff.mpr
    (List.le_trans (unitsBefore_iff.mp first) (unitsBefore_iff.mp second))

theorem unitsBefore_antisymm : Std.Antisymm unitsBefore where
  antisymm := fun _ _ forward backward => utf16Units_injective
    (List.le_antisymm (unitsBefore_iff.mp forward) (unitsBefore_iff.mp backward))

theorem sortedTexts_eq_iff {left right : List String} :
    left.insertionSort unitsBefore = right.insertionSort unitsBefore ↔ left.Perm right := by
  have total := unitsBefore_total
  have trans := unitsBefore_trans
  have antisymm := unitsBefore_antisymm
  constructor
  · intro same
    exact (List.perm_insertionSort unitsBefore left).symm.trans (same ▸ List.perm_insertionSort unitsBefore right)
  · intro perm
    have sorted : (left.insertionSort unitsBefore).Perm (right.insertionSort unitsBefore) :=
      (List.perm_insertionSort _ _).trans (perm.trans (List.perm_insertionSort _ _).symm)
    exact sorted.eq_of_pairwise (fun _ _ _ _ => Std.Antisymm.antisymm _ _)
      (List.pairwise_insertionSort _ _) (List.pairwise_insertionSort _ _)

/-! ## Joining texts -/

theorem splitOn_join (texts : List String) : ("\n".intercalate texts).toList.splitOn '\n' = linesOf texts := by
  induction texts with
  | nil => simp [linesOf]
  | cons text texts ih =>
    cases texts with
    | nil => simp [linesOf]
    | cons next texts =>
      rw [String.intercalate_cons_cons]
      have parts : (text ++ "\n" ++ "\n".intercalate (next :: texts)).toList =
          text.toList ++ '\n' :: ("\n".intercalate (next :: texts)).toList := by simp
      rw [parts, List.splitOn_append_cons_self, ih]
      simp [linesOf]

theorem join_eq_iff {left right : List String} :
    "\n".intercalate left = "\n".intercalate right ↔ linesOf left = linesOf right := by
  constructor
  · intro same
    rw [← splitOn_join, ← splitOn_join, same]
  · intro same
    rw [← splitOn_join, ← splitOn_join] at same
    have joined := congrArg (List.intercalate ['\n']) same
    rw [List.intercalate_splitOn, List.intercalate_splitOn] at joined
    exact String.toList_injective joined

/-! ## Comparing scenarios -/

/-- The value the text of a scenario spells, from the fields that count. -/
def normOf (content : ScenarioContent) : JsVal :=
  .obj [("id", .str content.id), ("title", .str content.title), ("given", ofTexts content.given),
    ("when", .str content.whenText), ("then", ofTexts content.thenTexts)]

theorem ofTexts_injective : Function.Injective ofTexts := by
  intro left right same
  exact List.map_injective_iff.mpr (fun _ _ => JsVal.str.inj) (JsVal.arr.inj same)

theorem normOf_injective : Function.Injective normOf := by
  intro left right same
  cases left
  cases right
  simp only [normOf, JsVal.obj.injEq, List.cons.injEq, Prod.mk.injEq, JsVal.str.injEq, true_and, and_true,
    ofTexts_injective.eq_iff] at same
  obtain ⟨rfl, rfl, rfl, rfl, rfl⟩ := same
  rfl

theorem everyPlace_iff {left right : List JsVal} : (decide (left.length = right.length) &&
      (left.zip right).all fun pair => decide (pair.1 = pair.2)) = true ↔ left = right := by
  induction left generalizing right with
  | nil => cases right <;> simp
  | cons first left ih =>
    cases right with
    | nil => simp
    | cons other right =>
      have rest := @ih right
      simp only [Bool.and_eq_true, decide_eq_true_eq] at rest
      simp only [List.length_cons, Nat.add_right_cancel_iff, List.zip_cons_cons, List.all_cons, Bool.and_eq_true,
        decide_eq_true_eq, List.cons.injEq, ← rest]
      tauto

section

variable {localeCompare : String → String → Ordering}

theorem contentBefore_total [Std.TransCmp localeCompare] : Std.Total (contentBefore localeCompare) where
  total := fun left right => localeBefore_total.total left.id right.id

theorem contentBefore_trans [Std.TransCmp localeCompare] : IsTrans ScenarioContent (contentBefore localeCompare) where
  trans := fun _ _ _ first second => localeBefore_trans.trans _ _ _ first second

variable (localeCompare) in
theorem sortedNorms_eq_map (requirement : Requirement) : sortedNorms localeCompare requirement =
      ((scenarioContents requirement).insertionSort (contentBefore localeCompare)).map normOf := by
  have sorted := List.map_insertionSort (scenarioBefore localeCompare) (contentBefore localeCompare)
    scenarioContent (scenarioList requirement) fun _ _ _ _ => Iff.rfl
  rw [scenarioContents, ← sorted, List.map_map]
  rfl

variable {a b : Requirement}

theorem sortedNorms_eq_iff [Std.TransCmp localeCompare] :
    sortedNorms localeCompare a = sortedNorms localeCompare b ↔ SameIdOrder localeCompare a b := by
  have total : Std.Total (contentBefore localeCompare) := contentBefore_total
  have trans : IsTrans ScenarioContent (contentBefore localeCompare) := contentBefore_trans
  rw [sortedNorms_eq_map, sortedNorms_eq_map, (List.map_injective_iff.mpr normOf_injective).eq_iff]
  exact sorted_eq_iff

theorem SameIdOrder.perm [Std.TransCmp localeCompare] (order : SameIdOrder localeCompare a b) :
    (scenarioContents a).Perm (scenarioContents b) := by
  have same := sortedNorms_eq_iff.mpr order
  rw [sortedNorms_eq_map, sortedNorms_eq_map, (List.map_injective_iff.mpr normOf_injective).eq_iff] at same
  exact (List.perm_insertionSort (contentBefore localeCompare) _).symm.trans
    (same ▸ List.perm_insertionSort (contentBefore localeCompare) _)

theorem joinedTags_eq_iff : joinedTags a = joinedTags b ↔ SameLines a b := join_eq_iff

theorem sameLines_of_perm (perm : (tagList a).Perm (tagList b)) : SameLines a b :=
  congrArg linesOf (sortedTexts_eq_iff.mpr perm)

/-! ## What the comparison decides -/

theorem contentEqual_iff [Std.TransCmp localeCompare] : requirementsContentEqual localeCompare a b = true ↔
      SameHead a b ∧ SameLines a b ∧ SameIdOrder localeCompare a b := by
  rw [← joinedTags_eq_iff, ← sortedNorms_eq_iff]
  unfold requirementsContentEqual
  constructor
  · intro equal
    split at equal
    · cases equal
    next id =>
      split at equal
      · cases equal
      next title =>
        split at equal
        · cases equal
        next body =>
          split at equal
          · cases equal
          next priority =>
            split at equal
            · cases equal
            next tags =>
              exact ⟨⟨not_not.mp id, not_not.mp title, not_not.mp body, not_not.mp priority⟩, not_not.mp tags,
                everyPlace_iff.mp equal⟩
  · rintro ⟨head, tags, scenarios⟩
    rw [if_neg (not_not.mpr head.id), if_neg (not_not.mpr head.title), if_neg (not_not.mpr head.body),
      if_neg (not_not.mpr head.priority), if_neg (not_not.mpr tags)]
    exact everyPlace_iff.mpr scenarios

theorem contentEqual_equivalence [Std.TransCmp localeCompare] :
    Equivalence fun a b => requirementsContentEqual localeCompare a b = true where
  refl := fun _ => contentEqual_iff.mpr ⟨⟨rfl, rfl, rfl, rfl⟩, rfl, fun _ => rfl⟩
  symm := by
    intro a b equal
    obtain ⟨head, lines, order⟩ := contentEqual_iff.mp equal
    exact contentEqual_iff.mpr ⟨⟨head.id.symm, head.title.symm, head.body.symm, head.priority.symm⟩, lines.symm,
      fun pivot => (order pivot).symm⟩
  trans := by
    intro a b c first second
    obtain ⟨head, lines, order⟩ := contentEqual_iff.mp first
    obtain ⟨nextHead, nextLines, nextOrder⟩ := contentEqual_iff.mp second
    exact contentEqual_iff.mpr ⟨⟨head.id.trans nextHead.id, head.title.trans nextHead.title,
      head.body.trans nextHead.body, head.priority.trans nextHead.priority⟩, lines.trans nextLines,
      fun pivot => (order pivot).trans (nextOrder pivot)⟩

/-- The comparison is an equivalence, and decides equality of the fields for two requirements of one
    head just where no tags run together and no scenarios of one id stand in another order. -/
theorem contentEqual_exact_iff [Std.TransCmp localeCompare] :
    (Equivalence fun a b => requirementsContentEqual localeCompare a b = true) ∧
      ∀ a b, (requirementsContentEqual localeCompare a b = true ↔ SameContent a b) ↔
        (SameHead a b → Told localeCompare a b) := by
  refine ⟨contentEqual_equivalence, fun a b => ?_⟩
  rw [contentEqual_iff]
  constructor
  · intro exact head
    refine ⟨fun lines order => (exact.mp ⟨head, lines, order⟩).tags, fun tags scenarios => ?_⟩
    exact (exact.mpr ⟨head, tags, scenarios⟩).2.2
  · intro told
    constructor
    · rintro ⟨head, lines, order⟩
      exact ⟨head, (told head).tags lines order, order.perm⟩
    · intro same
      exact ⟨same.head, sameLines_of_perm same.tags, (told same.head).scenarios same.tags same.scenarios⟩

end

/-! ## Fixed runs -/

def taggedRequirement (tags : List String) : Requirement where
  id := "rq-search01"
  title := "Search"
  body := "Items can be searched."
  priority := .must
  tags := some tags
  scenarios := none
  metadata := none
  extension := Extension.empty

theorem plain_tags_told : Std.TransCmp (compare : String → String → Ordering) ∧
    (requirementsContentEqual compare (taggedRequirement ["search", "filter"])
        (taggedRequirement ["filter", "search"]) = true ↔
      SameContent (taggedRequirement ["search", "filter"]) (taggedRequirement ["filter", "search"])) := by
  refine ⟨inferInstance, (contentEqual_exact_iff.2 _ _).mpr fun _ => ⟨fun _ _ => ?_, fun _ _ _ => rfl⟩⟩
  decide

/-- One tag of two lines is taken for two tags. -/
theorem two_line_tag_accepted : Std.TransCmp (compare : String → String → Ordering) ∧
    ¬ ∀ a b, requirementsContentEqual compare a b = true ↔ SameContent a b := by
  refine ⟨inferInstance, fun exact => ?_⟩
  have lines : SameLines (taggedRequirement ["search", "filter"]) (taggedRequirement ["filter\nsearch"]) := by
    unfold SameLines
    rfl
  have accepted : requirementsContentEqual compare (taggedRequirement ["search", "filter"])
      (taggedRequirement ["filter\nsearch"]) = true :=
    contentEqual_iff.mpr ⟨⟨rfl, rfl, rfl, rfl⟩, lines, fun _ => rfl⟩
  have sizes := ((exact _ _).mp accepted).tags.length_eq
  cases sizes

end Advance.Archive
