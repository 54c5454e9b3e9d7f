import Advance.Types.WorkGraph

/-! # Keys of work nodes -/

namespace Advance.Validator

open Types

/-- Stable string key for a reference. -/
def nodeRefKey : WorkNodeRef → String
  | .epicEntry epicId entryId => "epic_entry:" ++ epicId ++ "/" ++ entryId
  | .change projectId changeId => "change:" ++ projectId ++ "/" ++ changeId

/-- Structural equality of references, decided by their keys. -/
def refEquals (left right : WorkNodeRef) : Bool := nodeRefKey left = nodeRefKey right

/-- The second Epic's id goes on where the first one's stops, by text the first entry's id starts with. -/
def Shifted : WorkNodeRef → WorkNodeRef → Prop
  | .epicEntry epicId entryId, .epicEntry otherEpic otherEntry =>
    ∃ middle : String, otherEpic = epicId ++ "/" ++ middle ∧ entryId = middle ++ "/" ++ otherEntry
  | _, _ => False

/-! ## Reading a key -/

theorem slash_toList (left right : String) : (left ++ "/" ++ right).toList = left.toList ++ '/' :: right.toList := by
  simp

theorem slash_eq_iff {left right otherLeft otherRight : String} :
    left ++ "/" ++ right = otherLeft ++ "/" ++ otherRight ↔ (left = otherLeft ∧ right = otherRight) ∨
      (∃ middle : String, otherLeft = left ++ "/" ++ middle ∧ right = middle ++ "/" ++ otherRight) ∨
      ∃ middle : String, left = otherLeft ++ "/" ++ middle ∧ otherRight = middle ++ "/" ++ right := by
  simp only [← String.toList_inj, slash_toList]
  constructor
  · intro same
    cases List.append_eq_append_iff.mp same with
    | inl longer =>
      obtain ⟨extra, whole, rest⟩ := longer
      cases extra with
      | nil =>
        simp only [List.append_nil, List.nil_append, List.cons.injEq, true_and] at whole rest
        exact .inl ⟨whole.symm, rest⟩
      | cons c middle =>
        obtain ⟨rfl, tail⟩ := List.cons.inj rest
        refine .inr (.inl ⟨String.ofList middle, ?_, ?_⟩)
        · simpa using whole
        · simpa using tail
    | inr shorter =>
      obtain ⟨extra, whole, rest⟩ := shorter
      cases extra with
      | nil =>
        simp only [List.append_nil, List.nil_append, List.cons.injEq, true_and] at whole rest
        exact .inl ⟨whole, rest.symm⟩
      | cons c middle =>
        obtain ⟨rfl, tail⟩ := List.cons.inj rest
        refine .inr (.inr ⟨String.ofList middle, ?_, ?_⟩)
        · simpa using whole
        · simpa using tail
  · rintro (⟨sameLeft, sameRight⟩ | ⟨middle, whole, tail⟩ | ⟨middle, whole, tail⟩)
    · rw [sameLeft, sameRight]
    · rw [whole, tail]
      simp
    · rw [whole, tail]
      simp

theorem noSlash_of_isProjectId {text : String} (valid : isProjectId text = true) : '/' ∉ text.toList := by
  intro member
  simp only [isProjectId, Bool.and_eq_true, List.all_eq_true] at valid
  have digit := valid.2 '/' member
  revert digit
  decide

/-- Two references share a key exactly when they are the same reference or one is the other shifted. -/
theorem nodeRefKey_eq_iff {left right : WorkNodeRef} (validLeft : left.valid = true) (validRight : right.valid = true) :
    nodeRefKey left = nodeRefKey right ↔ left = right ∨ Shifted left right ∨ Shifted right left := by
  have kinds : ∀ rest otherRest : String, "epic_entry:" ++ rest ≠ "change:" ++ otherRest := by
    intro rest otherRest same
    have firsts := congrArg (fun text => text.toList.head?) same
    simp at firsts
  cases left with
  | epicEntry epicId entryId =>
    cases right with
    | epicEntry otherEpic otherEntry =>
      simp only [nodeRefKey, Shifted, WorkNodeRef.epicEntry.injEq, String.append_assoc, String.append_right_inj]
      simpa only [String.append_assoc] using @slash_eq_iff epicId entryId otherEpic otherEntry
    | change projectId changeId =>
      simp only [nodeRefKey, Shifted, String.append_assoc, reduceCtorEq, or_self, iff_false]
      exact kinds _ _
  | change projectId changeId =>
    cases right with
    | epicEntry otherEpic otherEntry =>
      simp only [nodeRefKey, Shifted, String.append_assoc, reduceCtorEq, or_self, iff_false]
      exact (kinds _ _).symm
    | change otherProject otherChange =>
      have joined := @slash_eq_iff projectId changeId otherProject otherChange
      simp only [WorkNodeRef.valid, Bool.and_eq_true] at validLeft validRight
      have apart : ¬ ((∃ middle : String, otherProject = projectId ++ "/" ++ middle ∧
          changeId = middle ++ "/" ++ otherChange) ∨
          ∃ middle : String, projectId = otherProject ++ "/" ++ middle ∧ otherChange = middle ++ "/" ++ changeId) := by
        rintro (⟨middle, whole, _⟩ | ⟨middle, whole, _⟩)
        · refine noSlash_of_isProjectId validRight.1 ?_
          rw [whole, slash_toList]
          simp
        · refine noSlash_of_isProjectId validLeft.1 ?_
          rw [whole, slash_toList]
          simp
      simp only [nodeRefKey, Shifted, WorkNodeRef.change.injEq, String.append_assoc, String.append_right_inj, or_false]
      simp only [String.append_assoc] at joined apart
      rw [joined, or_iff_left apart]

/-! ## The claim -/

/-- The keys of two references are equal exactly when they denote the same node. -/
def Identifies (left right : WorkNodeRef) : Prop := nodeRefKey left = nodeRefKey right ↔ left = right

theorem not_shifted_self (ref : WorkNodeRef) : ¬ Shifted ref ref := by
  cases ref with
  | epicEntry epicId entryId =>
    rintro ⟨middle, whole, _⟩
    have sizes := congrArg (fun text => text.toList.length) whole
    simp at sizes
  | change projectId changeId => exact id

/-- Keys identify two valid references just if neither is the other shifted. -/
theorem identifies_iff {left right : WorkNodeRef} (validLeft : left.valid = true) (validRight : right.valid = true) :
    Identifies left right ↔ ¬ Shifted left right ∧ ¬ Shifted right left := by
  rw [Identifies, nodeRefKey_eq_iff validLeft validRight]
  constructor
  · intro told
    constructor
    · intro shifted
      obtain rfl := told.mp (.inr (.inl shifted))
      exact not_shifted_self left shifted
    · intro shifted
      obtain rfl := told.mp (.inr (.inr shifted))
      exact not_shifted_self left shifted
  · rintro ⟨forth, back⟩
    refine ⟨fun either => ?_, .inl⟩
    cases either with
    | inl same => exact same
    | inr shifted => exact (shifted.elim forth back).elim

/-! ## Fixed references -/

/-- An entry `b/c` of an Epic `a`, and an entry `c` of an Epic `a/b`. -/
theorem slashed_entries_merge : ¬ ∀ left right : WorkNodeRef, left.valid = true → right.valid = true →
    Identifies left right := by
  intro told
  have same := (told (.epicEntry "a" "b/c") (.epicEntry "a/b" "c") (by decide) (by decide)).mp (by decide)
  exact absurd same (by decide)

theorem plain_entries_apart : Identifies (.epicEntry "a" "b") (.epicEntry "a" "c") := by
  have apart : ∀ entryId otherEntry : String, ¬ Shifted (.epicEntry "a" entryId) (.epicEntry "a" otherEntry) := by
    rintro entryId otherEntry ⟨middle, whole, _⟩
    have sizes := congrArg (fun text => text.toList.length) whole
    simp at sizes
  exact (identifies_iff (by decide) (by decide)).mpr ⟨apart "b" "c", apart "c" "b"⟩

end Advance.Validator
