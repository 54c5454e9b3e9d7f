import Mathlib.Data.List.Sort

/-! # Stable sorts of two arrangements

Two arrangements of the same distinct elements, sorted stably by one total
preorder, give the same list exactly when elements that tie stand in the same
order in both.
-/

namespace Advance.Foundation

section

variable {α : Type*}

variable {list : List α} {x y : α}

theorem pair_or_pair (first : x ∈ list) (second : y ∈ list)
    (differ : x ≠ y) : List.Sublist [x, y] list ∨ List.Sublist [y, x] list := by
  induction list with
  | nil => cases first
  | cons z list ih =>
    rcases List.mem_cons.mp first with rfl | inFirst
    · rcases List.mem_cons.mp second with same | inSecond
      · exact absurd same.symm differ
      · exact .inl (List.cons_sublist_cons.mpr (List.singleton_sublist.mpr inSecond))
    · rcases List.mem_cons.mp second with rfl | inSecond
      · exact .inr (List.cons_sublist_cons.mpr (List.singleton_sublist.mpr inFirst))
      · exact (ih inFirst inSecond).imp (List.Sublist.cons z) (List.Sublist.cons z)

theorem not_pair_swap (distinct : list.Nodup) (pair : List.Sublist [x, y] list) : ¬ List.Sublist [y, x] list := by
  intro swapped
  induction list with
  | nil => cases pair
  | cons z list ih =>
    obtain ⟨fresh, rest⟩ := List.nodup_cons.mp distinct
    cases pair with
    | cons _ pair =>
      cases swapped with
      | cons _ swapped => exact ih rest pair swapped
      | cons_cons _ swapped => exact fresh (pair.subset (by simp))
    | cons_cons _ pair =>
      cases swapped with
      | cons _ swapped => exact fresh (swapped.subset (by simp))
      | cons_cons _ swapped => exact fresh (pair.subset (by simp))

variable (before : α → α → Prop)

/-- Elements that tie stand in the same order in both lists. -/
def SameTies (left right : List α) : Prop :=
  ∀ x y, x ≠ y → before x y → before y x → (List.Sublist [x, y] left ↔ List.Sublist [x, y] right)

variable [DecidableRel before] {before}

theorem pair_sublist_sort_iff (distinct : list.Nodup) (differ : x ≠ y)
    (forward : before x y) (backward : before y x) :
    List.Sublist [x, y] (list.insertionSort before) ↔ List.Sublist [x, y] list := by
  constructor
  · intro sorted
    have memberX : x ∈ list := (List.mem_insertionSort before).mp (sorted.subset (by simp))
    have memberY : y ∈ list := (List.mem_insertionSort before).mp (sorted.subset (by simp))
    rcases pair_or_pair memberX memberY differ with pair | swapped
    · exact pair
    · have distinctSorted : (list.insertionSort before).Nodup :=
        (List.perm_insertionSort before list).nodup_iff.mpr distinct
      exact absurd (List.pair_sublist_insertionSort backward swapped) (not_pair_swap distinctSorted sorted)
  · exact List.pair_sublist_insertionSort forward

theorem pair_sublist_split {front back : List α} (distinct : (front ++ y :: back).Nodup) :
    List.Sublist [x, y] (front ++ y :: back) ↔ x ∈ front := by
  constructor
  · intro pair
    by_contra absent
    have apart : x ≠ y := by
      rintro rfl
      exact absurd (pair.nodup distinct) (by simp)
    have later : x ∈ back := by
      cases List.mem_append.mp (pair.subset List.mem_cons_self) with
      | inl before => exact absurd before absent
      | inr here => exact (List.mem_cons.mp here).resolve_left apart
    have swapped : List.Sublist [y, x] (front ++ y :: back) :=
      (List.cons_sublist_cons.mpr (List.singleton_sublist.mpr later)).trans (List.sublist_append_right _ _)
    exact not_pair_swap distinct pair swapped
  · intro before
    exact (List.singleton_sublist.mpr before).append (List.singleton_sublist.mpr List.mem_cons_self)

variable [Std.Total before] [IsTrans α before]

theorem pair_sublist_sort (distinct : list.Nodup) (first : x ∈ list) (second : y ∈ list)
    (differ : x ≠ y) : List.Sublist [x, y] (list.insertionSort before) ↔
      before x y ∧ (before y x → List.Sublist [x, y] list) := by
  constructor
  · intro pair
    have forward : before x y :=
      List.pairwise_iff_forall_sublist.mp (List.pairwise_insertionSort before list) pair
    exact ⟨forward, fun backward => (pair_sublist_sort_iff distinct differ forward backward).mp pair⟩
  · rintro ⟨forward, tied⟩
    by_cases backward : before y x
    · exact (pair_sublist_sort_iff distinct differ forward backward).mpr (tied backward)
    · have sortedX := (List.mem_insertionSort before).mpr first
      have sortedY := (List.mem_insertionSort before).mpr second
      refine (pair_or_pair sortedX sortedY differ).resolve_right fun swapped => backward ?_
      exact List.pairwise_iff_forall_sublist.mp (List.pairwise_insertionSort before list) swapped

variable {left right : List α}

theorem insertionSort_eq_iff (distinct : left.Nodup) (arranged : left.Perm right) :
    left.insertionSort before = right.insertionSort before ↔ SameTies before left right := by
  have distinctRight : right.Nodup := arranged.nodup_iff.mp distinct
  constructor
  · intro same x y differ forward backward
    rw [← pair_sublist_sort_iff distinct differ forward backward,
      ← pair_sublist_sort_iff distinctRight differ forward backward, same]
  · intro ties
    -- Both sorted lists follow one strict order: the preorder, with ties as `left` has them.
    have sorted : ∀ list : List α, list.Nodup → SameTies before left list →
        (list.insertionSort before).Pairwise fun x y =>
          before x y ∧ (before y x → x ≠ y → List.Sublist [x, y] left) := by
      intro list distinctList same
      refine List.pairwise_iff_forall_sublist.mpr fun {x y} pair => ?_
      have forward : before x y :=
        List.pairwise_iff_forall_sublist.mp (List.pairwise_insertionSort before list) pair
      refine ⟨forward, fun backward differ => ?_⟩
      rw [same x y differ forward backward, ← pair_sublist_sort_iff distinctList differ forward backward]
      exact pair
    have perm : (left.insertionSort before).Perm (right.insertionSort before) :=
      (List.perm_insertionSort before left).trans (arranged.trans (List.perm_insertionSort before right).symm)
    refine perm.eq_of_pairwise ?_ (sorted left distinct fun _ _ _ _ _ => Iff.rfl) (sorted right distinctRight ties)
    rintro x y _ _ ⟨forward, pairForward⟩ ⟨backward, pairBackward⟩
    by_contra differ
    exact not_pair_swap distinct (pairForward backward differ) (pairBackward forward fun same => differ same.symm)

/-! ## Lists that may repeat elements -/

variable (before) in
def tiesOf (pivot : α) (list : List α) : List α :=
  list.filter fun element => decide (before pivot element) && decide (before element pivot)

omit [Std.Total before] [IsTrans α before] in
theorem mem_tiesOf {pivot element : α} {list : List α} :
    element ∈ tiesOf before pivot list ↔ element ∈ list ∧ before pivot element ∧ before element pivot := by
  simp [tiesOf]

omit [Std.Total before] in
theorem tiesOf_insertionSort (pivot : α) (list : List α) :
    tiesOf before pivot (list.insertionSort before) = tiesOf before pivot list := by
  have tied : (tiesOf before pivot list).Pairwise before := by
    refine List.pairwise_iff_forall_sublist.mpr fun {x y} pair => ?_
    have first := mem_tiesOf.mp (pair.subset (List.mem_cons_self : x ∈ [x, y]))
    have second := mem_tiesOf.mp (pair.subset (by simp : y ∈ [x, y]))
    exact IsTrans.trans _ _ _ first.2.2 second.2.1
  have kept : List.Sublist (tiesOf before pivot list) (list.insertionSort before) :=
    List.sublist_insertionSort tied List.filter_sublist
  have inside : List.Sublist (tiesOf before pivot list) (tiesOf before pivot (list.insertionSort before)) := by
    have filtered := kept.filter fun element => decide (before pivot element) && decide (before element pivot)
    rwa [← tiesOf, ← tiesOf, show tiesOf before pivot (tiesOf before pivot list) = tiesOf before pivot list from by
      simp [tiesOf]] at filtered
  have sizes : (tiesOf before pivot (list.insertionSort before)).length = (tiesOf before pivot list).length :=
    ((List.perm_insertionSort before list).filter _).length_eq
  exact (inside.eq_of_length sizes.symm).symm

omit [IsTrans α before] in
theorem eq_of_tiesOf (sortedLeft : left.Pairwise before) (sortedRight : right.Pairwise before)
    (ties : ∀ pivot, tiesOf before pivot left = tiesOf before pivot right) : left = right := by
  have self : ∀ element : α, before element element := fun element => (Std.Total.total element element).elim id id
  induction left generalizing right with
  | nil =>
    cases right with
    | nil => rfl
    | cons last _ =>
      have member : last ∈ tiesOf before last [] := by
        rw [ties]
        exact mem_tiesOf.mpr ⟨List.mem_cons_self, self last, self last⟩
      cases member
  | cons first left ih =>
    cases right with
    | nil =>
      have member : first ∈ tiesOf before first [] := by
        rw [← ties]
        exact mem_tiesOf.mpr ⟨List.mem_cons_self, self first, self first⟩
      cases member
    | cons other right =>
      obtain ⟨leastLeft, restLeft⟩ := List.pairwise_cons.mp sortedLeft
      obtain ⟨leastRight, restRight⟩ := List.pairwise_cons.mp sortedRight
      have forward : before first other := by
        have member : other ∈ first :: left := by
          have tied : other ∈ tiesOf before other (first :: left) := by
            rw [ties]
            exact mem_tiesOf.mpr ⟨List.mem_cons_self, self other, self other⟩
          exact (mem_tiesOf.mp tied).1
        cases List.mem_cons.mp member with
        | inl same => exact same ▸ self first
        | inr later => exact leastLeft other later
      have backward : before other first := by
        have member : first ∈ other :: right := by
          have tied : first ∈ tiesOf before first (other :: right) := by
            rw [← ties]
            exact mem_tiesOf.mpr ⟨List.mem_cons_self, self first, self first⟩
          exact (mem_tiesOf.mp tied).1
        cases List.mem_cons.mp member with
        | inl same => exact same ▸ self other
        | inr later => exact leastRight first later
      -- The two heads tie, so each comes first among its ties.
      have heads := ties first
      simp only [tiesOf, List.filter_cons, self first, forward, backward, decide_true, Bool.and_self, if_true] at heads
      obtain ⟨rfl, _⟩ := List.cons.inj heads
      congr 1
      refine ih restLeft restRight fun pivot => ?_
      have classes := ties pivot
      simp only [tiesOf, List.filter_cons] at classes ⊢
      split at classes
      · exact (List.cons.inj classes).2
      · exact classes

/-- Two lists sort to the same list just if every class of ties stands in both as it does in the other. -/
theorem sorted_eq_iff : left.insertionSort before = right.insertionSort before ↔
      ∀ pivot, tiesOf before pivot left = tiesOf before pivot right := by
  constructor
  · intro same pivot
    rw [← tiesOf_insertionSort, same, tiesOf_insertionSort]
  · intro ties
    refine eq_of_tiesOf (List.pairwise_insertionSort before left) (List.pairwise_insertionSort before right)
      fun pivot => ?_
    rw [tiesOf_insertionSort, tiesOf_insertionSort, ties]

theorem filter_insertionSort (keep : α → Bool) (list : List α) :
    (list.insertionSort before).filter keep = (list.filter keep).insertionSort before := by
  refine eq_of_tiesOf ((List.pairwise_insertionSort before list).filter keep)
    (List.pairwise_insertionSort before _) fun pivot => ?_
  have kept : ∀ elements : List α,
      tiesOf before pivot (elements.filter keep) = (tiesOf before pivot elements).filter keep := by
    intro elements
    simp only [tiesOf, List.filter_filter, Bool.and_comm]
  rw [kept, tiesOf_insertionSort, tiesOf_insertionSort, kept]

end

end Advance.Foundation
