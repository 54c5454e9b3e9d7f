import Mathlib.Data.List.Nodup

/-! # Lists of keyed elements

Elements may carry a key; a list is keyed apart when no two of its elements carry
the same one.
-/

namespace Advance.Foundation

section

variable {α κ : Type*} {key : α → Option κ} {list : List α} {x : α}

/-- No two elements carry one key. -/
def KeyedApart (key : α → Option κ) (list : List α) : Prop := (list.filterMap key).Nodup

/-- No element carries a key of this one. -/
def FreshIn (key : α → Option κ) (list : List α) (x : α) : Prop :=
  ∀ k, key x = some k → ∀ y ∈ list, key y ≠ some k

theorem keyedApart_nil : KeyedApart key [] := List.nodup_nil

theorem keyedApart_some {total : α → κ} : KeyedApart (fun x => some (total x)) list ↔ (list.map total).Nodup := by
  rw [KeyedApart, List.filterMap_eq_map']

theorem KeyedApart.append (apart : KeyedApart key list) (fresh : FreshIn key list x) :
    KeyedApart key (list ++ [x]) := by
  cases carried : key x with
  | none => simpa [KeyedApart, carried] using apart
  | some k =>
    have unused : k ∉ list.filterMap key := by
      intro member
      obtain ⟨y, held, same⟩ := List.mem_filterMap.mp member
      exact fresh k carried y held same
    rw [KeyedApart, List.filterMap_append, List.filterMap_cons, carried, List.filterMap_nil, List.nodup_append]
    refine ⟨apart, List.nodup_singleton k, ?_⟩
    intro other held last member same
    rw [List.mem_singleton] at member
    exact unused (member ▸ same ▸ held)

theorem KeyedApart.perm {other : List α} (apart : KeyedApart key list) (arranged : list.Perm other) :
    KeyedApart key other :=
  (arranged.filterMap key).nodup_iff.mp apart

theorem KeyedApart.sublist {other : List α} (apart : KeyedApart key list)
    (part : List.Sublist other list) : KeyedApart key other :=
  List.Nodup.sublist (part.filterMap key) apart

theorem keyedApart_cons : KeyedApart key (x :: list) ↔ FreshIn key list x ∧ KeyedApart key list := by
  cases carried : key x with
  | none => simp [KeyedApart, FreshIn, carried]
  | some k =>
    rw [KeyedApart, List.filterMap_cons, carried, List.nodup_cons]
    refine and_congr_left fun _ => ?_
    simp [FreshIn, carried, List.mem_filterMap]

theorem KeyedApart.filter_eq [DecidableEq κ] (apart : KeyedApart key list) (member : x ∈ list) {k : κ}
    (carried : key x = some k) : list.filter (fun y => key y = some k) = [x] := by
  induction list with
  | nil => cases member
  | cons y rest ih =>
    obtain ⟨fresh, apart⟩ := keyedApart_cons.mp apart
    rcases List.mem_cons.mp member with rfl | member
    · -- no later element carries the key of the first
      have others : rest.filter (fun y => key y = some k) = [] := by
        simpa using fun y held => fresh k carried y held
      rw [List.filter_cons_of_pos (by simpa using carried), others]
    · have differs : key y ≠ some k := fun same => fresh k same x member carried
      rw [List.filter_cons_of_neg (by simpa using differs), ih apart member]

theorem keyedApart_middle {front back : List α} : KeyedApart key (front ++ x :: back) ↔
      FreshIn key (front ++ back) x ∧ KeyedApart key (front ++ back) := by
  rw [← keyedApart_cons]
  exact ⟨fun apart => apart.perm List.perm_middle, fun apart => apart.perm List.perm_middle.symm⟩

theorem cut_at {index : Nat} {old : α} (held : list[index]? = some old) : ∃ front back, list = front ++ old :: back ∧
      ∀ x, list.set index x = front ++ x :: back := by
  obtain ⟨bound, rfl⟩ := List.getElem?_eq_some_iff.mp held
  refine ⟨list.take index, list.drop (index + 1), ?_, fun x => ?_⟩
  · rw [List.getElem_cons_drop, List.take_append_drop]
  · rw [List.set_eq_take_append_cons_drop, if_pos bound]

theorem KeyedApart.set (apart : KeyedApart key list) {index : Nat} {old : α}
    (held : list[index]? = some old) (kept : key x = key old ∨ FreshIn key list x) :
    KeyedApart key (list.set index x) := by
  obtain ⟨front, back, rfl, replaced⟩ := cut_at held
  rw [replaced]
  rcases kept with same | fresh
  · have unchanged : (front ++ x :: back).filterMap key = (front ++ old :: back).filterMap key := by
      simp [List.filterMap_append, List.filterMap_cons, same]
    rw [KeyedApart, unchanged]
    exact apart
  · -- The list without the old element is keyed apart, and the new one is fresh there.
    have rest : KeyedApart key (front ++ back) :=
      apart.sublist ((List.sublist_cons_self old back).append_left front)
    have freshThere : FreshIn key (front ++ back) x := by
      intro k carried y member
      refine fresh k carried y ?_
      rcases List.mem_append.mp member with inFront | inBack
      · exact List.mem_append_left _ inFront
      · exact List.mem_append_right _ (List.mem_cons_of_mem old inBack)
    exact (rest.append freshThere).perm (List.perm_append_singleton x _ |>.trans List.perm_middle.symm)

/-- A key another element carries is not to be written twice. -/
theorem not_keyedApart_set {index : Nat} {old y : α} {k : κ} (held : list[index]? = some old)
    (carried : key x = some k) (member : y ∈ list) (taken : key y = some k)
    (free : key old ≠ some k) : ¬ KeyedApart key (list.set index x) := by
  obtain ⟨front, back, rfl, replaced⟩ := cut_at held
  rw [replaced]
  intro apart
  have other : y ∈ front ++ back := by
    rcases List.mem_append.mp member with inFront | later
    · exact List.mem_append_left _ inFront
    · rcases List.mem_cons.mp later with rfl | inBack
      · exact absurd taken free
      · exact List.mem_append_right _ inBack
  have moved : KeyedApart key (x :: (front ++ back)) := apart.perm List.perm_middle
  rw [KeyedApart, List.filterMap_cons, carried, List.nodup_cons] at moved
  exact moved.1 (List.mem_filterMap.mpr ⟨y, other, taken⟩)

end

end Advance.Foundation
