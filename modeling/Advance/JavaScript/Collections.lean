import Mathlib.Data.List.Nodup

/-! # Maps and sets in insertion order

A map is the list of its entries and a set the list of its elements, both in
insertion order.
-/

namespace Advance.JavaScript

section

variable {α : Type*}

/-- `map.get(key)` -/
def mapGet (entries : List (String × α)) (key : String) : Option α :=
  (entries.find? fun entry => entry.1 = key).map Prod.snd

/-- `map.set(key, value)` -/
def mapSet (entries : List (String × α)) (key : String) (value : α) : List (String × α) :=
  if entries.any fun entry => entry.1 = key then
    entries.map fun entry => if entry.1 = key then (key, value) else entry
  else entries ++ [(key, value)]

/-- `Object.fromEntries(pairs)` -/
def fromEntries (pairs : List (String × α)) : List (String × α) :=
  pairs.foldl (fun entries pair => mapSet entries pair.1 pair.2) []

/-- `[...new Set(values)]` -/
def distinctOf [DecidableEq α] : List α → List α
  | [] => []
  | value :: rest => value :: (distinctOf rest).filter (· ≠ value)

variable {entries : List (String × α)} {entry : String × α} {key : String} {value : α}

theorem mem_mapSet (member : entry ∈ mapSet entries key value) : entry = (key, value) ∨ entry ∈ entries := by
  unfold mapSet at member
  split at member
  · obtain ⟨old, held, rfl⟩ := List.mem_map.mp member
    split
    · exact .inl rfl
    · exact .inr held
  · rcases List.mem_append.mp member with held | new
    · exact .inr held
    · exact .inl (List.mem_singleton.mp new)

theorem mapSet_distinct (key : String) (value : α) (distinct : (entries.map Prod.fst).Nodup) :
    ((mapSet entries key value).map Prod.fst).Nodup := by
  unfold mapSet
  split
  next =>
    have keys : (entries.map fun entry => if entry.1 = key then (key, value) else entry).map Prod.fst =
        entries.map Prod.fst := by
      rw [List.map_map]
      refine List.map_congr_left fun entry _ => ?_
      by_cases same : entry.1 = key <;> simp [same]
    rw [keys]
    exact distinct
  next absent =>
    have fresh : key ∉ entries.map Prod.fst := by
      intro member
      obtain ⟨entry, held, same⟩ := List.mem_map.mp member
      exact absent (List.any_eq_true.mpr ⟨entry, held, decide_eq_true same⟩)
    rw [List.map_append]
    exact List.Nodup.append distinct (List.nodup_singleton key) (List.disjoint_singleton.mpr fresh)

theorem mapSet_cons_same {value other : α} (absent : key ∉ entries.map Prod.fst) :
    mapSet ((key, other) :: entries) key value = (key, value) :: entries := by
  rw [mapSet, if_pos (by simp), List.map_cons, if_pos rfl]
  have rest : entries.map (fun entry => if entry.1 = key then (key, value) else entry) = entries.map id := by
    refine List.map_congr_left fun entry member => ?_
    have other : entry.1 ≠ key := fun same => absent (same ▸ List.mem_map_of_mem member)
    exact if_neg other
  rw [rest, List.map_id]

theorem mapSet_cons_other (differs : entry.1 ≠ key) (entries : List (String × α)) (value : α) :
    mapSet (entry :: entries) key value = entry :: mapSet entries key value := by
  simp only [mapSet, List.any_cons, differs, decide_false, Bool.false_or, List.map_cons, if_false]
  split <;> rfl

variable {pairs : List (String × α)}

theorem mem_fromEntries (member : entry ∈ fromEntries pairs) : entry ∈ pairs := by
  have fold : ∀ (pairs start : List (String × α)),
      entry ∈ pairs.foldl (fun entries pair => mapSet entries pair.1 pair.2) start →
      entry ∈ start ∨ entry ∈ pairs := by
    intro pairs
    induction pairs with
    | nil => exact fun _ held => .inl held
    | cons pair pairs ih =>
      intro start held
      rcases ih _ held with set | later
      · rcases mem_mapSet set with rfl | before
        · exact .inr List.mem_cons_self
        · exact .inl before
      · exact .inr (List.mem_cons_of_mem _ later)
  rcases fold pairs [] member with none | held
  · cases none
  · exact held

variable {values : List α}

@[simp] theorem mem_distinctOf [DecidableEq α] : value ∈ distinctOf values ↔ value ∈ values := by
  induction values with
  | nil => rfl
  | cons first rest ih =>
    by_cases same : value = first
    · simp [distinctOf, same]
    · simp [distinctOf, same, ih]

theorem nodup_distinctOf [DecidableEq α] (values : List α) : (distinctOf values).Nodup := by
  induction values with
  | nil => exact List.nodup_nil
  | cons first rest ih =>
    refine List.nodup_cons.mpr ⟨?_, ih.filter _⟩
    simp

theorem find_of_distinct {β : Type*} [DecidableEq β] {key : α → β}
    (distinct : (values.map key).Nodup) (member : value ∈ values) :
    values.find? (fun other => key other = key value) = some value := by
  induction values with
  | nil => cases member
  | cons first values ih =>
    obtain ⟨notLater, distinctRest⟩ := List.nodup_cons.mp distinct
    rcases List.mem_cons.mp member with rfl | member
    · simp
    · have other : key first ≠ key value := by
        intro same
        exact notLater (same ▸ List.mem_map_of_mem member)
      rw [List.find?_cons_of_neg (by simpa using other)]
      exact ih distinctRest member

theorem distinctOf_perm [DecidableEq α] {left right : List α} (perm : left.Perm right) :
    (distinctOf left).Perm (distinctOf right) := by
  refine (List.perm_ext_iff_of_nodup (nodup_distinctOf left) (nodup_distinctOf right)).mpr ?_
  intro value
  rw [mem_distinctOf, mem_distinctOf, perm.mem_iff]

theorem distinctOf_sublist [DecidableEq α] (values : List α) : List.Sublist (distinctOf values) values := by
  induction values with
  | nil => exact List.Sublist.slnil
  | cons first rest ih =>
    exact (List.filter_sublist.trans ih).cons_cons first

theorem distinctOf_of_nodup [DecidableEq α] (distinct : values.Nodup) : distinctOf values = values := by
  refine (distinctOf_sublist values).eq_of_length ?_
  exact ((List.perm_ext_iff_of_nodup (nodup_distinctOf values) distinct).mpr
    fun value => mem_distinctOf).length_eq

theorem nodup_of_length_distinctOf [DecidableEq α]
    (same : (distinctOf values).length = values.length) : values.Nodup := by
  rw [← (distinctOf_sublist values).eq_of_length same]
  exact nodup_distinctOf values

/-! ## Reading a map -/

theorem mapGet_cons (entry : String × α) (entries : List (String × α)) (asked : String) :
    mapGet (entry :: entries) asked =
      if entry.1 = asked then some entry.2 else mapGet entries asked := by
  by_cases asks : entry.1 = asked <;> simp [mapGet, asks]

theorem mapGet_renewed (entries : List (String × α)) (key asked : String) (value : α) :
    mapGet (entries.map fun entry => if entry.1 = key then (key, value) else entry) asked =
      if asked = key then (mapGet entries key).map fun _ => value else mapGet entries asked := by
  induction entries with
  | nil => simp [mapGet]
  | cons entry entries ih =>
    rw [List.map_cons, mapGet_cons, mapGet_cons, mapGet_cons, ih]
    by_cases here : entry.1 = key
    · by_cases asks : asked = key
      · simp [here, asks]
      · simp [here, asks, Ne.symm asks]
    · by_cases asks : asked = key
      · simp [here, asks]
      · simp [here, asks]

theorem mapGet_append_one (entries : List (String × α)) (key asked : String) (value : α) :
    mapGet (entries ++ [(key, value)]) asked =
      (mapGet entries asked).or (if asked = key then some value else none) := by
  induction entries with
  | nil =>
    by_cases asks : asked = key
    · simp [mapGet, asks]
    · simp [mapGet, asks, Ne.symm asks]
  | cons entry entries ih =>
    rw [List.cons_append, mapGet_cons, mapGet_cons, ih]
    split <;> simp

theorem mapGet_eq_none : mapGet entries key = none ↔ ∀ entry ∈ entries, entry.1 ≠ key := by
  simp [mapGet, List.find?_eq_none]

theorem mapGet_mapSet {key asked : String} : mapGet (mapSet entries key value) asked =
      if asked = key then some value else mapGet entries asked := by
  unfold mapSet
  split
  next held =>
    obtain ⟨entry, member, same⟩ := List.any_eq_true.mp held
    have present : mapGet entries key ≠ none :=
      fun absent => mapGet_eq_none.mp absent entry member (of_decide_eq_true same)
    obtain ⟨old, found⟩ := Option.ne_none_iff_exists'.mp present
    rw [mapGet_renewed, found, Option.map_some]
  next absent =>
    have missing : mapGet entries key = none := by
      refine mapGet_eq_none.mpr fun entry member same => absent ?_
      exact List.any_eq_true.mpr ⟨entry, member, decide_eq_true same⟩
    rw [mapGet_append_one]
    by_cases asks : asked = key
    · rw [asks, missing, Option.none_or]
    · rw [if_neg asks, if_neg asks, Option.or_none]

theorem mapGet_fromEntries (distinct : (pairs.map Prod.fst).Nodup)
    {pair : String × α} (member : pair ∈ pairs) : mapGet (fromEntries pairs) pair.1 = some pair.2 := by
  have kept : ∀ (pairs start : List (String × α)), pair.1 ∉ pairs.map Prod.fst →
      mapGet (pairs.foldl (fun entries pair => mapSet entries pair.1 pair.2) start) pair.1 = mapGet start pair.1 := by
    intro pairs
    induction pairs with
    | nil => exact fun _ _ => rfl
    | cons first pairs ih =>
      intro start outside
      rw [List.map_cons, List.mem_cons, not_or] at outside
      rw [List.foldl_cons, ih _ outside.2, mapGet_mapSet, if_neg outside.1]
  have fold : ∀ (pairs start : List (String × α)), (pairs.map Prod.fst).Nodup → pair ∈ pairs →
      mapGet (pairs.foldl (fun entries pair => mapSet entries pair.1 pair.2) start) pair.1 = some pair.2 := by
    intro pairs
    induction pairs with
    | nil => exact fun _ _ none => nomatch none
    | cons first pairs ih =>
      intro start distinct member
      obtain ⟨notLater, distinctRest⟩ := List.nodup_cons.mp distinct
      rw [List.foldl_cons]
      rcases List.mem_cons.mp member with rfl | member
      · rw [kept _ _ notLater, mapGet_mapSet, if_pos rfl]
      · exact ih _ distinctRest member
  exact fold pairs [] distinct member

end

end Advance.JavaScript
