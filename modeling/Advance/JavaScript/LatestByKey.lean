import Advance.JavaScript.Collections
import Mathlib.Data.List.Induction

/-! # The latest value of each key

A loop over values that keeps, in a map, for each key the value of the highest rank, the
first one where ranks are equal.
-/

namespace Advance.JavaScript

variable {α : Type*}

def keepLatest (key : α → Option String) (rank : α → Nat) (latest : List (String × α)) (value : α) :
    List (String × α) :=
  match key value with
  | none => latest
  | some k =>
    if ((mapGet latest k).all fun existing => rank existing < rank value) then mapSet latest k value
    else latest

def latestByKey (key : α → Option String) (rank : α → Nat) (values : List α) : List (String × α) :=
  values.foldl (keepLatest key rank) []

def FirstHighest (rank : α → Nat) (values : List α) (value : α) : Prop :=
  ∃ front back, values = front ++ value :: back ∧ (∀ other ∈ front, rank other < rank value) ∧
    ∀ other ∈ back, rank other ≤ rank value

variable {values : List α} {value : α}

theorem FirstHighest.mem {rank : α → Nat} (first : FirstHighest rank values value) : value ∈ values := by
  obtain ⟨front, back, rfl, _⟩ := first
  simp

theorem FirstHighest.highest {rank : α → Nat} {value other : α}
    (first : FirstHighest rank values value) (member : other ∈ values) : rank other ≤ rank value := by
  obtain ⟨front, back, rfl, before, after⟩ := first
  rcases List.mem_append.mp member with early | late
  · exact Nat.le_of_lt (before other early)
  · rcases List.mem_cons.mp late with rfl | late
    · exact Nat.le_refl _
    · exact after other late

theorem FirstHighest.unique {rank : α → Nat} {value other : α}
    (first : FirstHighest rank values value) (again : FirstHighest rank values other) : value = other := by
  have noneBefore : ∀ {x y front back}, FirstHighest rank values x → values = front ++ y :: back →
      (∀ z ∈ front, rank z < rank y) → x ∉ front := by
    rintro x y front back highest rfl before member
    exact absurd (highest.highest (by simp)) (Nat.not_le_of_lt (before x member))
  obtain ⟨front, back, split, before, _⟩ := id first
  obtain ⟨front', back', split', before', _⟩ := id again
  have notEarlier := noneBefore again split before
  have notEarlier' := noneBefore first split' before'
  rcases List.append_eq_append_iff.mp (split.symm.trans split') with ⟨rest, rfl, same⟩ | ⟨rest, rfl, same⟩
  · cases rest with
    | nil => exact (List.cons.inj same).1
    | cons head rest =>
      obtain ⟨rfl, _⟩ := List.cons.inj same
      exact absurd (by simp) notEarlier'
  · cases rest with
    | nil => exact (List.cons.inj same).1.symm
    | cons head rest =>
      obtain ⟨rfl, _⟩ := List.cons.inj same
      exact absurd (by simp) notEarlier

variable {key : α → Option String} {rank : α → Nat}

theorem keepLatest_distinct {latest : List (String × α)} (distinct : (latest.map Prod.fst).Nodup)
    (value : α) : ((keepLatest key rank latest value).map Prod.fst).Nodup := by
  unfold keepLatest
  split
  · exact distinct
  · split
    · exact mapSet_distinct _ _ distinct
    · exact distinct

theorem latestByKey_distinct (values : List α) : ((latestByKey key rank values).map Prod.fst).Nodup := by
  have fold : ∀ (values : List α) (start : List (String × α)), (start.map Prod.fst).Nodup →
      ((values.foldl (keepLatest key rank) start).map Prod.fst).Nodup := by
    intro values
    induction values with
    | nil => exact fun _ distinct => distinct
    | cons value values ih => exact fun start distinct => ih _ (keepLatest_distinct distinct value)
  exact fold values [] List.nodup_nil

def ofKey (key : α → Option String) (asked : String) (values : List α) : List α :=
  values.filter fun value => key value = some asked

theorem ofKey_concat (asked : String) (values : List α) (value : α) : ofKey key asked (values ++ [value]) =
      ofKey key asked values ++ if key value = some asked then [value] else [] := by
  rw [ofKey, List.filter_append, List.filter_singleton]
  simp only [ofKey, Bool.cond_decide]

theorem latestByKey_get (values : List α) (asked : String) : match mapGet (latestByKey key rank values) asked with
    | none => ofKey key asked values = []
    | some value => FirstHighest rank (ofKey key asked values) value := by
  induction values using List.reverseRecOn with
  | nil => rfl
  | append_singleton values value ih =>
    have step : latestByKey key rank (values ++ [value]) =
        keepLatest key rank (latestByKey key rank values) value := by
      simp [latestByKey]
    rw [step, ofKey_concat]
    cases keyed : key value with
    | none => simpa [keepLatest, keyed] using ih
    | some k =>
      by_cases same : k = asked
      · subst same
        rw [if_pos rfl]
        cases held : mapGet (latestByKey key rank values) k with
        | none =>
          rw [held] at ih
          simp only [keepLatest, keyed, held, Option.all_none, if_true, mapGet_mapSet]
          exact ⟨[], [], by rw [ih], nofun, nofun⟩
        | some existing =>
          rw [held] at ih
          by_cases higher : rank existing < rank value
          · simp only [keepLatest, keyed, held, Option.all_some, higher, decide_true, if_true, mapGet_mapSet]
            exact ⟨_, [], rfl, fun other member => Nat.lt_of_le_of_lt (ih.highest member) higher, nofun⟩
          · simp only [keepLatest, keyed, held, Option.all_some, higher, decide_false, Bool.false_eq_true, if_false]
            obtain ⟨front, back, split, before, after⟩ := ih
            refine ⟨front, back ++ [value], by rw [split]; simp, before, fun other member => ?_⟩
            rcases List.mem_append.mp member with late | new
            · exact after other late
            · exact List.mem_singleton.mp new ▸ Nat.le_of_not_lt higher
      · have kept : mapGet (keepLatest key rank (latestByKey key rank values) value) asked =
            mapGet (latestByKey key rank values) asked := by
          simp only [keepLatest, keyed]
          split
          · rw [mapGet_mapSet, if_neg (Ne.symm same)]
          · rfl
        rw [kept, if_neg (fun again => same (Option.some.inj again)), List.append_nil]
        exact ih

variable {asked : String}

theorem mem_iff_mapGet {entries : List (String × α)} (distinct : (entries.map Prod.fst).Nodup)
    : (asked, value) ∈ entries ↔ mapGet entries asked = some value := by
  induction entries with
  | nil => simp [mapGet]
  | cons entry entries ih =>
    obtain ⟨fresh, distinct⟩ := List.nodup_cons.mp distinct
    rw [mapGet_cons, List.mem_cons, ih distinct]
    by_cases same : entry.1 = asked
    · rw [if_pos same]
      constructor
      · rintro (rfl | later)
        · rfl
        · have member : (asked, value) ∈ entries := (ih distinct).mpr later
          exact absurd (same ▸ List.mem_map_of_mem (f := Prod.fst) member) fresh
      · intro held
        exact .inl (Prod.ext same.symm (Option.some.inj held).symm)
    · rw [if_neg same]
      exact or_iff_right fun is => same (congrArg Prod.fst is).symm

theorem latestByKey_mem :
    (asked, value) ∈ latestByKey key rank values ↔ FirstHighest rank (ofKey key asked values) value := by
  rw [mem_iff_mapGet (latestByKey_distinct values)]
  have got := @latestByKey_get α key rank values asked
  cases held : mapGet (latestByKey key rank values) asked with
  | none =>
    rw [held] at got
    refine iff_of_false nofun fun first => ?_
    have member := first.mem
    rw [show ofKey key asked values = [] from got] at member
    cases member
  | some existing =>
    rw [held] at got
    exact ⟨fun same => Option.some.inj same ▸ got,
      fun first => congrArg some (FirstHighest.unique got first)⟩

/-! ## The last value of each key -/

/-- A later pair of a key replaces an earlier one. -/
theorem mapGet_fromEntries_last (pairs : List (String × α)) (asked : String) :
    mapGet (fromEntries pairs) asked = mapGet pairs.reverse asked := by
  induction pairs using List.reverseRecOn with
  | nil => rfl
  | append_singleton pairs pair ih =>
    have step : fromEntries (pairs ++ [pair]) = mapSet (fromEntries pairs) pair.1 pair.2 := by
      simp [fromEntries]
    rw [step, mapGet_mapSet, List.reverse_append, List.reverse_singleton, List.singleton_append, mapGet_cons, ih]
    by_cases same : asked = pair.1
    · rw [if_pos same, if_pos same.symm]
    · rw [if_neg same, if_neg (Ne.symm same)]

theorem mem_of_mapGet_fromEntries {pairs : List (String × α)}
    (found : mapGet (fromEntries pairs) asked = some value) : (asked, value) ∈ pairs := by
  rw [mapGet_fromEntries_last] at found
  obtain ⟨entry, held, rfl⟩ := Option.map_eq_some_iff.mp found
  have same : entry.1 = asked := by simpa using List.find?_some held
  have member : entry ∈ pairs := List.mem_reverse.mp (List.mem_of_find?_eq_some held)
  exact same ▸ member

end Advance.JavaScript
