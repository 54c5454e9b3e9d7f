import Advance.JavaScript.CodeUnits
import Advance.Types.Backlog
import Mathlib.Data.List.Sort

/-! # Stable texts

`stableStringify`: a document as text, with the keys of its objects in one order.
-/

namespace Advance.Utils

open Advance.Foundation Advance.JavaScript Advance.Types

/-- The order of `Object.keys(record).sort()`. -/
def keyBefore (left right : String × Json) : Prop := unitsBefore left.1.toList right.1.toList

instance : DecidableRel keyBefore := fun left right =>
  inferInstanceAs (Decidable (unitsBefore left.1.toList right.1.toList))

mutual

/-- A document with the keys of its objects in order. -/
def stableJson : Json → Json
  | .list values => .list (stableValues values)
  | .object members => .object ((stableMembers members).insertionSort keyBefore)
  | value => value

def stableValues : List Json → List Json
  | [] => []
  | value :: values => stableJson value :: stableValues values

def stableMembers : List (String × Json) → List (String × Json)
  | [] => []
  | (key, value) :: members => (key, stableJson value) :: stableMembers members

end

def stableStringify (value : Json) : List Char := (stableJson value).print

/-! ## Members -/

theorem stableValues_eq (values : List Json) : stableValues values = values.map stableJson := by
  induction values with
  | nil => rfl
  | cons value values ih => rw [stableValues, ih, List.map_cons]

theorem stableMembers_eq (members : List (String × Json)) :
    stableMembers members = members.map fun member => (member.1, stableJson member.2) := by
  induction members with
  | nil => rfl
  | cons member members ih => rw [stableMembers, ih, List.map_cons]

theorem member_perm {members others : List (String × Json)} (perm : members.Perm others)
    (distinct : (others.map Prod.fst).Nodup) (key : String) :
    (Json.object members).member key = (Json.object others).member key := by
  have reversed : (others.reverse.map Prod.fst).Nodup := by
    rw [List.map_reverse]
    exact List.nodup_reverse.mpr distinct
  have same : members.reverse.Perm others.reverse :=
    (List.reverse_perm members).trans (perm.trans (List.reverse_perm others).symm)
  have also : (members.reverse.map Prod.fst).Nodup := (same.map Prod.fst).nodup_iff.mpr reversed
  simp only [Json.member]
  cases found : others.reverse.find? fun member => member.1 = key with
  | none =>
    have missing : members.reverse.find? (fun member => member.1 = key) = none :=
      List.find?_eq_none.mpr fun member stands => List.find?_eq_none.mp found member (same.mem_iff.mp stands)
    rw [missing]
  | some member =>
    obtain ⟨name, value⟩ := member
    obtain rfl : name = key := by simpa using List.find?_some found
    rw [Json.find?_key also (same.mem_iff.mpr (List.mem_of_find?_eq_some found))]

theorem stableMembers_record (fields : List (String × Option Json)) :
    stableMembers (fields.filterMap fun field => field.2.map (field.1, ·)) =
      (fields.map fun field => (field.1, field.2.map stableJson)).filterMap fun field => field.2.map (field.1, ·) := by
  rw [stableMembers_eq, List.map_filterMap, List.filterMap_map]
  refine List.filterMap_congr fun field _ => ?_
  obtain ⟨name, _ | content⟩ := field <;> rfl

theorem member_stable {fields : List (String × Option Json)} (distinct : (fields.map Prod.fst).Nodup) {key : String}
    {value : Option Json} (stands : (key, value) ∈ fields) :
    (stableJson (.record fields)).member key = value.map stableJson := by
  have mapped : ((fields.map fun field => (field.1, field.2.map stableJson)).map Prod.fst).Nodup := by
    simpa [Function.comp_def] using distinct
  have sorted := List.perm_insertionSort keyBefore
    (stableMembers (fields.filterMap fun field => field.2.map (field.1, ·)))
  rw [stableMembers_record] at sorted
  rw [Json.record, stableJson, stableMembers_record, member_perm sorted (mapped.sublist (Json.fields_keys _))]
  exact Json.member_record mapped (List.mem_map.mpr ⟨_, stands, rfl⟩)

theorem stableStringify_inj {left right : Json} (same : stableStringify left = stableStringify right) :
    stableJson left = stableJson right := by
  have parsed := congrArg Json.parse same
  rw [stableStringify, stableStringify, Json.parse_print, Json.parse_print] at parsed
  exact Option.some.inj parsed

/-! ## Reading stable records -/

section

variable {α : Type} {read : Json → Option α} {write : α → Json} {fields : List (String × Option Json)} {key : String}

theorem required_stable (distinct : (fields.map Prod.fst).Nodup) {value : α} {content : Json}
    (stands : (key, some content) ∈ fields) (reads : read (stableJson content) = some value) :
    required read key (stableJson (.record fields)) = some value := by
  rw [required, member_stable distinct stands]
  exact reads

theorem optional_stable (distinct : (fields.map Prod.fst).Nodup) {value : Option α}
    (stands : (key, value.map write) ∈ fields) (reads : ∀ held ∈ value, read (stableJson (write held)) = some held) :
    Types.optional read key (stableJson (.record fields)) = some value := by
  rw [Types.optional, member_stable distinct stands]
  cases value with
  | none => rfl
  | some held => exact congrArg (Option.map some) (reads held rfl)

theorem readList_stable {values : List α} (reads : ∀ value ∈ values, read (stableJson (write value)) = some value) :
    readList read (stableJson (.list (values.map write))) = some values := by
  rw [stableJson, stableValues_eq, readList]
  induction values with
  | nil => rfl
  | cons value values ih =>
    have rest := ih fun other member => reads other (List.mem_cons_of_mem value member)
    simp only [List.map_cons, List.mapM_cons, reads value List.mem_cons_self, rest, Option.bind_eq_bind,
      Option.bind_some, Option.pure_def]

def hasOnly (keys : List String) : Json → Bool
  | .object members => members.all fun member => keys.contains member.1
  | _ => false

theorem hasOnly_stable {keys : List String} (known : ∀ field ∈ fields, field.1 ∈ keys) :
    hasOnly keys (stableJson (.record fields)) = true := by
  rw [Json.record, stableJson, hasOnly, List.all_eq_true]
  intro member stands
  have sorted := (List.perm_insertionSort keyBefore _).mem_iff.mp stands
  rw [stableMembers_record] at sorted
  obtain ⟨field, mapped, written⟩ := List.mem_filterMap.mp sorted
  obtain ⟨source, stood, rfl⟩ := List.mem_map.mp mapped
  have name : member.1 = source.1 := by
    obtain ⟨name, _ | content⟩ := source
    · cases written
    · obtain rfl := Option.some.inj written
      rfl
  simpa [name] using known source stood

end

end Advance.Utils
