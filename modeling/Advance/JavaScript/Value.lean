import Mathlib.Algebra.Order.Ring.Rat
import Mathlib.Data.List.Basic

/-! # JavaScript data values

The values a JSON-backed program computes with: the six JSON shapes and
`undefined`.  A finite number is the rational it denotes.  Functions and symbols
behave like `undefined` everywhere the library looks, so they have no constructor.
-/

namespace Advance.JavaScript

/-- A finite JavaScript number, as the rational number it denotes. -/
abbrev JsNumber := Rat

inductive JsVal where
  | undefined
  | null
  | bool (value : Bool)
  | num (value : JsNumber)
  | str (value : String)
  | arr (elements : List JsVal)
  | obj (entries : List (String × JsVal))
  deriving Inhabited

namespace JsVal

/-! ## Decidable equality -/

mutual
def decEq : (left right : JsVal) → Decidable (left = right)
  | .undefined, right => match right with
    | .undefined => isTrue rfl
    | .null | .bool _ | .num _ | .str _ | .arr _ | .obj _ => isFalse (fun h => nomatch h)
  | .null, right => match right with
    | .null => isTrue rfl
    | .undefined | .bool _ | .num _ | .str _ | .arr _ | .obj _ => isFalse (fun h => nomatch h)
  | .bool left, right => match right with
    | .bool right => decidable_of_iff (left = right) (by simp)
    | .undefined | .null | .num _ | .str _ | .arr _ | .obj _ => isFalse (fun h => nomatch h)
  | .num left, right => match right with
    | .num right => decidable_of_iff (left = right) (by simp)
    | .undefined | .null | .bool _ | .str _ | .arr _ | .obj _ => isFalse (fun h => nomatch h)
  | .str left, right => match right with
    | .str right => decidable_of_iff (left = right) (by simp)
    | .undefined | .null | .bool _ | .num _ | .arr _ | .obj _ => isFalse (fun h => nomatch h)
  | .arr left, right => match right with
    | .arr right => @decidable_of_iff _ (left = right) (by simp) (decEqList left right)
    | .undefined | .null | .bool _ | .num _ | .str _ | .obj _ => isFalse (fun h => nomatch h)
  | .obj left, right => match right with
    | .obj right => @decidable_of_iff _ (left = right) (by simp) (decEqEntries left right)
    | .undefined | .null | .bool _ | .num _ | .str _ | .arr _ => isFalse (fun h => nomatch h)

def decEqList : (left right : List JsVal) → Decidable (left = right)
  | [], [] => isTrue rfl
  | [], _ :: _ => isFalse (fun h => nomatch h)
  | _ :: _, [] => isFalse (fun h => nomatch h)
  | x :: xs, y :: ys =>
    @decidable_of_iff _ (x = y ∧ xs = ys) (by simp) (@instDecidableAnd _ _ (decEq x y) (decEqList xs ys))

def decEqEntries : (left right : List (String × JsVal)) → Decidable (left = right)
  | [], [] => isTrue rfl
  | [], _ :: _ => isFalse (fun h => nomatch h)
  | _ :: _, [] => isFalse (fun h => nomatch h)
  | (j, x) :: xs, (k, y) :: ys =>
    @decidable_of_iff _ (j = k ∧ x = y ∧ xs = ys) (by simp [and_assoc])
      (@instDecidableAnd _ _ (instDecidableEqString j k) (@instDecidableAnd _ _ (decEq x y) (decEqEntries xs ys)))
end

instance : DecidableEq JsVal := decEq

/-! ## Property access -/

/-- The first defined value stored under a key.  A member holding `undefined`
    reads exactly like an absent one. -/
def lookup (key : String) : List (String × JsVal) → JsVal
  | [] => .undefined
  | (k, v) :: rest => if k = key ∧ v ≠ .undefined then v else lookup key rest

/-- `o[key]` for a value that is an object; every other value has no own data
    properties the library reads. -/
def get (v : JsVal) (key : String) : JsVal :=
  match v with
  | .obj entries => lookup key entries
  | _ => .undefined

/-- Whether reading a property of the value throws a `TypeError`. -/
def isNullish : JsVal → Bool
  | .undefined | .null => true
  | _ => false

/-- Strings, numbers, booleans, `null` and absent values. -/
def isAtom : JsVal → Bool
  | .arr _ | .obj _ => false
  | _ => true

/-- Whether a value counts as true in a condition. -/
def isTruthy : JsVal → Bool
  | .undefined | .null => false
  | .bool value => value
  | .num value => value ≠ 0
  | .str value => value ≠ ""
  | .arr _ | .obj _ => true

/-- `v ?? fallback`. -/
def orElse (v fallback : JsVal) : JsVal := if v.isNullish then fallback else v

/-- Overwrite every entry of a key, or append one where there is none. -/
def setEntry (key : String) (value : JsVal) (entries : List (String × JsVal)) : List (String × JsVal) :=
  if entries.any (fun entry => entry.1 = key) then
    entries.map (fun entry => if entry.1 = key then (key, value) else entry)
  else entries ++ [(key, value)]

/-- The own enumerable properties `{...v}` copies. -/
def spread : JsVal → List (String × JsVal)
  | .obj entries => entries
  | .arr elements => elements.zipIdx.map (fun (element, index) => (toString index, element))
  | .str value => value.toList.zipIdx.map (fun (c, index) => (toString index, .str (toString c)))
  | _ => []

/-- `{...v, [key]: value}`. -/
def set (v : JsVal) (key : String) (value : JsVal) : JsVal :=
  .obj (setEntry key value v.spread)

/-- The elements `[...v]` yields, `none` where `v` is not iterable. -/
def iterate : JsVal → Option (List JsVal)
  | .arr elements => some elements
  | .str value => some (value.toList.map (fun c => .str (toString c)))
  | _ => none

/-- `Array.isArray(v)`. -/
def isArray : JsVal → Bool
  | .arr _ => true
  | _ => false

/-- The elements of an array, nothing for any other value. -/
def elements : JsVal → List JsVal
  | .arr values => values
  | _ => []

/-- `Object.keys(v)` of an object. -/
def keys : JsVal → List String
  | .obj entries => entries.map Prod.fst
  | _ => []

/-- A string or number option that may be left out. -/
def ofStr : Option String → JsVal
  | some value => .str value
  | none => .undefined

def ofNum : Option JsNumber → JsVal
  | some value => .num value
  | none => .undefined

/-- The number in a numeric field, `fallback` for an absent one. -/
def numberD (v : JsVal) (fallback : JsNumber) : JsNumber :=
  match v with
  | .num value => value
  | _ => fallback

def textD (v : JsVal) (fallback : String) : String :=
  match v with
  | .str value => value
  | _ => fallback

/-! ## Serialisation -/

mutual
/-- The JSON value `JSON.stringify` writes for a value that is not itself
    `undefined`. -/
def toJson : JsVal → JsVal
  | .undefined => .null
  | .null => .null
  | .bool value => .bool value
  | .num value => .num value
  | .str value => .str value
  | .arr values => .arr (toJsonList values)
  | .obj entries => .obj (toJsonEntries entries)

def toJsonList : List JsVal → List JsVal
  | [] => []
  | value :: rest => value.toJson :: toJsonList rest

def toJsonEntries : List (String × JsVal) → List (String × JsVal)
  | [] => []
  | (key, value) :: rest =>
    if value = .undefined then toJsonEntries rest
    else (key, value.toJson) :: toJsonEntries rest
end

/-! ## Reading after a write -/

theorem lookup_append (key : String) (front back : List (String × JsVal)) : lookup key (front ++ back) =
      if lookup key front = .undefined then lookup key back else lookup key front := by
  induction front with
  | nil => simp [lookup]
  | cons entry front ih =>
    obtain ⟨k, v⟩ := entry
    simp only [List.cons_append, lookup]
    by_cases hit : k = key ∧ v ≠ .undefined
    · simp [hit]
    · simp only [if_neg hit, ih]

variable {entries : List (String × JsVal)} {key : String}

theorem lookup_of_absent (absent : ∀ entry ∈ entries, entry.1 ≠ key) : lookup key entries = .undefined := by
  induction entries with
  | nil => rfl
  | cons entry entries ih =>
    obtain ⟨k, v⟩ := entry
    have keyDiffers : k ≠ key := absent (k, v) (by simp)
    simp only [lookup, keyDiffers, false_and, if_false]
    exact ih (fun entry member => absent entry (by simp [member]))

theorem lookup_overwrite (key : String) (value : JsVal) (entries : List (String × JsVal))
    (present : entries.any (fun entry => entry.1 = key) = true) :
    lookup key (entries.map (fun entry => if entry.1 = key then (key, value) else entry)) = value := by
  have onlyValue : ∀ entries : List (String × JsVal),
      lookup key (entries.map (fun entry => if entry.1 = key then (key, value) else entry)) =
        if entries.any (fun entry => entry.1 = key) then value else .undefined := by
    intro entries
    induction entries with
    | nil => rfl
    | cons entry entries ih =>
      obtain ⟨k, v⟩ := entry
      by_cases same : k = key
      · by_cases defined : value = .undefined
        · simp only [List.map_cons, same, if_true, lookup, defined, ne_eq, not_true_eq_false,
            and_false, if_false, List.any_cons, decide_true, Bool.true_or]
          rw [defined] at ih
          rw [ih]
          simp
        · simp [same, lookup, defined]
      · simp only [List.map_cons, same, if_false, lookup, false_and, List.any_cons, decide_false, Bool.false_or]
        exact ih
  rw [onlyValue, present, if_pos rfl]

@[simp] theorem lookup_setEntry_same (key : String) (value : JsVal)
    (entries : List (String × JsVal)) : lookup key (setEntry key value entries) = value := by
  unfold setEntry
  split
  next present => exact lookup_overwrite key value entries present
  next absent =>
    have noEntry : lookup key entries = .undefined := by
      apply lookup_of_absent
      intro entry member same
      exact absent (List.any_eq_true.mpr ⟨entry, member, by simp [same]⟩)
    rw [lookup_append, if_pos noEntry]
    by_cases defined : value = .undefined <;> simp [lookup, defined]

theorem lookup_overwrite_ne {key other : String} (differs : other ≠ key) (value : JsVal)
    (entries : List (String × JsVal)) :
    lookup other (entries.map (fun entry => if entry.1 = key then (key, value) else entry)) =
      lookup other entries := by
  induction entries with
  | nil => rfl
  | cons entry entries ih =>
    obtain ⟨k, v⟩ := entry
    by_cases same : k = key
    · simp [lookup, same, differs.symm, ih]
    · simp [lookup, same, ih]

@[simp] theorem lookup_setEntry_ne {key other : String} (differs : other ≠ key) (value : JsVal)
    (entries : List (String × JsVal)) : lookup other (setEntry key value entries) = lookup other entries := by
  unfold setEntry
  split
  · exact lookup_overwrite_ne differs value entries
  · rw [lookup_append]
    split
    next missing => rw [missing]; simp [lookup, differs.symm]
    next => rfl

@[simp] theorem get_obj (entries : List (String × JsVal)) (key : String) :
    (obj entries).get key = lookup key entries := rfl

@[simp] theorem spread_obj (entries : List (String × JsVal)) : (obj entries).spread = entries := rfl

@[simp] theorem spread_set (v : JsVal) (key : String) (value : JsVal) :
    (v.set key value).spread = setEntry key value v.spread := rfl

@[simp] theorem get_set (v : JsVal) (key other : String) (value : JsVal) :
    (v.set key value).get other = if other = key then value else lookup other v.spread := by
  by_cases same : other = key
  · subst same; simp [set]
  · simp [set, same]

@[simp] theorem isAtom_ofStr (value : Option String) : (ofStr value).isAtom = true := by
  cases value <;> rfl

@[simp] theorem isAtom_ofNum (value : Option JsNumber) : (ofNum value).isAtom = true := by
  cases value <;> rfl

theorem lookup_spread_of_get {v : JsVal} (defined : v.get key ≠ .undefined) : lookup key v.spread = v.get key := by
  cases v <;> first | rfl | exact absurd rfl defined

/-! ## Serialisation keeps every defined property -/

@[simp] theorem toJson_ne_undefined (v : JsVal) : v.toJson ≠ .undefined := by
  cases v <;> simp [toJson]

theorem lookup_toJsonEntries (key : String) (entries : List (String × JsVal)) : lookup key (toJsonEntries entries) =
      if lookup key entries = .undefined then .undefined else (lookup key entries).toJson := by
  induction entries with
  | nil => rfl
  | cons entry entries ih =>
    obtain ⟨k, v⟩ := entry
    by_cases defined : v = .undefined
    · simp [toJsonEntries, lookup, defined, ih]
    · by_cases same : k = key
      · simp [toJsonEntries, lookup, defined, same]
      · simp [toJsonEntries, lookup, defined, same, ih]

theorem get_toJson (v : JsVal) (key : String) :
    v.toJson.get key = if v.get key = .undefined then .undefined else (v.get key).toJson := by
  cases v with
  | obj entries => exact lookup_toJsonEntries key entries
  | _ => simp [toJson, get]

theorem get_toJson_atom {v : JsVal} (atom : (v.get key).isAtom = true) : v.toJson.get key = v.get key := by
  rw [get_toJson]
  cases found : v.get key <;> simp_all [toJson, isAtom]

theorem toJsonList_eq_map (values : List JsVal) : toJsonList values = values.map toJson := by
  induction values with
  | nil => rfl
  | cons value values ih => simp [toJsonList, ih]

mutual
theorem toJson_toJson : (v : JsVal) → v.toJson.toJson = v.toJson
  | .undefined | .null | .bool _ | .num _ | .str _ => by simp [toJson]
  | .arr values => by simp [toJson, toJsonList_toJsonList values]
  | .obj entries => by simp [toJson, toJsonEntries_toJsonEntries entries]

theorem toJsonList_toJsonList : (values : List JsVal) → toJsonList (toJsonList values) = toJsonList values
  | [] => rfl
  | value :: rest => by simp [toJsonList, toJson_toJson value, toJsonList_toJsonList rest]

theorem toJsonEntries_toJsonEntries : (entries : List (String × JsVal)) →
      toJsonEntries (toJsonEntries entries) = toJsonEntries entries
  | [] => rfl
  | (key, value) :: rest => by
    by_cases defined : value = .undefined
    · simp [toJsonEntries, defined, toJsonEntries_toJsonEntries rest]
    · simp [toJsonEntries, defined, toJson_toJson value, toJsonEntries_toJsonEntries rest]
end

theorem toJsonEntries_self (serialised : ∀ entry ∈ entries, entry.2 ≠ .undefined ∧ entry.2.toJson = entry.2) :
    toJsonEntries entries = entries := by
  induction entries with
  | nil => rfl
  | cons entry entries ih =>
    obtain ⟨key, v⟩ := entry
    obtain ⟨defined, same⟩ := serialised (key, v) (by simp)
    simp only at defined same
    rw [toJsonEntries, if_neg defined, same, ih fun entry member => serialised entry (by simp [member])]

theorem length_toJsonEntries_le (entries : List (String × JsVal)) :
    (toJsonEntries entries).length ≤ entries.length := by
  induction entries with
  | nil => exact Nat.le_refl 0
  | cons entry entries ih =>
    obtain ⟨key, value⟩ := entry
    simp only [toJsonEntries]
    split
    · exact Nat.le_succ_of_le ih
    · exact Nat.succ_le_succ ih

theorem serialised_of_toJsonEntries (same : toJsonEntries entries = entries) :
    ∀ entry ∈ entries, entry.2 ≠ .undefined ∧ entry.2.toJson = entry.2 := by
  induction entries with
  | nil => exact fun _ member => nomatch member
  | cons entry entries ih =>
    obtain ⟨key, value⟩ := entry
    simp only [toJsonEntries] at same
    split at same
    · -- A dropped member would make the list shorter.
      have shorter := length_toJsonEntries_le entries
      rw [same, List.length_cons] at shorter
      omega
    next defined =>
      obtain ⟨first, rest⟩ := List.cons.inj same
      intro member held
      rcases List.mem_cons.mp held with rfl | held
      · exact ⟨defined, congrArg Prod.snd first⟩
      · exact ih rest member held

end JsVal

end Advance.JavaScript
