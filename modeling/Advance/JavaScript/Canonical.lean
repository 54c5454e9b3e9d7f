import Mathlib.Data.List.Perm.Basic
import Mathlib.Data.List.Sort
import Advance.JavaScript.Value

/-! # Canonical JSON

A value with the members of every object sorted by key and put into a new object,
so that values that differ in key order alone get the same text unless two keys
tie.  A text is represented by the JSON value it spells.
-/

namespace Advance.JavaScript

open JsVal

/-! ## The order of an object's members -/

/-- The array index a key spells: the digits of a number below 2^32 - 1. -/
def arrayIndex (key : String) : Option Nat :=
  if key.toList.all Char.isDigit then
    let index := key.toList.foldl (fun index digit => 10 * index + (digit.toNat - '0'.toNat)) 0
    if index < 4294967295 ∧ Nat.toDigits 10 index = key.toList then some index else none
  else none

/-- Array indices stand before the other keys, and in ascending order. -/
def indexBefore : Option Nat → Option Nat → Bool
  | some index, some other => index ≤ other
  | none, some _ => false
  | _, none => true

def memberBefore (left right : String × JsVal) : Prop :=
  indexBefore (arrayIndex left.1) (arrayIndex right.1) = true

instance : DecidableRel memberBefore :=
  fun left right => inferInstanceAs (Decidable (indexBefore (arrayIndex left.1) (arrayIndex right.1) = true))

/-- The order an object built from `entries` lists them in: array indices ascending, the other keys as
    they were added. -/
def ownOrder (entries : List (String × JsVal)) : List (String × JsVal) := entries.insertionSort memberBefore

theorem ownOrder_perm (entries : List (String × JsVal)) : (ownOrder entries).Perm entries :=
  List.perm_insertionSort memberBefore entries

section

variable (localeCompare : String → String → Ordering)

/-- The order `entries.sort(([left], [right]) => left.localeCompare(right))` sorts by. -/
def keyBefore (left right : String × JsVal) : Prop := (localeCompare left.1 right.1).isLE = true

instance : DecidableRel (keyBefore localeCompare) :=
  fun left right => inferInstanceAs (Decidable ((localeCompare left.1 right.1).isLE = true))

mutual
def canonicalValue : JsVal → JsVal
  | .undefined => .undefined
  | .null => .null
  | .bool value => .bool value
  | .num value => .num value
  | .str value => .str value
  | .arr values => .arr (canonicalList values)
  | .obj entries => .obj (ownOrder ((canonicalEntries entries).insertionSort (keyBefore localeCompare)))

def canonicalList : List JsVal → List JsVal
  | [] => []
  | value :: rest => canonicalValue value :: canonicalList rest

/-- The defined members, each with its canonical value, in the order they stand. -/
def canonicalEntries : List (String × JsVal) → List (String × JsVal)
  | [] => []
  | (key, value) :: rest =>
    if value = .undefined then canonicalEntries rest
    else (key, canonicalValue value) :: canonicalEntries rest
end

/-- `JSON.stringify(canonicalValue(value))`, which is `undefined` for `undefined`. -/
def canonicalBytes (value : JsVal) : JsVal :=
  if value = .undefined then .undefined else (canonicalValue localeCompare value).toJson

@[simp] theorem canonicalBytes_str (value : String) : canonicalBytes localeCompare (.str value) = .str value := rfl

/-! ## What canonical values tell apart -/

theorem canonicalList_eq_map (values : List JsVal) :
    canonicalList localeCompare values = values.map (canonicalValue localeCompare) := by
  induction values with
  | nil => rfl
  | cons value values ih => simp [canonicalList, ih]

theorem canonicalEntries_eq_map {entries : List (String × JsVal)}
    (defined : ∀ entry ∈ entries, entry.2 ≠ .undefined) : canonicalEntries localeCompare entries =
      entries.map fun entry => (entry.1, canonicalValue localeCompare entry.2) := by
  induction entries with
  | nil => rfl
  | cons entry entries ih =>
    obtain ⟨key, value⟩ := entry
    have present : value ≠ .undefined := defined (key, value) (by simp)
    rw [canonicalEntries, if_neg present, ih fun entry member => defined entry (by simp [member])]
    rfl

theorem canonicalValue_undefined {value : JsVal} :
    canonicalValue localeCompare value = .undefined ↔ value = .undefined := by
  cases value <;> simp [canonicalValue]

mutual
theorem canonicalValue_json : (value : JsVal) → value.toJson = value →
    (canonicalValue localeCompare value).toJson = canonicalValue localeCompare value
  | .undefined, json => nomatch json
  | .null, _ | .bool _, _ | .num _, _ | .str _, _ => by simp [canonicalValue, toJson]
  | .arr values, json => by
    have elements : toJsonList values = values := by simpa [toJson] using json
    simp only [canonicalValue, toJson]
    rw [canonicalList_json values elements]
  | .obj entries, json => by
    have members : toJsonEntries entries = entries := by simpa [toJson] using json
    simp only [canonicalValue, toJson]
    rw [toJsonEntries_self]
    intro entry member
    rw [(ownOrder_perm _).mem_iff, List.mem_insertionSort] at member
    exact canonicalEntries_json entries members entry member

theorem canonicalList_json : (values : List JsVal) → toJsonList values = values →
    toJsonList (canonicalList localeCompare values) = canonicalList localeCompare values
  | [], _ => rfl
  | value :: rest, json => by
    obtain ⟨first, others⟩ := List.cons.inj json
    simp only [canonicalList, toJsonList]
    rw [canonicalValue_json value first, canonicalList_json rest others]

theorem canonicalEntries_json : (entries : List (String × JsVal)) →
    toJsonEntries entries = entries → ∀ entry ∈ canonicalEntries localeCompare entries,
      entry.2 ≠ .undefined ∧ entry.2.toJson = entry.2
  | [], _ => fun _ member => nomatch member
  | (key, value) :: rest, json => by
    obtain ⟨defined, same⟩ := serialised_of_toJsonEntries json (key, value) (by simp)
    have others : toJsonEntries rest = rest :=
      toJsonEntries_self fun entry member =>
        serialised_of_toJsonEntries json entry (by simp [member])
    intro entry member
    rw [canonicalEntries, if_neg defined] at member
    rcases List.mem_cons.mp member with rfl | member
    · exact ⟨fun absent => defined ((canonicalValue_undefined localeCompare).mp absent),
        canonicalValue_json value same⟩
    · exact canonicalEntries_json rest others entry member
end

end

mutual
/-- Equal as JSON values, the order of object keys aside. -/
inductive SameUpToKeyOrder : JsVal → JsVal → Prop
  | atom {value : JsVal} (atomic : value.isAtom = true) : SameUpToKeyOrder value value
  | arr {left right : List JsVal} (elements : SameElements left right) : SameUpToKeyOrder (.arr left) (.arr right)
  | obj {left right arranged : List (String × JsVal)} (order : arranged.Perm right)
    (members : SameMembers left arranged) : SameUpToKeyOrder (.obj left) (.obj right)

inductive SameElements : List JsVal → List JsVal → Prop
  | nil : SameElements [] []
  | cons {value other : JsVal} {left right : List JsVal} (first : SameUpToKeyOrder value other)
    (rest : SameElements left right) : SameElements (value :: left) (other :: right)

inductive SameMembers : List (String × JsVal) → List (String × JsVal) → Prop
  | nil : SameMembers [] []
  | cons {key : String} {value other : JsVal} {left right : List (String × JsVal)}
    (first : SameUpToKeyOrder value other) (rest : SameMembers left right) :
    SameMembers ((key, value) :: left) ((key, other) :: right)
end

section

variable {localeCompare : String → String → Ordering}

mutual
theorem same_of_canonicalValue : (left right : JsVal) → left.toJson = left →
    right.toJson = right → canonicalValue localeCompare left = canonicalValue localeCompare right →
    SameUpToKeyOrder left right
  | .undefined, _, json, _, _ => nomatch json
  | .null, right, _, _, same => by
    cases right <;> simp [canonicalValue] at same
    exact .atom rfl
  | .bool value, right, _, _, same => by
    cases right <;> simp [canonicalValue] at same
    exact same ▸ .atom rfl
  | .num value, right, _, _, same => by
    cases right <;> simp [canonicalValue] at same
    exact same ▸ .atom rfl
  | .str value, right, _, _, same => by
    cases right <;> simp [canonicalValue] at same
    exact same ▸ .atom rfl
  | .arr values, right, jsonLeft, jsonRight, same => by
    cases right with
    | arr others =>
      have elements : toJsonList values = values := by simpa [toJson] using jsonLeft
      have otherElements : toJsonList others = others := by simpa [toJson] using jsonRight
      simp only [canonicalValue, JsVal.arr.injEq] at same
      exact .arr (same_of_canonicalList values others elements otherElements same)
    | undefined | null | bool _ | num _ | str _ | obj _ => simp [canonicalValue] at same
  | .obj entries, right, jsonLeft, jsonRight, same => by
    cases right with
    | obj others =>
      have members : toJsonEntries entries = entries := by simpa [toJson] using jsonLeft
      have otherMembers : toJsonEntries others = others := by simpa [toJson] using jsonRight
      simp only [canonicalValue, JsVal.obj.injEq] at same
      have perm : (canonicalEntries localeCompare entries).Perm (canonicalEntries localeCompare others) := by
        have sorted := (ownOrder_perm _).trans (List.perm_insertionSort (keyBefore localeCompare)
          (canonicalEntries localeCompare entries))
        rw [same] at sorted
        exact sorted.symm.trans ((ownOrder_perm _).trans (List.perm_insertionSort _ _))
      rw [canonicalEntries_eq_map localeCompare fun entry member =>
        (serialised_of_toJsonEntries otherMembers entry member).1] at perm
      -- The permutation of canonical members comes from one of the members.
      obtain ⟨arranged, mapped, order⟩ : ∃ arranged : List (String × JsVal),
          canonicalEntries localeCompare entries =
          arranged.map (fun entry => (entry.1, canonicalValue localeCompare entry.2)) ∧ arranged.Perm others := by
        have composed := (congrFun (congrFun (List.eq_map_comp_perm
          fun entry : String × JsVal => (entry.1, canonicalValue localeCompare entry.2)) _) _).mpr
          perm
        exact composed
      refine .obj order (same_of_canonicalEntries entries arranged members ?_ mapped)
      refine toJsonEntries_self fun entry member => ?_
      exact serialised_of_toJsonEntries otherMembers entry (order.mem_iff.mp member)
    | undefined | null | bool _ | num _ | str _ | arr _ => simp [canonicalValue] at same

theorem same_of_canonicalList : (left right : List JsVal) → toJsonList left = left → toJsonList right = right →
    canonicalList localeCompare left = canonicalList localeCompare right → SameElements left right
  | [], [], _, _, _ => .nil
  | [], _ :: _, _, _, same => nomatch same
  | _ :: _, [], _, _, same => nomatch same
  | value :: left, other :: right, jsonLeft, jsonRight, same => by
    obtain ⟨first, others⟩ := List.cons.inj same
    obtain ⟨jsonValue, jsonRest⟩ := List.cons.inj jsonLeft
    obtain ⟨jsonOther, jsonOthers⟩ := List.cons.inj jsonRight
    exact .cons (same_of_canonicalValue value other jsonValue jsonOther first)
      (same_of_canonicalList left right jsonRest jsonOthers others)

theorem same_of_canonicalEntries : (left right : List (String × JsVal)) →
    toJsonEntries left = left → toJsonEntries right = right → canonicalEntries localeCompare left =
      right.map (fun entry => (entry.1, canonicalValue localeCompare entry.2)) → SameMembers left right
  | [], [], _, _, _ => .nil
  | [], _ :: _, _, _, same => nomatch same
  | (key, value) :: left, right, jsonLeft, jsonRight, same => by
    obtain ⟨defined, jsonValue⟩ := serialised_of_toJsonEntries jsonLeft (key, value) (by simp)
    rw [canonicalEntries, if_neg defined] at same
    cases right with
    | nil => cases same
    | cons entry right =>
      obtain ⟨otherKey, other⟩ := entry
      obtain ⟨first, others⟩ := List.cons.inj same
      obtain ⟨rfl, canonical⟩ := Prod.mk.inj first
      have jsonRest : toJsonEntries left = left := toJsonEntries_self fun entry member =>
        serialised_of_toJsonEntries jsonLeft entry (by simp [member])
      have jsonOthers : toJsonEntries right = right := toJsonEntries_self fun entry member =>
        serialised_of_toJsonEntries jsonRight entry (by simp [member])
      have jsonOther := (serialised_of_toJsonEntries jsonRight (key, other) (by simp)).2
      exact .cons (same_of_canonicalValue value other jsonValue jsonOther canonical)
        (same_of_canonicalEntries left right jsonRest jsonOthers others)
end

theorem same_of_canonicalBytes {left right : JsVal} (jsonLeft : left.toJson = left) (jsonRight : right.toJson = right)
    (same : canonicalBytes localeCompare left = canonicalBytes localeCompare right) :
    SameUpToKeyOrder left right := by
  have definedLeft : left ≠ .undefined := by rintro rfl; cases jsonLeft
  have definedRight : right ≠ .undefined := by rintro rfl; cases jsonRight
  rw [canonicalBytes, canonicalBytes, if_neg definedLeft, if_neg definedRight,
    canonicalValue_json localeCompare left jsonLeft,
    canonicalValue_json localeCompare right jsonRight] at same
  exact same_of_canonicalValue left right jsonLeft jsonRight same

/-! ## Members of values that are the same -/

theorem SameMembers.find : {left right : List (String × JsVal)} → SameMembers left right → {key : String} →
    {value : JsVal} → (key, value) ∈ left → ∃ other, (key, other) ∈ right ∧ SameUpToKeyOrder value other
  | _, _, .nil, _, _, held => (List.not_mem_nil held).elim
  | _, _, .cons first rest, key, value, held => by
    rcases List.mem_cons.mp held with same | later
    · obtain ⟨rfl, rfl⟩ := Prod.mk.inj same
      exact ⟨_, List.mem_cons_self, first⟩
    · obtain ⟨other, inside, same⟩ := rest.find later
      exact ⟨other, List.mem_cons_of_mem _ inside, same⟩

theorem SameUpToKeyOrder.find {left right : List (String × JsVal)} (same : SameUpToKeyOrder (.obj left) (.obj right))
    {key : String} {value : JsVal} (held : (key, value) ∈ left) :
    ∃ other, (key, other) ∈ right ∧ SameUpToKeyOrder value other := by
  cases same with
  | atom atomic => cases atomic
  | obj order members =>
    obtain ⟨other, inside, alike⟩ := members.find held
    exact ⟨other, order.subset inside, alike⟩

theorem SameUpToKeyOrder.str {text : String} {other : JsVal} (same : SameUpToKeyOrder (.str text) other) :
    other = .str text := by
  cases same
  rfl

end

end Advance.JavaScript
