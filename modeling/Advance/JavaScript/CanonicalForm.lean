import Advance.Foundation.StableSort
import Advance.JavaScript.Canonical

/-! # What the canonical text identifies

Two values have one canonical text only if they are the same JSON value up to the
order of keys; and the text forgets the order of keys just as long as no two keys
of an object tie.
-/

namespace Advance.JavaScript

open Foundation
open JsVal

/-! ## JSON values -/

mutual
/-- A value of JSON data: arrays hold values, objects list distinct keys in their own order and may hold
    `undefined`. -/
def JsonValue : JsVal → Prop
  | .undefined => False
  | .arr values => JsonElements values
  | .obj entries =>
    (entries.map Prod.fst).Nodup ∧ entries.Pairwise memberBefore ∧ JsonMembers entries
  | .null | .bool _ | .num _ | .str _ => True

def JsonElements : List JsVal → Prop
  | [] => True
  | value :: rest => JsonValue value ∧ JsonElements rest

def JsonMembers : List (String × JsVal) → Prop
  | [] => True
  | (_, value) :: rest => (value = .undefined ∨ JsonValue value) ∧ JsonMembers rest
end

/-- The same JSON value, the order of keys and the members that are `undefined` aside. -/
def SameJson (left right : JsVal) : Prop := SameUpToKeyOrder left.toJson right.toJson

variable {entries : List (String × JsVal)}

theorem jsonMembers_iff :
    JsonMembers entries ↔ ∀ entry ∈ entries, entry.2 = .undefined ∨ JsonValue entry.2 := by
  induction entries with
  | nil => simp [JsonMembers]
  | cons entry entries ih => simp [JsonMembers, ih]

theorem toJsonEntries_eq_map (entries : List (String × JsVal)) : toJsonEntries entries =
      (entries.filter fun entry => entry.2 ≠ .undefined).map fun entry => (entry.1, entry.2.toJson) := by
  induction entries with
  | nil => rfl
  | cons entry entries ih =>
    obtain ⟨key, value⟩ := entry
    by_cases absent : value = .undefined
    · simp [toJsonEntries, absent, ih]
    · simp [toJsonEntries, absent, ih]

theorem toJsonEntries_keys (entries : List (String × JsVal)) :
    List.Sublist ((toJsonEntries entries).map Prod.fst) (entries.map Prod.fst) := by
  rw [toJsonEntries_eq_map, List.map_map]
  exact List.filter_sublist.map Prod.fst

mutual
theorem JsonValue.toJson : (value : JsVal) → JsonValue value → JsonValue value.toJson
  | .undefined, json => json.elim
  | .null, _ | .bool _, _ | .num _, _ | .str _, _ => trivial
  | .arr values, json => JsonElements.toJson values json
  | .obj entries, json => by
    obtain ⟨distinct, order, members⟩ := json
    refine ⟨distinct.sublist (toJsonEntries_keys entries), ?_, JsonMembers.toJson entries members⟩
    rw [toJsonEntries_eq_map]
    exact List.pairwise_map.mpr (order.filter _)

theorem JsonElements.toJson : (values : List JsVal) → JsonElements values → JsonElements (toJsonList values)
  | [], _ => trivial
  | value :: rest, json => ⟨JsonValue.toJson value json.1, JsonElements.toJson rest json.2⟩

theorem JsonMembers.toJson :
    (entries : List (String × JsVal)) → JsonMembers entries → JsonMembers (toJsonEntries entries)
  | [], _ => trivial
  | (key, value) :: rest, json => by
    rw [toJsonEntries]
    split
    · exact JsonMembers.toJson rest json.2
    next defined =>
      exact ⟨.inr (JsonValue.toJson value (json.1.resolve_left defined)), JsonMembers.toJson rest json.2⟩
end

/-! ## The two orders -/

theorem indexBefore_total (left right : Option Nat) :
    indexBefore left right = true ∨ indexBefore right left = true := by
  cases left <;> cases right <;> simp [indexBefore, Nat.le_total]

theorem indexBefore_trans {left middle right : Option Nat} (first : indexBefore left middle = true)
    (second : indexBefore middle right = true) : indexBefore left right = true := by
  cases left <;> cases middle <;> cases right <;> simp [indexBefore] at first second ⊢
  exact first.trans second

instance memberBefore_total : Std.Total memberBefore where
  total := fun left right => indexBefore_total (arrayIndex left.1) (arrayIndex right.1)

instance memberBefore_trans : IsTrans (String × JsVal) memberBefore where
  trans := fun _ _ _ first second => indexBefore_trans first second

theorem arrayIndex_injective {left right : String} {index : Nat} (first : arrayIndex left = some index)
    (second : arrayIndex right = some index) : left = right := by
  have spelled : ∀ {key : String}, arrayIndex key = some index → Nat.toDigits 10 index = key.toList := by
    intro key found
    simp only [arrayIndex] at found
    split at found
    · split at found
      next spells =>
        cases found
        exact spells.2
      · cases found
    · cases found
  exact String.toList_injective ((spelled first).symm.trans (spelled second))

theorem arrayIndex_of_tie {left right : String} (differ : left ≠ right)
    (forward : indexBefore (arrayIndex left) (arrayIndex right) = true)
    (backward : indexBefore (arrayIndex right) (arrayIndex left) = true) :
    arrayIndex left = none ∧ arrayIndex right = none := by
  cases foundLeft : arrayIndex left with
  | none =>
    cases foundRight : arrayIndex right with
    | none => exact ⟨rfl, rfl⟩
    | some other => simp [foundLeft, foundRight, indexBefore] at forward
  | some index =>
    cases foundRight : arrayIndex right with
    | none => simp [foundLeft, foundRight, indexBefore] at backward
    | some other =>
      simp only [foundLeft, foundRight, indexBefore, decide_eq_true_eq] at forward backward
      obtain rfl := Nat.le_antisymm forward backward
      exact absurd (arrayIndex_injective foundLeft foundRight) differ

section

variable {localeCompare : String → String → Ordering}

instance keyBefore_total [Std.TransCmp localeCompare] : Std.Total (keyBefore localeCompare) where
  total := fun _ _ => or_iff_not_imp_left.mpr fun later =>
    Ordering.isLE_of_eq_lt (Std.OrientedCmp.lt_of_not_isLE later)

instance keyBefore_trans [Std.TransCmp localeCompare] : IsTrans (String × JsVal) (keyBefore localeCompare) where
  trans := fun _ _ _ first second => Std.TransCmp.isLE_trans first second

theorem tied_of_keyBefore [Std.TransCmp localeCompare] {left right : String × JsVal}
    (forward : keyBefore localeCompare left right) (backward : keyBefore localeCompare right left) :
    localeCompare left.1 right.1 = .eq := by
  have swapped : localeCompare right.1 left.1 = (localeCompare left.1 right.1).swap := Std.OrientedCmp.eq_swap
  simp only [keyBefore, swapped] at forward backward
  cases found : localeCompare left.1 right.1 <;> simp [found, Ordering.swap, Ordering.isLE] at forward backward ⊢

/-! ## The text -/

theorem toJsonEntries_sort {before : String × JsVal → String × JsVal → Prop} [DecidableRel before]
    [Std.Total before] [IsTrans (String × JsVal) before] (keyed : ∀ left right : String × JsVal,
      before left right ↔ before (left.1, left.2.toJson) (right.1, right.2.toJson))
    (entries : List (String × JsVal)) :
    toJsonEntries (entries.insertionSort before) = (toJsonEntries entries).insertionSort before := by
  rw [toJsonEntries_eq_map, toJsonEntries_eq_map, filter_insertionSort]
  exact List.map_insertionSort before before _ _ fun left _ right _ => keyed left right

theorem toJsonEntries_rebuilt [Std.TransCmp localeCompare] (entries : List (String × JsVal)) :
    toJsonEntries (ownOrder (entries.insertionSort (keyBefore localeCompare))) =
      ownOrder ((toJsonEntries entries).insertionSort (keyBefore localeCompare)) := by
  rw [ownOrder, ownOrder, toJsonEntries_sort fun _ _ => Iff.rfl, toJsonEntries_sort fun _ _ => Iff.rfl]

mutual
theorem toJson_canonicalValue [Std.TransCmp localeCompare] : (value : JsVal) →
    (canonicalValue localeCompare value).toJson = canonicalValue localeCompare value.toJson
  | .undefined | .null | .bool _ | .num _ | .str _ => by simp [canonicalValue, toJson]
  | .arr values => by
    simp only [canonicalValue, toJson]
    rw [toJson_canonicalList values]
  | .obj entries => by
    simp only [canonicalValue, toJson]
    rw [toJsonEntries_rebuilt, toJson_canonicalEntries entries]

theorem toJson_canonicalList [Std.TransCmp localeCompare] : (values : List JsVal) →
    toJsonList (canonicalList localeCompare values) = canonicalList localeCompare (toJsonList values)
  | [] => rfl
  | value :: rest => by
    simp only [canonicalList, toJsonList]
    rw [toJson_canonicalValue value, toJson_canonicalList rest]

theorem toJson_canonicalEntries [Std.TransCmp localeCompare] : (entries : List (String × JsVal)) →
    toJsonEntries (canonicalEntries localeCompare entries) = canonicalEntries localeCompare (toJsonEntries entries)
  | [] => rfl
  | (key, value) :: rest => by
    by_cases absent : value = .undefined
    · rw [canonicalEntries, if_pos absent, toJsonEntries, if_pos absent, toJson_canonicalEntries rest]
    · have present : canonicalValue localeCompare value ≠ .undefined :=
        fun gone => absent ((canonicalValue_undefined localeCompare).mp gone)
      rw [canonicalEntries, if_neg absent, toJsonEntries, if_neg present, toJsonEntries, if_neg absent,
        canonicalEntries, if_neg (toJson_ne_undefined value), toJson_canonicalValue value,
        toJson_canonicalEntries rest]
end

variable {value : JsVal}

theorem canonicalBytes_eq [Std.TransCmp localeCompare] (defined : value ≠ .undefined) :
    canonicalBytes localeCompare value = canonicalValue localeCompare value.toJson := by
  rw [canonicalBytes, if_neg defined, toJson_canonicalValue]

/-! ## The reconcile plan's version -/

variable (localeCompare) in
mutual
/-- Members holding `undefined` are kept, and left out of the text when it is written. -/
def canonicalize : JsVal → JsVal
  | .undefined => .undefined
  | .null => .null
  | .bool value => .bool value
  | .num value => .num value
  | .str value => .str value
  | .arr values => .arr (canonicalizeList values)
  | .obj entries => .obj (ownOrder ((canonicalizeEntries entries).insertionSort (keyBefore localeCompare)))

def canonicalizeList : List JsVal → List JsVal
  | [] => []
  | value :: rest => canonicalize value :: canonicalizeList rest

def canonicalizeEntries : List (String × JsVal) → List (String × JsVal)
  | [] => []
  | (key, value) :: rest => (key, canonicalize value) :: canonicalizeEntries rest
end

variable (localeCompare) in
/-- `JSON.stringify(canonicalize(value))` -/
def planBytes (value : JsVal) : JsVal :=
  if value = .undefined then .undefined else (canonicalize localeCompare value).toJson

theorem canonicalize_undefined : canonicalize localeCompare value = .undefined ↔ value = .undefined := by
  cases value <;> simp [canonicalize]

mutual
theorem toJson_canonicalize [Std.TransCmp localeCompare] : (value : JsVal) →
    (canonicalize localeCompare value).toJson = canonicalValue localeCompare value.toJson
  | .undefined | .null | .bool _ | .num _ | .str _ => by simp [canonicalize, canonicalValue, toJson]
  | .arr values => by
    simp only [canonicalize, canonicalValue, toJson]
    rw [toJson_canonicalizeList values]
  | .obj entries => by
    simp only [canonicalize, canonicalValue, toJson]
    rw [toJsonEntries_rebuilt, toJson_canonicalizeEntries entries]

theorem toJson_canonicalizeList [Std.TransCmp localeCompare] : (values : List JsVal) →
    toJsonList (canonicalizeList localeCompare values) = canonicalList localeCompare (toJsonList values)
  | [] => rfl
  | value :: rest => by
    simp only [canonicalizeList, canonicalList, toJsonList]
    rw [toJson_canonicalize value, toJson_canonicalizeList rest]

theorem toJson_canonicalizeEntries [Std.TransCmp localeCompare] : (entries : List (String × JsVal)) →
    toJsonEntries (canonicalizeEntries localeCompare entries) = canonicalEntries localeCompare (toJsonEntries entries)
  | [] => rfl
  | (key, value) :: rest => by
    by_cases absent : value = .undefined
    · rw [canonicalizeEntries, toJsonEntries, if_pos (canonicalize_undefined.mpr absent), toJsonEntries,
        if_pos absent, toJson_canonicalizeEntries rest]
    · rw [canonicalizeEntries, toJsonEntries, if_neg (fun gone => absent (canonicalize_undefined.mp gone)),
        toJsonEntries, if_neg absent, canonicalEntries, if_neg (toJson_ne_undefined value),
        toJson_canonicalize value, toJson_canonicalizeEntries rest]
end

theorem planBytes_eq [Std.TransCmp localeCompare] (value : JsVal) :
    planBytes localeCompare value = canonicalBytes localeCompare value := by
  by_cases absent : value = .undefined
  · rw [planBytes, canonicalBytes, if_pos absent, if_pos absent]
  · rw [planBytes, canonicalBytes, if_neg absent, if_neg absent, toJson_canonicalize, toJson_canonicalValue]

/-! ## Values without ties -/

variable (localeCompare) in
/-- No two different keys tie; array indices never do, for an object orders them itself. -/
def TieFree (keys : List String) : Prop :=
  ∀ left ∈ keys, ∀ right ∈ keys, arrayIndex left = none → arrayIndex right = none →
    localeCompare left right = .eq → left = right

variable (localeCompare) in
mutual
/-- No object has two keys that tie, at any depth. -/
def Untied : JsVal → Prop
  | .arr values => UntiedElements values
  | .obj entries => TieFree localeCompare (entries.map Prod.fst) ∧ UntiedMembers entries
  | .undefined | .null | .bool _ | .num _ | .str _ => True

def UntiedElements : List JsVal → Prop
  | [] => True
  | value :: rest => Untied value ∧ UntiedElements rest

def UntiedMembers : List (String × JsVal) → Prop
  | [] => True
  | (_, value) :: rest => Untied value ∧ UntiedMembers rest
end

theorem canonicalEntries_keys (entries : List (String × JsVal)) :
    List.Sublist ((canonicalEntries localeCompare entries).map Prod.fst) (entries.map Prod.fst) := by
  induction entries with
  | nil => exact List.Sublist.refl _
  | cons entry entries ih =>
    obtain ⟨key, value⟩ := entry
    rw [canonicalEntries]
    split
    · exact ih.cons key
    · exact ih.cons_cons key

variable {left right : List (String × JsVal)}

theorem rebuilt_eq [Std.TransCmp localeCompare]
    (distinct : (left.map Prod.fst).Nodup) (untied : TieFree localeCompare (left.map Prod.fst))
    (perm : left.Perm right) : ownOrder (left.insertionSort (keyBefore localeCompare)) =
      ownOrder (right.insertionSort (keyBefore localeCompare)) := by
  have perms : ∀ entries : List (String × JsVal),
      (ownOrder (entries.insertionSort (keyBefore localeCompare))).Perm entries := fun entries =>
    (ownOrder_perm _).trans (List.perm_insertionSort _ entries)
  -- Both follow one order: the object's own, and among its ties the order of the sort.
  have sorted : ∀ entries : List (String × JsVal), entries.Nodup →
      (ownOrder (entries.insertionSort (keyBefore localeCompare))).Pairwise fun x y =>
        memberBefore x y ∧ (memberBefore y x → x ≠ y → keyBefore localeCompare x y) := by
    intro entries distinctEntries
    refine List.pairwise_iff_forall_sublist.mpr fun {x y} pair => ?_
    have own : memberBefore x y :=
      List.pairwise_iff_forall_sublist.mp (List.pairwise_insertionSort memberBefore _) pair
    refine ⟨own, fun backward differ => ?_⟩
    have distinctSorted : (entries.insertionSort (keyBefore localeCompare)).Nodup :=
      (List.perm_insertionSort _ entries).nodup_iff.mpr distinctEntries
    have inside := (pair_sublist_sort_iff distinctSorted differ own backward).mp pair
    exact List.pairwise_iff_forall_sublist.mp (List.pairwise_insertionSort (keyBefore localeCompare) entries) inside
  have distinctLeft : left.Nodup := List.Nodup.of_map Prod.fst distinct
  refine ((perms left).trans (perm.trans (perms right).symm)).eq_of_pairwise ?_ (sorted left distinctLeft)
    (sorted right (perm.nodup_iff.mp distinctLeft))
  rintro x y memberX memberY ⟨ownForward, forward⟩ ⟨ownBackward, backward⟩
  by_contra differ
  have heldX : x ∈ left := (perms left).mem_iff.mp memberX
  have heldY : y ∈ left := perm.mem_iff.mpr ((perms right).mem_iff.mp memberY)
  have keysDiffer : x.1 ≠ y.1 := fun same => differ (List.inj_on_of_nodup_map distinct heldX heldY same)
  obtain ⟨plainX, plainY⟩ := arrayIndex_of_tie keysDiffer ownForward ownBackward
  have tie := tied_of_keyBefore (forward ownBackward differ) (backward ownForward fun same => differ same.symm)
  exact keysDiffer (untied x.1 (List.mem_map_of_mem heldX) y.1 (List.mem_map_of_mem heldY) plainX plainY tie)

theorem canonicalEntries_perm (perm : left.Perm right) :
    (canonicalEntries localeCompare left).Perm (canonicalEntries localeCompare right) := by
  induction perm with
  | nil => exact List.Perm.refl _
  | cons entry _ ih =>
    obtain ⟨key, value⟩ := entry
    simp only [canonicalEntries]
    split
    · exact ih
    · exact ih.cons _
  | swap first second rest =>
    obtain ⟨key, value⟩ := first
    obtain ⟨other, otherValue⟩ := second
    simp only [canonicalEntries]
    split
    · exact List.Perm.refl _
    · split
      · exact List.Perm.refl _
      · exact List.Perm.swap _ _ _
  | trans _ _ first second => exact first.trans second

mutual
theorem canonicalValue_eq_of_same [Std.TransCmp localeCompare] : (left right : JsVal) → JsonValue left →
    Untied localeCompare left → SameUpToKeyOrder left right →
    canonicalValue localeCompare left = canonicalValue localeCompare right
  | .undefined, _, _, _, .atom _ | .null, _, _, _, .atom _ | .bool _, _, _, _, .atom _ | .num _, _, _, _, .atom _
  | .str _, _, _, _, .atom _ => rfl
  | .arr values, _, json, untied, .arr elements => by
    simp only [canonicalValue]
    rw [canonicalList_eq_of_same values _ json untied elements]
  | .obj entries, _, json, untied, .obj order members => by
    simp only [canonicalValue]
    rw [rebuilt_eq (json.1.sublist (canonicalEntries_keys entries))
      (fun left inLeft right inRight => untied.1 left ((canonicalEntries_keys entries).subset inLeft) right
        ((canonicalEntries_keys entries).subset inRight))
      (canonicalEntries_eq_of_same entries _ json.2.2 untied.2 members ▸ canonicalEntries_perm order)]

theorem canonicalList_eq_of_same [Std.TransCmp localeCompare] : (left right : List JsVal) → JsonElements left →
    UntiedElements localeCompare left → SameElements left right →
    canonicalList localeCompare left = canonicalList localeCompare right
  | _, _, _, _, .nil => rfl
  | value :: left, other :: right, json, untied, .cons first rest => by
    simp only [canonicalList]
    rw [canonicalValue_eq_of_same value other json.1 untied.1 first,
      canonicalList_eq_of_same left right json.2 untied.2 rest]

theorem canonicalEntries_eq_of_same [Std.TransCmp localeCompare] : (left right : List (String × JsVal)) →
    JsonMembers left → UntiedMembers localeCompare left → SameMembers left right →
    canonicalEntries localeCompare left = canonicalEntries localeCompare right
  | _, _, _, _, .nil => rfl
  | (key, value) :: left, (_, other) :: right, json, untied, .cons first rest => by
    have later := canonicalEntries_eq_of_same left right json.2 untied.2 rest
    by_cases absent : value = .undefined
    · subst absent
      cases first
      rw [canonicalEntries, if_pos rfl, canonicalEntries, if_pos rfl, later]
    · have otherDefined : other ≠ .undefined := by
        rintro rfl
        cases first
        exact absent rfl
      rw [canonicalEntries, if_neg absent, canonicalEntries, if_neg otherDefined, later,
        canonicalValue_eq_of_same value other (json.1.resolve_left absent) untied.1 first]
end

/-! ## Values with ties -/

mutual
theorem SameUpToKeyOrder.refl : (value : JsVal) → SameUpToKeyOrder value value
  | .undefined | .null | .bool _ | .num _ | .str _ => .atom rfl
  | .arr values => .arr (SameElements.refl values)
  | .obj entries => .obj (List.Perm.refl _) (SameMembers.refl entries)

theorem SameElements.refl : (values : List JsVal) → SameElements values values
  | [] => .nil
  | value :: rest => .cons (SameUpToKeyOrder.refl value) (SameElements.refl rest)

theorem SameMembers.refl : (entries : List (String × JsVal)) → SameMembers entries entries
  | [] => .nil
  | (_, value) :: rest => .cons (SameUpToKeyOrder.refl value) (SameMembers.refl rest)
end

theorem eq_of_perm_keys (distinct : (left.map Prod.fst).Nodup)
    (keys : right.map Prod.fst = left.map Prod.fst) (perm : left.Perm right) : left = right := by
  induction left generalizing right with
  | nil => exact perm.nil_eq
  | cons entry left ih =>
    cases right with
    | nil => cases perm.eq_nil
    | cons other right =>
      obtain ⟨sameKey, restKeys⟩ := List.cons.inj keys
      obtain ⟨fresh, distinctRest⟩ := List.nodup_cons.mp distinct
      cases List.mem_cons.mp (perm.subset List.mem_cons_self) with
      | inl same =>
        subst same
        rw [ih distinctRest restKeys perm.cons_inv]
      | inr later =>
        have held : entry.1 ∈ right.map Prod.fst := List.mem_map_of_mem later
        exact absurd (restKeys ▸ held) fresh

theorem rebuilt_keeps_tie [Std.TransCmp localeCompare] {x y : String × JsVal}
    (distinct : entries.Nodup) (differ : x ≠ y) (plainX : arrayIndex x.1 = none) (plainY : arrayIndex y.1 = none)
    (tie : localeCompare x.1 y.1 = .eq) (pair : List.Sublist [x, y] entries) :
    List.Sublist [x, y] (ownOrder (entries.insertionSort (keyBefore localeCompare))) := by
  have backTie : localeCompare y.1 x.1 = .eq := Std.OrientedCmp.eq_symm tie
  have distinctSorted : (entries.insertionSort (keyBefore localeCompare)).Nodup :=
    (List.perm_insertionSort _ entries).nodup_iff.mpr distinct
  refine (pair_sublist_sort_iff distinctSorted differ ?_ ?_).mpr
    ((pair_sublist_sort_iff distinct differ ?_ ?_).mpr pair)
  · simp [memberBefore, plainX, plainY, indexBefore]
  · simp [memberBefore, plainX, plainY, indexBefore]
  · simp [keyBefore, tie, Ordering.isLE]
  · simp [keyBefore, backTie, Ordering.isLE]

structure Apart (localeCompare : String → String → Ordering) (value other : JsVal) : Prop where
  json : JsonValue other
  serialised : other.toJson = other
  same : SameUpToKeyOrder value other
  texts : canonicalValue localeCompare value ≠ canonicalValue localeCompare other

theorem tied_keys_apart [Std.TransCmp localeCompare]
    (json : JsonValue (.obj entries)) (serialised : toJsonEntries entries = entries) {x y : String × JsVal}
    (pair : List.Sublist [x, y] entries) (differ : x.1 ≠ y.1) (plainX : arrayIndex x.1 = none)
    (plainY : arrayIndex y.1 = none) (tie : localeCompare x.1 y.1 = .eq) :
    Apart localeCompare (.obj entries) (.obj (ownOrder entries.reverse)) := by
  obtain ⟨distinct, _, members⟩ := json
  have perm : (ownOrder entries.reverse).Perm entries := (ownOrder_perm _).trans (List.reverse_perm entries)
  have distinctEntries : entries.Nodup := List.Nodup.of_map Prod.fst distinct
  have entriesDiffer : x ≠ y := fun same => differ (congrArg Prod.fst same)
  have swapped : List.Sublist [y, x] (ownOrder entries.reverse) := by
    refine (pair_sublist_sort_iff (List.nodup_reverse.mpr distinctEntries) entriesDiffer.symm ?_ ?_).mpr
      (List.reverse_sublist.mpr pair)
    · simp [plainX, plainY, memberBefore, indexBefore]
    · simp [plainX, plainY, memberBefore, indexBefore]
  have defined : ∀ entry ∈ entries, entry.2 ≠ .undefined := fun entry member =>
    (serialised_of_toJsonEntries serialised entry member).1
  constructor
  · exact ⟨(perm.map Prod.fst).nodup_iff.mpr distinct, List.pairwise_insertionSort memberBefore _,
      jsonMembers_iff.mpr fun entry member => jsonMembers_iff.mp members entry (perm.mem_iff.mp member)⟩
  · simp only [toJson]
    rw [toJsonEntries_self fun entry member =>
      serialised_of_toJsonEntries serialised entry (perm.mem_iff.mp member)]
  · exact .obj perm.symm (SameMembers.refl entries)
  · intro same
    simp only [canonicalValue, JsVal.obj.injEq] at same
    rw [canonicalEntries_eq_map localeCompare defined, canonicalEntries_eq_map localeCompare
      fun entry member => defined entry (perm.mem_iff.mp member)] at same
    have keysOf : ∀ list : List (String × JsVal),
        (list.map fun entry => (entry.1, canonicalValue localeCompare entry.2)).map Prod.fst = list.map Prod.fst := by
      intro list
      rw [List.map_map]
      rfl
    have distinctForms : (entries.map fun entry => (entry.1, canonicalValue localeCompare entry.2)).Nodup :=
      List.Nodup.of_map Prod.fst (by rw [keysOf]; exact distinct)
    have formsDiffer : (x.1, canonicalValue localeCompare x.2) ≠ (y.1, canonicalValue localeCompare y.2) :=
      fun equal => differ (Prod.mk.inj equal).1
    have forward := rebuilt_keeps_tie distinctForms formsDiffer plainX plainY tie
      (pair.map fun entry : String × JsVal => (entry.1, canonicalValue localeCompare entry.2))
    have backward := rebuilt_keeps_tie
      ((perm.map fun entry : String × JsVal => (entry.1, canonicalValue localeCompare entry.2)).nodup_iff.mpr distinctForms)
      formsDiffer.symm plainY plainX (Std.OrientedCmp.eq_symm tie)
      (swapped.map fun entry : String × JsVal => (entry.1, canonicalValue localeCompare entry.2))
    rw [← same] at backward
    refine not_pair_swap ?_ forward backward
    exact ((ownOrder_perm _).trans (List.perm_insertionSort _ _)).nodup_iff.mpr distinctForms

theorem apart_of_members [Std.TransCmp localeCompare] {entries others : List (String × JsVal)}
    (json : JsonValue (.obj entries)) (serialised : toJsonEntries entries = entries)
    (keys : others.map Prod.fst = entries.map Prod.fst) (members : JsonMembers others)
    (othersSerialised : toJsonEntries others = others) (same : SameMembers entries others)
    (texts : canonicalEntries localeCompare entries ≠ canonicalEntries localeCompare others) :
    Apart localeCompare (.obj entries) (.obj others) := by
  obtain ⟨distinct, order, _⟩ := json
  constructor
  · refine ⟨keys ▸ distinct, ?_, members⟩
    have ordered : (entries.map Prod.fst).Pairwise fun left right =>
        indexBefore (arrayIndex left) (arrayIndex right) = true := List.pairwise_map.mpr order
    rw [← keys, List.pairwise_map] at ordered
    exact ordered
  · simp only [toJson, othersSerialised]
  · exact .obj (List.Perm.refl _) same
  · intro rebuilt
    simp only [canonicalValue, JsVal.obj.injEq] at rebuilt
    have perms : ∀ list : List (String × JsVal),
        (ownOrder (list.insertionSort (keyBefore localeCompare))).Perm list := fun list =>
      (ownOrder_perm _).trans (List.perm_insertionSort _ list)
    have perm : (canonicalEntries localeCompare entries).Perm (canonicalEntries localeCompare others) :=
      (perms _).symm.trans (rebuilt ▸ perms _)
    have keysOf : ∀ list : List (String × JsVal), toJsonEntries list = list →
        (canonicalEntries localeCompare list).map Prod.fst = list.map Prod.fst := by
      intro list json
      rw [canonicalEntries_eq_map localeCompare fun entry member => (serialised_of_toJsonEntries json entry member).1,
        List.map_map]
      rfl
    refine texts (eq_of_perm_keys ?_ ?_ perm)
    · rw [keysOf entries serialised]
      exact distinct
    · rw [keysOf entries serialised, keysOf others othersSerialised, keys]

mutual
theorem tied_apart [Std.TransCmp localeCompare] : (value : JsVal) → JsonValue value → value.toJson = value →
    ¬ Untied localeCompare value → ∃ other, Apart localeCompare value other
  | .undefined, _, _, tied | .null, _, _, tied | .bool _, _, _, tied | .num _, _, _, tied
  | .str _, _, _, tied => absurd trivial tied
  | .arr values, json, serialised, tied => by
    obtain ⟨others, elements, othersSerialised, same, texts⟩ :=
      tied_elements_apart values json (JsVal.arr.inj serialised) tied
    refine ⟨.arr others, elements, ?_, .arr same, fun equal => texts (JsVal.arr.inj equal)⟩
    simp only [toJson, othersSerialised]
  | .obj entries, json, serialised, tied => by
    by_cases free : TieFree localeCompare (entries.map Prod.fst)
    · -- The tie is inside a member.
      obtain ⟨others, keys, members, othersSerialised, same, texts⟩ :=
        tied_members_apart entries json.2.2 (JsVal.obj.inj serialised) fun untied => tied ⟨free, untied⟩
      exact ⟨.obj others, apart_of_members json (JsVal.obj.inj serialised) keys members othersSerialised same texts⟩
    · -- Two keys of the object itself tie.
      simp only [TieFree, not_forall, List.mem_map] at free
      obtain ⟨_, ⟨x, memberX, rfl⟩, _, ⟨y, memberY, rfl⟩, plainX, plainY, tie, differ⟩ := free
      have entriesDiffer : x ≠ y := fun same => differ (congrArg Prod.fst same)
      cases pair_or_pair memberX memberY entriesDiffer with
      | inl pair => exact ⟨_, tied_keys_apart json (JsVal.obj.inj serialised) pair differ plainX plainY tie⟩
      | inr pair =>
        exact ⟨_, tied_keys_apart json (JsVal.obj.inj serialised) pair (Ne.symm differ) plainY plainX
          (Std.OrientedCmp.eq_symm tie)⟩

theorem tied_elements_apart [Std.TransCmp localeCompare] : (values : List JsVal) → JsonElements values →
    toJsonList values = values → ¬ UntiedElements localeCompare values →
    ∃ others, JsonElements others ∧ toJsonList others = others ∧ SameElements values others ∧
      canonicalList localeCompare values ≠ canonicalList localeCompare others
  | [], _, _, tied => absurd trivial tied
  | value :: rest, json, serialised, tied => by
    obtain ⟨first, later⟩ := List.cons.inj serialised
    by_cases untied : Untied localeCompare value
    · obtain ⟨others, elements, othersSerialised, same, texts⟩ :=
        tied_elements_apart rest json.2 later fun untiedRest => tied ⟨untied, untiedRest⟩
      refine ⟨value :: others, ⟨json.1, elements⟩, ?_, .cons (SameUpToKeyOrder.refl value) same,
        fun equal => texts (List.cons.inj equal).2⟩
      simp only [toJsonList, first, othersSerialised]
    · obtain ⟨other, apart⟩ := tied_apart value json.1 first untied
      refine ⟨other :: rest, ⟨apart.json, json.2⟩, ?_, .cons apart.same (SameElements.refl rest),
        fun equal => apart.texts (List.cons.inj equal).1⟩
      simp only [toJsonList, apart.serialised, later]

theorem tied_members_apart [Std.TransCmp localeCompare] : (entries : List (String × JsVal)) → JsonMembers entries →
    toJsonEntries entries = entries → ¬ UntiedMembers localeCompare entries →
    ∃ others, others.map Prod.fst = entries.map Prod.fst ∧ JsonMembers others ∧ toJsonEntries others = others ∧
      SameMembers entries others ∧ canonicalEntries localeCompare entries ≠ canonicalEntries localeCompare others
  | [], _, _, tied => absurd trivial tied
  | (key, value) :: rest, json, serialised, tied => by
    obtain ⟨defined, first⟩ := serialised_of_toJsonEntries serialised (key, value) List.mem_cons_self
    have later : toJsonEntries rest = rest := toJsonEntries_self fun entry member =>
      serialised_of_toJsonEntries serialised entry (List.mem_cons_of_mem _ member)
    by_cases untied : Untied localeCompare value
    · obtain ⟨others, keys, members, othersSerialised, same, texts⟩ :=
        tied_members_apart rest json.2 later fun untiedRest => tied ⟨untied, untiedRest⟩
      refine ⟨(key, value) :: others, by simp only [List.map_cons, keys], ⟨json.1, members⟩, ?_,
        .cons (SameUpToKeyOrder.refl value) same, fun equal => texts ?_⟩
      · rw [toJsonEntries, if_neg defined, first, othersSerialised]
      · rw [canonicalEntries, canonicalEntries, if_neg defined, if_neg defined] at equal
        exact (List.cons.inj equal).2
    · obtain ⟨other, apart⟩ := tied_apart value (json.1.resolve_left defined) first untied
      have otherDefined : other ≠ .undefined := by
        rintro rfl
        exact apart.json
      refine ⟨(key, other) :: rest, rfl, ⟨.inr apart.json, json.2⟩, ?_,
        .cons apart.same (SameMembers.refl rest), fun equal => apart.texts ?_⟩
      · rw [toJsonEntries, if_neg otherDefined, apart.serialised, later]
      · rw [canonicalEntries, canonicalEntries, if_neg defined, if_neg otherDefined] at equal
        exact (Prod.mk.inj (List.cons.inj equal).1).2
end

theorem canonicalBytes_exact_iff [Std.TransCmp localeCompare] (json : JsonValue value) : (∀ other, JsonValue other →
        (canonicalBytes localeCompare value = canonicalBytes localeCompare other ↔ SameJson value other)) ↔
      Untied localeCompare value.toJson := by
  have defined : ∀ {other : JsVal}, JsonValue other → other ≠ .undefined := by
    rintro _ held rfl
    exact held
  constructor
  · intro identifies
    by_contra tied
    obtain ⟨other, apart⟩ := tied_apart value.toJson json.toJson (toJson_toJson value) tied
    have same : SameJson value other := by
      rw [SameJson, apart.serialised]
      exact apart.same
    have texts := (identifies other apart.json).mpr same
    rw [canonicalBytes_eq (defined json), canonicalBytes_eq (defined apart.json), apart.serialised] at texts
    exact apart.texts texts
  · intro untied other jsonOther
    rw [canonicalBytes_eq (defined json), canonicalBytes_eq (defined jsonOther)]
    exact ⟨same_of_canonicalValue _ _ (toJson_toJson value) (toJson_toJson other),
      canonicalValue_eq_of_same _ _ json.toJson untied⟩

end

end Advance.JavaScript
