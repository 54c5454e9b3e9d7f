import Advance.Archive.ContentEquality
import Advance.JavaScript.CanonicalForm

/-! # Command payloads

The text a command is hashed by: its payload without the members that tell one delivery
from another, with the keys of its objects in order.
-/

namespace Advance.Utils

open Advance.Archive Advance.JavaScript

/-! ## The text of a value -/

/-- The order of `Object.keys(record).sort()`. -/
def memberOrder (left right : String × JsVal) : Prop := unitsBefore left.1 right.1

instance : DecidableRel memberOrder := fun left right => inferInstanceAs (Decidable (unitsBefore left.1 right.1))

mutual
/-- `stableJson`, as the value its text spells; `undefined` has no text. -/
def stableValue : JsVal → JsVal
  | .arr values => .arr (stableElements values)
  | .obj entries => .obj ((stableEntries entries).insertionSort memberOrder)
  | value => value

def stableElements : List JsVal → List JsVal
  | [] => []
  | value :: rest => (if value = .undefined then .null else stableValue value) :: stableElements rest

def stableEntries : List (String × JsVal) → List (String × JsVal)
  | [] => []
  | (key, value) :: rest =>
    if value = .undefined then stableEntries rest else (key, stableValue value) :: stableEntries rest
end

/-! ## The payload of a command -/

def transportOnlyCommandPaths : List String :=
  ["updatedAt", "addedAt", "cancelledAt", "completedAt", "reenteredAt", "modifiedAt", "amendedAt", "retractedAt",
    "removedAt", "renamedAt", "task.created_at", "entry.recorded_at"]

def commandEnvelopeKeys : List String := ["operation_id", "command_kind", "payload_hash", "mutationReceiptId"]

/-- The members that do not reach `out`: those the loop passes over, and `__proto__`, since an assignment to it
    adds none. -/
def lost (path : List String) (key : String) : Bool :=
  transportOnlyCommandPaths.contains (".".intercalate (path ++ [key])) || commandEnvelopeKeys.contains key ||
    decide (key = "__proto__")

/-- The order an object that is built from members lists them in. -/
structure Listing where
  list : List (String × JsVal) → List (String × JsVal)
  perm : ∀ members, (list members).Perm members

section

variable (listing : Listing) (drops : List String → String → Bool)

mutual
/-- A value without the members that `drops` names. The elements of an array stand at the path of the array. -/
def rebuild (path : List String) : JsVal → JsVal
  | .arr values => .arr (rebuildElements path values)
  | .obj entries => .obj (listing.list (rebuildEntries path entries))
  | value => value

def rebuildElements (path : List String) : List JsVal → List JsVal
  | [] => []
  | value :: rest => rebuild path value :: rebuildElements path rest

def rebuildEntries (path : List String) : List (String × JsVal) → List (String × JsVal)
  | [] => []
  | (key, value) :: rest =>
    if drops path key then rebuildEntries path rest
    else (key, rebuild (path ++ [key]) value) :: rebuildEntries path rest
end

end

theorem out_perm (members : List (String × JsVal)) : (ownOrder (members.insertionSort memberOrder)).Perm members :=
  (ownOrder_perm _).trans (List.perm_insertionSort memberOrder members)

/-- The members of `out`, to which they are added by their keys in order. -/
def listOut : Listing := ⟨fun members => ownOrder (members.insertionSort memberOrder), out_perm⟩

def sanitizeForCommandHash (path : List String) (value : JsVal) : JsVal := rebuild listOut lost path value

def canonicalCommandPayloadString (payload : JsVal) : JsVal :=
  let sanitized := sanitizeForCommandHash [] payload
  if sanitized = .undefined then .null else stableValue sanitized

/-! ## What counts -/

/-- The members the transport adds, each by the keys that lead to it. -/
def documentedPaths : List (List String) :=
  [["updatedAt"], ["addedAt"], ["cancelledAt"], ["completedAt"], ["reenteredAt"], ["modifiedAt"], ["amendedAt"],
    ["retractedAt"], ["removedAt"], ["renamedAt"], ["task", "created_at"], ["entry", "recorded_at"]]

/-- A transport-only path, or a key of the envelope around the command. -/
def documented (path : List String) (key : String) : Bool :=
  documentedPaths.contains (path ++ [key]) || (path.isEmpty && commandEnvelopeKeys.contains key)

def inPlace : Listing := ⟨id, List.Perm.refl⟩

/-- The same JSON value besides the members that `drops` names, the order of keys aside. -/
def SameBesides (drops : List String → String → Bool) (left right : JsVal) : Prop :=
  SameUpToKeyOrder (rebuild inPlace drops [] left) (rebuild inPlace drops [] right)

/-- JSON data: nothing is `undefined` and no object has a key twice. -/
inductive IsJson : JsVal → Prop
  | atom {value : JsVal} (atomic : value.isAtom = true) (defined : value ≠ .undefined) : IsJson value
  | arr {values : List JsVal} (elements : ∀ value ∈ values, IsJson value) : IsJson (.arr values)
  | obj {entries : List (String × JsVal)} (distinct : (entries.map Prod.fst).Nodup)
    (members : ∀ entry ∈ entries, IsJson entry.2) : IsJson (.obj entries)

abbrev CommandPayload := { payload : JsVal // IsJson payload }

/-! ## Members one by one -/

variable {listing : Listing} {drops : List String → String → Bool} {path : List String} {value : JsVal}
  {values : List JsVal} {entries others : List (String × JsVal)}

theorem IsJson.defined (json : IsJson value) : value ≠ .undefined := by
  rintro rfl
  cases json with
  | atom _ defined => exact defined rfl

theorem stableElements_eq (json : ∀ value ∈ values, IsJson value) :
    stableElements values = values.map stableValue := by
  induction values with
  | nil => rfl
  | cons value rest ih =>
    obtain ⟨first, later⟩ := List.forall_mem_cons.mp json
    rw [stableElements, if_neg first.defined, ih later, List.map_cons]

theorem stableEntries_eq (json : ∀ entry ∈ entries, IsJson entry.2) :
    stableEntries entries = entries.map fun entry => (entry.1, stableValue entry.2) := by
  induction entries with
  | nil => rfl
  | cons entry rest ih =>
    obtain ⟨first, later⟩ := List.forall_mem_cons.mp json
    rw [stableEntries, if_neg first.defined, ih later, List.map_cons]

theorem rebuildElements_eq : rebuildElements listing drops path values = values.map (rebuild listing drops path) := by
  induction values with
  | nil => rfl
  | cons value rest ih => rw [rebuildElements, ih, List.map_cons]

theorem rebuildEntries_eq : rebuildEntries listing drops path entries =
    (entries.filter fun entry => !drops path entry.1).map fun entry =>
      (entry.1, rebuild listing drops (path ++ [entry.1]) entry.2) := by
  induction entries with
  | nil => rfl
  | cons entry rest ih =>
    rw [rebuildEntries, ih]
    cases named : drops path entry.1 <;> simp [named]

theorem rebuild_atom (atomic : value.isAtom = true) : rebuild listing drops path value = value := by
  cases value <;> first | rfl | cases atomic

theorem stableValue_atom (atomic : value.isAtom = true) : stableValue value = value := by
  cases value <;> first | rfl | cases atomic

theorem IsJson.rebuild (json : IsJson value) (path : List String) : IsJson (rebuild listing drops path value) := by
  induction json generalizing path with
  | atom atomic defined =>
    rw [rebuild_atom atomic]
    exact .atom atomic defined
  | arr _ ih =>
    rw [Utils.rebuild, rebuildElements_eq]
    exact .arr (List.forall_mem_map.mpr fun value member => ih value member path)
  | @obj entries distinct _ ih =>
    rw [Utils.rebuild]
    refine .obj (((listing.perm _).map Prod.fst).nodup_iff.mpr ?_) fun entry member => ?_
    · rw [rebuildEntries_eq, List.map_map]
      exact distinct.sublist (List.filter_sublist.map Prod.fst)
    · rw [(listing.perm _).mem_iff, rebuildEntries_eq] at member
      obtain ⟨source, stands, rfl⟩ := List.mem_map.mp member
      exact ih source (List.mem_of_mem_filter stands) _

/-! ## One text -/

theorem sorted_iff (distinct : (entries.map Prod.fst).Nodup) :
    entries.insertionSort memberOrder = others.insertionSort memberOrder ↔ entries.Perm others := by
  have total : Std.Total memberOrder := ⟨fun left right => unitsBefore_total.total left.1 right.1⟩
  have trans : IsTrans (String × JsVal) memberOrder := ⟨fun _ _ _ => unitsBefore_trans.trans _ _ _⟩
  constructor
  · intro same
    exact (List.perm_insertionSort memberOrder entries).symm.trans (same ▸ List.perm_insertionSort memberOrder others)
  · intro perm
    refine ((List.perm_insertionSort _ _).trans (perm.trans (List.perm_insertionSort _ _).symm)).eq_of_pairwise
      (fun left right inLeft inRight forward backward => ?_)
      (List.pairwise_insertionSort _ _) (List.pairwise_insertionSort _ _)
    -- Two members that tie have one key, which stands once.
    rw [List.mem_insertionSort] at inLeft inRight
    exact List.inj_on_of_nodup_map distinct inLeft (perm.mem_iff.mpr inRight)
      (unitsBefore_antisymm.antisymm _ _ forward backward)

theorem sameElements_iff : (left right : List JsVal) → (∀ value ∈ left, ∀ other ∈ right,
      stableValue value = stableValue other ↔ SameUpToKeyOrder value other) →
    (left.map stableValue = right.map stableValue ↔ SameElements left right)
  | [], [], _ => iff_of_true rfl .nil
  | [], _ :: _, _ | _ :: _, [], _ => iff_of_false nofun nofun
  | value :: left, other :: right, alike => by
    have first := alike value List.mem_cons_self other List.mem_cons_self
    have rest := sameElements_iff left right fun value member other stands =>
      alike value (List.mem_cons_of_mem _ member) other (List.mem_cons_of_mem _ stands)
    rw [List.map_cons, List.map_cons, List.cons.injEq, first, rest]
    exact ⟨fun ⟨same, later⟩ => .cons same later, fun | .cons same later => ⟨same, later⟩⟩

theorem sameMembers_iff : (left right : List (String × JsVal)) → (∀ entry ∈ left, ∀ other ∈ right,
      stableValue entry.2 = stableValue other.2 ↔ SameUpToKeyOrder entry.2 other.2) →
    ((left.map fun entry => (entry.1, stableValue entry.2)) =
      (right.map fun entry => (entry.1, stableValue entry.2)) ↔ SameMembers left right)
  | [], [], _ => iff_of_true rfl .nil
  | [], _ :: _, _ | _ :: _, [], _ => iff_of_false nofun nofun
  | (key, value) :: left, (name, held) :: right, alike => by
    have first := alike (key, value) List.mem_cons_self (name, held) List.mem_cons_self
    have rest := sameMembers_iff left right fun entry member other stands =>
      alike entry (List.mem_cons_of_mem _ member) other (List.mem_cons_of_mem _ stands)
    rw [List.map_cons, List.map_cons, List.cons.injEq, Prod.mk.injEq, first, rest]
    exact ⟨fun ⟨⟨same, value⟩, later⟩ => by cases same; exact .cons value later,
      fun | .cons value later => ⟨⟨rfl, value⟩, later⟩⟩

/-- JSON values have one text just when they are the same up to the order of keys. -/
theorem stableValue_iff {left right : JsVal} (json : IsJson left) (other : IsJson right) :
    stableValue left = stableValue right ↔ SameUpToKeyOrder left right := by
  induction json generalizing right with
  | atom atomic =>
    rw [stableValue_atom atomic]
    constructor
    · intro same
      cases right with
      | arr | obj =>
        rw [same] at atomic
        cases atomic
      | _ => exact same ▸ .atom rfl
    · rintro ⟨⟩
      · exact (stableValue_atom atomic).symm
      all_goals cases atomic
  | @arr values elements ih =>
    cases right with
    | arr others =>
      cases other with
      | atom single => cases single
      | arr held =>
        rw [stableValue, stableValue, JsVal.arr.injEq, stableElements_eq elements, stableElements_eq held,
          sameElements_iff values others fun value member other stands => ih value member (held other stands)]
        exact ⟨.arr, fun | .arr same => same⟩
    | _ => exact iff_of_false nofun nofun
  | @obj entries distinct members ih =>
    cases right with
    | obj others =>
      cases other with
      | atom single => cases single
      | obj _ held =>
        have keys : ((entries.map fun entry => (entry.1, stableValue entry.2)).map Prod.fst).Nodup := by
          simpa [Function.comp_def] using distinct
        have texts : ∀ {arranged : List (String × JsVal)}, arranged.Perm others → _ := fun {arranged} order =>
          sameMembers_iff entries arranged fun entry member other stands =>
            ih entry member (held other (order.subset stands))
        rw [stableValue, stableValue, JsVal.obj.injEq, stableEntries_eq members, stableEntries_eq held, sorted_iff keys]
        constructor
        · intro perm
          -- The permutation of the members' texts comes from one of the members.
          obtain ⟨arranged, mapped, order⟩ := (congrFun (congrFun (List.eq_map_comp_perm
            fun entry : String × JsVal => (entry.1, stableValue entry.2)) _) _).mpr perm
          exact .obj order ((texts order).mp mapped)
        · intro same
          cases same with
          | atom single => cases single
          | obj order same =>
            rw [(texts order).mpr same]
            exact order.map _
    | _ => exact iff_of_false nofun nofun

/-! ## What is lost -/

mutual
theorem same_rebuild : {left right : JsVal} → SameUpToKeyOrder left right → (path : List String) →
    SameUpToKeyOrder (rebuild inPlace drops path left) (rebuild listing drops path right)
  | _, _, .atom atomic, path => by
    rw [rebuild_atom atomic, rebuild_atom atomic]
    exact .atom atomic
  | _, _, .arr elements, path => .arr (sameElements_rebuild elements path)
  | _, _, .obj order members, path => by
    refine .obj (List.Perm.trans ?_ (listing.perm _).symm) (sameMembers_rebuild members path)
    rw [rebuildEntries_eq, rebuildEntries_eq]
    exact (order.filter _).map _

theorem sameElements_rebuild : {left right : List JsVal} → SameElements left right → (path : List String) →
    SameElements (rebuildElements inPlace drops path left) (rebuildElements listing drops path right)
  | _, _, .nil, _ => .nil
  | _, _, .cons first rest, path => .cons (same_rebuild first path) (sameElements_rebuild rest path)

theorem sameMembers_rebuild : {left right : List (String × JsVal)} → SameMembers left right → (path : List String) →
    SameMembers (rebuildEntries inPlace drops path left) (rebuildEntries listing drops path right)
  | _, _, .nil, _ => .nil
  | _, _, .cons first rest, path => by
    simp only [rebuildEntries]
    split
    · exact sameMembers_rebuild rest path
    · exact .cons (same_rebuild first _) (sameMembers_rebuild rest path)
end

theorem lost_of_documented {key : String} (named : documented path key = true) : lost path key = true := by
  have spelled : ∀ keys ∈ documentedPaths, transportOnlyCommandPaths.contains (".".intercalate keys) = true := by
    decide
  simp only [documented, Bool.or_eq_true, Bool.and_eq_true, List.contains_iff_mem] at named
  simp only [lost, Bool.or_eq_true]
  exact .inl (named.imp (spelled _) fun envelope => List.contains_iff_mem.mpr envelope.2)

theorem lost_after_documented (json : IsJson value) (path : List String) :
    rebuild inPlace lost path (rebuild inPlace documented path value) = rebuild inPlace lost path value := by
  induction json generalizing path with
  | atom atomic => rw [@rebuild_atom _ documented _ _ atomic]
  | arr _ ih =>
    simp only [rebuild, rebuildElements_eq, List.map_map]
    exact congrArg JsVal.arr (List.map_congr_left fun value member => ih value member path)
  | @obj entries _ _ ih =>
    have kept : ∀ entry : String × JsVal, (!lost path entry.1 && !documented path entry.1) = !lost path entry.1 := by
      intro entry
      cases named : documented path entry.1 with
      | false => simp
      | true => simp [lost_of_documented named]
    simp only [rebuild, inPlace, id, rebuildEntries_eq, List.filter_map, List.map_map, List.filter_filter,
      Function.comp_def, kept]
    exact congrArg JsVal.obj (List.map_congr_left fun entry member =>
      Prod.ext rfl (ih entry (List.mem_of_mem_filter member) _))

/-! ## The text separates what counts -/

theorem sameText_iff (p q : CommandPayload) :
    canonicalCommandPayloadString p.1 = canonicalCommandPayloadString q.1 ↔ SameBesides lost p.1 q.1 := by
  have text : ∀ payload : CommandPayload,
      canonicalCommandPayloadString payload.1 = stableValue (rebuild inPlace lost [] payload.1) := by
    rintro ⟨payload, json⟩
    have sanitized : IsJson (sanitizeForCommandHash [] payload) := json.rebuild []
    exact (if_neg sanitized.defined).trans
      ((stableValue_iff (json.rebuild []) sanitized).mpr (same_rebuild (SameUpToKeyOrder.refl payload) [])).symm
  rw [text, text]
  exact stableValue_iff (p.2.rebuild []) (q.2.rebuild [])

/-- The text separates two payloads just by what counts unless they differ in undocumented lost members alone. -/
theorem separates_iff (p q : CommandPayload) :
    (canonicalCommandPayloadString p.1 = canonicalCommandPayloadString q.1 ↔ SameBesides documented p.1 q.1) ↔
      (SameBesides lost p.1 q.1 → SameBesides documented p.1 q.1) := by
  have more : SameBesides documented p.1 q.1 → SameBesides lost p.1 q.1 := fun same => by
    have both := @same_rebuild inPlace lost _ _ same []
    rwa [lost_after_documented p.2, lost_after_documented q.2] at both
  rw [sameText_iff]
  exact ⟨Iff.mp, fun apart => ⟨apart, more⟩⟩

/-! ## Fixed runs -/

theorem single_json {key : String} (json : IsJson value) : IsJson (.obj [(key, value)]) :=
  .obj (by simp) fun _ member => List.mem_singleton.mp member ▸ json

def nested (id : JsNumber) : CommandPayload :=
  ⟨.obj [("a", .obj [("operation_id", .num id)])], single_json (single_json (.atom rfl nofun))⟩

/-- The name of an envelope key inside the data of a command is not a key of the envelope. -/
theorem nested_envelope_merged : ¬ ∀ p q : CommandPayload,
    canonicalCommandPayloadString p.1 = canonicalCommandPayloadString q.1 ↔ SameBesides documented p.1 q.1 := by
  have kept : ∀ id, rebuild inPlace documented [] (nested id).1 = (nested id).1 := fun id => by
    simp [nested, rebuild, rebuildEntries, inPlace, documented, documentedPaths, commandEnvelopeKeys]
  intro separated
  have same := (separated (nested 1) (nested 2)).mp rfl
  rw [SameBesides, kept, kept] at same
  obtain ⟨inner, stands, alike⟩ := same.find (List.mem_singleton.mpr rfl)
  obtain ⟨-, rfl⟩ := Prod.mk.inj (List.mem_singleton.mp stands)
  obtain ⟨id, stands, alike⟩ := alike.find (List.mem_singleton.mpr rfl)
  obtain ⟨-, rfl⟩ := Prod.mk.inj (List.mem_singleton.mp stands)
  cases alike

end Advance.Utils
