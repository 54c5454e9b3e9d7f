import Advance.JavaScript.Value

/-! # Places in a document

A place is a path of members, by their key, and of list entries, by their `id`.  Two
places are apart when they part at two members or at two entries.
-/

namespace Advance.JavaScript

namespace JsVal

inductive PlaceStep where
  | member (key : String)
  | entry (id : String)
  deriving DecidableEq

abbrev Place := List PlaceStep

/-- `list.find((entry) => entry.id === id)`. -/
def entryById (id : String) (values : List JsVal) : Option JsVal :=
  values.find? fun value => value.get "id" = .str id

def PlaceStep.of (v : JsVal) : PlaceStep → JsVal
  | member key => v.get key
  | entry id => (entryById id v.elements).getD .undefined

def valueAt : Place → JsVal → JsVal
  | [], v => v
  | step :: rest, v => valueAt rest (step.of v)

def Apart : Place → Place → Prop
  | .member key :: place, .member other :: rest => key ≠ other ∨ Apart place rest
  | .entry id :: place, .entry other :: rest => id ≠ other ∨ Apart place rest
  | _, _ => False

def decideApart : (place other : Place) → Decidable (Apart place other)
  | .member key :: place, .member other :: rest =>
    have := decideApart place rest
    inferInstanceAs (Decidable (key ≠ other ∨ Apart place rest))
  | .entry id :: place, .entry other :: rest =>
    have := decideApart place rest
    inferInstanceAs (Decidable (id ≠ other ∨ Apart place rest))
  | [], _ => isFalse (by simp [Apart])
  | .member _ :: _, [] | .member _ :: _, .entry _ :: _ => isFalse (by simp [Apart])
  | .entry _ :: _, [] | .entry _ :: _, .member _ :: _ => isFalse (by simp [Apart])

instance (place other : Place) : Decidable (Apart place other) := decideApart place other

/-- Everything apart from the places is in `after` as it was in `before`. -/
def Framed (places : List Place) (before after : JsVal) : Prop :=
  ∀ place, (∀ touched ∈ places, Apart touched place) → valueAt place after = valueAt place before

/-- Change the first element with an id. -/
def updateEntry (id : String) (update : JsVal → JsVal) : List JsVal → List JsVal
  | [] => []
  | value :: rest =>
    if value.get "id" = .str id then update value :: rest else value :: updateEntry id update rest

/-! ## Places -/

theorem apart_symm {place other : Place} (apart : Apart place other) : Apart other place := by
  induction place generalizing other with
  | nil => cases apart
  | cons step place ih =>
    cases other with
    | nil => cases step <;> cases apart
    | cons otherStep other =>
      cases step <;> cases otherStep
      case member.member => exact apart.imp Ne.symm ih
      case entry.entry => exact apart.imp Ne.symm ih
      all_goals cases apart

@[simp] theorem not_apart_nil (place : Place) : ¬Apart place [] := by
  intro apart
  cases place with
  | nil => cases apart
  | cons step place => cases step <;> cases apart

theorem valueAt_undefined (place : Place) : valueAt place .undefined = .undefined := by
  induction place with
  | nil => rfl
  | cons step place ih => cases step <;> exact ih

variable {v : JsVal}

theorem valueAt_nullish (nullish : v.isNullish = true) (step : PlaceStep) (rest : Place) :
    valueAt (step :: rest) v = .undefined := by
  cases v with
  | undefined => exact valueAt_undefined (step :: rest)
  | null => cases step <;> exact valueAt_undefined rest
  | _ => cases nullish

theorem valueAt_empty (step : PlaceStep) (rest : Place) : valueAt (step :: rest) (.obj []) = .undefined := by
  cases step <;> exact valueAt_undefined rest

theorem valueAt_emptyList (step : PlaceStep) (rest : Place) : valueAt (step :: rest) (.arr []) = .undefined := by
  cases step <;> exact valueAt_undefined rest

/-! ## Frames -/

theorem Framed.refl (places : List Place) (v : JsVal) : Framed places v v := fun _ _ => rfl

theorem Framed.mono {places more : List Place} {before after : JsVal} (framed : Framed places before after)
    (subset : places ⊆ more) : Framed more before after :=
  fun place apart => framed place fun touched member => apart touched (subset member)

theorem Framed.trans {first second : List Place} {before middle after : JsVal}
    (framed : Framed first before middle) (framedNext : Framed second middle after) :
    Framed (first ++ second) before after := by
  intro place apart
  rw [framedNext place fun touched member => apart touched (List.mem_append_right first member),
    framed place fun touched member => apart touched (List.mem_append_left second member)]

variable {places : List Place}

theorem Framed.get_member {before after : JsVal} (framed : Framed places before after)
    {key : String} (apart : ∀ place ∈ places, Apart place [.member key]) : after.get key = before.get key :=
  framed [.member key] apart

theorem framed_whole (before after : JsVal) : Framed [[]] before after := by
  intro place apart
  cases place with
  | nil => cases apart [] (by simp)
  | cons step place => cases step <;> cases apart [] (by simp)

variable {place : Place}

theorem Framed.of_nullish {before empty after : JsVal}
    (framed : Framed (place :: places) empty after) (nullish : before.isNullish = true)
    (holdsNothing : ∀ step rest, valueAt (step :: rest) empty = .undefined) :
    Framed (place :: places) before after := by
  intro other apart
  rw [framed other apart]
  cases other with
  | nil => exact absurd (apart place (by simp)) (not_apart_nil place)
  | cons step rest => rw [holdsNothing, valueAt_nullish nullish]

theorem framed_set {key : String} {value : JsVal} {inner places : List Place}
    (isObject : ∃ entries, v = .obj entries) (inside : Framed inner (v.get key) value)
    (touches : ∃ touched, touched ∈ places)
    (covered : ∀ touched ∈ inner, .member key :: touched ∈ places) : Framed places v (v.set key value) := by
  obtain ⟨entries, rfl⟩ := isObject
  intro other apart
  cases other with
  | nil =>
    obtain ⟨touched, member⟩ := touches
    exact absurd (apart touched member) (not_apart_nil touched)
  | cons step rest =>
    cases step with
    | entry id => simp [valueAt, PlaceStep.of, elements, set]
    | member otherKey =>
      by_cases same : otherKey = key
      · subst same
        have kept : valueAt rest value = valueAt rest ((obj entries).get otherKey) := by
          apply inside
          intro touched member
          have parts := apart (.member otherKey :: touched) (covered touched member)
          exact parts.resolve_left (fun differs => differs rfl)
        simpa [valueAt, PlaceStep.of] using kept
      · simp [valueAt, PlaceStep.of, same]

theorem framed_overwrite (key : String) (value : JsVal) (isObject : ∃ entries, v = .obj entries) :
    Framed [[.member key]] v (v.set key value) :=
  framed_set isObject (framed_whole (v.get key) value) ⟨_, List.mem_singleton_self _⟩ (by simp)

theorem isObject_set (v : JsVal) (key : String) (value : JsVal) : ∃ entries, v.set key value = .obj entries :=
  ⟨_, rfl⟩

variable {id : String}

theorem entryById_append_other {added : JsVal} (differs : added.get "id" ≠ .str id)
    (values : List JsVal) : entryById id (values ++ [added]) = entryById id values := by
  simp [entryById, List.find?_append, differs]

theorem framed_append {added : JsVal} (named : ∀ other, added.get "id" = .str other → other = id)
    (values : List JsVal) : Framed [[.entry id]] (.arr values) (.arr (values ++ [added])) := by
  intro place apart
  cases place with
  | nil => exact absurd (apart [.entry id] (by simp)) (not_apart_nil _)
  | cons step rest =>
    cases step with
    | member key => cases apart [.entry id] (by simp)
    | entry other =>
      have differs : id ≠ other := by
        rcases apart [.entry id] (by simp) with differs | inside
        · exact differs
        · cases rest with
          | nil => cases inside
          | cons step rest => cases step <;> cases inside
      have unnamed : added.get "id" ≠ .str other := fun same => differs (named other same).symm
      simp only [valueAt, PlaceStep.of, elements, entryById_append_other unnamed]

variable {update : JsVal → JsVal}

theorem entryById_updateEntry_same
    (keepsId : ∀ v, v.get "id" = .str id → (update v).get "id" = .str id) (values : List JsVal) :
    entryById id (updateEntry id update values) = (entryById id values).map update := by
  induction values with
  | nil => rfl
  | cons value values ih =>
    by_cases named : value.get "id" = .str id
    · simp [entryById, updateEntry, named, keepsId value named]
    · simp only [entryById, updateEntry, named, if_false] at ih ⊢
      simp only [List.find?_cons, named, decide_false]
      exact ih

theorem entryById_updateEntry_other {id other : String} (differs : id ≠ other)
    (keepsId : ∀ v, v.get "id" = .str id → (update v).get "id" = .str id) (values : List JsVal) :
    entryById other (updateEntry id update values) = entryById other values := by
  induction values with
  | nil => rfl
  | cons value values ih =>
    by_cases named : value.get "id" = .str id
    · simp [entryById, updateEntry, named, keepsId value named, differs]
    · simp only [entryById, updateEntry, named, if_false] at ih ⊢
      simp only [List.find?_cons]
      rw [ih]

theorem framed_updateEntry (keepsId : ∀ v, v.get "id" = .str id → (update v).get "id" = .str id)
    (inside : ∀ v, v.get "id" = .str id → Framed (place :: places) v (update v)) (values : List JsVal) :
    Framed ((place :: places).map (.entry id :: ·)) (.arr values) (.arr (updateEntry id update values)) := by
  intro other apart
  cases other with
  | nil => exact absurd (apart (.entry id :: place) (by simp)) (not_apart_nil _)
  | cons step rest =>
    cases step with
    | member key => cases apart (.entry id :: place) (by simp)
    | entry otherId =>
      by_cases same : id = otherId
      · subst same
        simp only [valueAt, PlaceStep.of, elements, entryById_updateEntry_same keepsId]
        cases found : entryById id values with
        | none => rfl
        | some value =>
          apply inside value (by simpa using List.find?_some found)
          intro touched member
          have parts := apart (.entry id :: touched) (List.mem_map_of_mem member)
          exact parts.resolve_left (fun differs => differs rfl)
      · simp only [valueAt, PlaceStep.of, elements, entryById_updateEntry_other same keepsId]

/-! ## Serialisation -/

theorem get_toJson_eq_str {key text : String} : v.toJson.get key = .str text ↔ v.get key = .str text := by
  rw [get_toJson]
  cases v.get key <;> simp [toJson]

theorem entryById_toJson (id : String) (values : List JsVal) :
    entryById id (values.map toJson) = (entryById id values).map toJson := by
  simp only [entryById, List.find?_map, Function.comp_def, get_toJson_eq_str]

theorem valueAt_toJson (place : Place) (v : JsVal) : valueAt place v.toJson =
      if valueAt place v = .undefined ∧ place ≠ [] then .undefined else (valueAt place v).toJson := by
  induction place generalizing v with
  | nil => simp [valueAt]
  | cons step place ih =>
    have inside : step.of v.toJson = if step.of v = .undefined then .undefined else (step.of v).toJson := by
      cases step with
      | member key => exact get_toJson v key
      | entry id =>
        cases v with
        | arr values =>
          simp only [PlaceStep.of, toJson, elements, toJsonList_eq_map, entryById_toJson]
          obtain missing | ⟨value, found⟩ := Option.eq_none_or_eq_some (entryById id values)
          · simp [missing]
          · have named : value.get "id" = .str id := by simpa using List.find?_some found
            have defined : value ≠ .undefined := by
              rintro rfl
              cases named
            simp [found, defined]
        | _ => rfl
    simp only [valueAt, inside, ne_eq, List.cons_ne_nil, not_false_eq_true, and_true]
    by_cases absent : step.of v = .undefined
    · simp [absent, valueAt_undefined]
    · rw [if_neg absent, ih]
      by_cases missing : valueAt place (step.of v) = .undefined
      · cases place with
        | nil => exact absurd missing absent
        | cons next place => simp [missing]
      · simp [missing]

theorem valueAt_toJson_congr {v w : JsVal} (same : valueAt place v = valueAt place w) :
    valueAt place v.toJson = valueAt place w.toJson := by
  rw [valueAt_toJson, valueAt_toJson, same]

end JsVal

end Advance.JavaScript
