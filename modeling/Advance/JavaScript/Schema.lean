import Mathlib.Data.List.Forall2
import Advance.JavaScript.Value

/-! # Schemas over JavaScript values

A schema is its parse function: it returns the parsed value, or the issues it
found with the path of each.  The combinators follow the documented behaviour of
the `z.*` builders of the same name.
-/

namespace Advance.JavaScript

open JsVal

inductive PathKey where
  | key (name : String)
  | index (position : Nat)
  deriving DecidableEq

inductive IssueCode where
  | invalidType (expected : String)
  | invalidValue (options : List String)
  | tooSmall (minimum : JsNumber)
  | tooBig (maximum : JsNumber)
  | unrecognizedKeys (keys : List String)
  | custom (message : String)
  deriving DecidableEq

/-- One validation failure: where it is and what is wrong there. -/
structure Issue where
  path : List PathKey
  code : IssueCode
  deriving DecidableEq

def Issue.under (key : PathKey) (issue : Issue) : Issue := { issue with path := key :: issue.path }

abbrev Schema := JsVal → Except (List Issue) JsVal

namespace Schema

def fail (code : IssueCode) : Except (List Issue) JsVal := .error [⟨[], code⟩]

/-- Largest integer `z.number().int()` accepts. -/
def maxSafeInteger : JsNumber := 9007199254740991

def any : Schema := .ok

def string : Schema
  | .str value => .ok (.str value)
  | _ => fail (.invalidType "string")

/-- `z.string().min(n)`. -/
def stringMin (minimum : Nat) : Schema
  | .str value =>
    if minimum ≤ value.length then .ok (.str value) else fail (.tooSmall minimum)
  | _ => fail (.invalidType "string")

/-- `z.number().int().min(n)`; `nonnegative` is `min(0)`. -/
def intMin (minimum : JsNumber) : Schema
  | .num value =>
    if value.den ≠ 1 then fail (.invalidType "int")
    else if maxSafeInteger < value then fail (.tooBig maxSafeInteger)
    else if value < minimum then fail (.tooSmall minimum)
    else .ok (.num value)
  | _ => fail (.invalidType "number")

def intNonnegative : Schema := intMin 0

def enum (options : List String) : Schema
  | .str value =>
    if value ∈ options then .ok (.str value) else fail (.invalidValue options)
  | _ => fail (.invalidValue options)

def literalNum (expected : JsNumber) : Schema
  | .num value =>
    if value = expected then .ok (.num value) else fail (.invalidValue [toString expected])
  | _ => fail (.invalidValue [toString expected])

def optional (schema : Schema) : Schema
  | .undefined => .ok .undefined
  | v => schema v

/-- `schema.default(value)`: an absent value is replaced without being parsed. -/
def withDefault (default : JsVal) (schema : Schema) : Schema
  | .undefined => .ok default
  | v => schema v

/-- Run every parse, gathering the issues of all that fail. -/
def collect {α : Type} : List (PathKey × Except (List Issue) α) → Except (List Issue) (List α)
  | [] => .ok []
  | (_, .ok value) :: rest => (collect rest).map (value :: ·)
  | (key, .error issues) :: rest =>
    match collect rest with
    | .ok _ => .error (issues.map (Issue.under key))
    | .error more => .error (issues.map (Issue.under key) ++ more)

def array (element : Schema) : Schema
  | .arr values =>
    (collect (values.zipIdx.map fun (value, position) => (.index position, element value))).map .arr
  | _ => fail (.invalidType "array")

/-- `z.record(z.string(), value)`. -/
def record (value : Schema) : Schema
  | .obj entries =>
    (collect (entries.map fun (key, v) => (.key key, (value v).map (key, ·)))).map .obj
  | _ => fail (.invalidType "record")

/-- What an object schema does with keys it does not declare. -/
inductive Unknown where
  | strip
  | passthrough
  | strict
  deriving DecidableEq

def undeclared (shape : List (String × Schema)) (entries : List (String × JsVal)) : List (String × JsVal) :=
  entries.filter fun entry => entry.1 ∉ shape.map Prod.fst

def declared (shape : List (String × Schema)) (v : JsVal) : Except (List Issue) (List (String × JsVal)) :=
  collect (shape.map fun (key, schema) => (.key key, (schema (v.get key)).map (key, ·)))

/-- `z.object(shape)`: declared keys first, in the order of the shape. -/
def object (unknown : Unknown) (shape : List (String × Schema)) : Schema
  | .obj entries => do
    let fields ← declared shape (.obj entries)
    let kept := fields.filter fun field => field.2 ≠ .undefined
    match unknown with
    | .strip => .ok (.obj kept)
    | .passthrough => .ok (.obj (kept ++ undeclared shape entries))
    | .strict =>
      match undeclared shape entries with
      | [] => .ok (.obj kept)
      | extra => fail (.unrecognizedKeys (extra.map Prod.fst))
  | _ => fail (.invalidType "object")

/-! ## Inversion -/

@[simp] theorem fail_ne_ok {code : IssueCode} {v : JsVal} : fail code ≠ .ok v := by simp [fail]

variable {v out : JsVal}

theorem string_ok (parsed : string v = .ok out) : out = v ∧ ∃ value, v = .str value := by
  cases v <;> simp [string] at parsed
  exact ⟨parsed.symm, _, rfl⟩

theorem stringMin_ok {minimum : Nat} (parsed : stringMin minimum v = .ok out) :
    out = v ∧ ∃ value, v = .str value ∧ minimum ≤ value.length := by
  cases v <;> simp only [stringMin, fail_ne_ok] at parsed
  split at parsed
  next enough => exact ⟨(Except.ok.inj parsed).symm, _, rfl, enough⟩
  next => exact absurd parsed fail_ne_ok

theorem intMin_ok {minimum : JsNumber} (parsed : intMin minimum v = .ok out) :
    out = v ∧ ∃ value, v = .num value ∧ value.den = 1 ∧ value ≤ maxSafeInteger ∧ minimum ≤ value := by
  cases v <;> simp only [intMin, fail_ne_ok] at parsed
  split at parsed
  next => exact absurd parsed fail_ne_ok
  next integral =>
    split at parsed
    next => exact absurd parsed fail_ne_ok
    next bounded =>
      split at parsed
      next => exact absurd parsed fail_ne_ok
      next enough =>
        exact ⟨(Except.ok.inj parsed).symm, _, rfl, not_not.mp integral, not_lt.mp bounded, not_lt.mp enough⟩

theorem enum_ok {options : List String} (parsed : enum options v = .ok out) :
    out = v ∧ ∃ value ∈ options, v = .str value := by
  cases v <;> simp only [enum, fail_ne_ok] at parsed
  split at parsed
  next member => exact ⟨(Except.ok.inj parsed).symm, _, member, rfl⟩
  next => exact absurd parsed fail_ne_ok

variable {schema : Schema}

theorem optional_ok (parsed : optional schema v = .ok out) :
    (v = .undefined ∧ out = .undefined) ∨ (v ≠ .undefined ∧ schema v = .ok out) := by
  cases v with
  | undefined => exact .inl ⟨rfl, (Except.ok.inj parsed).symm⟩
  | _ => exact .inr ⟨by simp, parsed⟩

theorem withDefault_ok {default v out : JsVal} (parsed : withDefault default schema v = .ok out) :
    (v = .undefined ∧ out = default) ∨ (v ≠ .undefined ∧ schema v = .ok out) := by
  cases v with
  | undefined => exact .inl ⟨rfl, (Except.ok.inj parsed).symm⟩
  | _ => exact .inr ⟨by simp, parsed⟩

theorem collect_ok {α : Type} {results : List (PathKey × Except (List Issue) α)} {values : List α} :
    collect results = .ok values ↔ List.Forall₂ (fun result value => result.2 = .ok value) results values := by
  induction results generalizing values with
  | nil =>
    cases values with
    | nil => simp [collect]
    | cons value values => constructor <;> intro impossible <;> cases impossible
  | cons result results ih =>
    obtain ⟨key, parse⟩ := result
    cases parse with
    | error issues =>
      simp only [collect]
      constructor
      · intro gathered
        split at gathered <;> cases gathered
      · intro all
        cases all with
        | cons head _ => cases head
    | ok value =>
      simp only [collect]
      cases rest : collect results with
      | error issues =>
        constructor
        · intro gathered; cases gathered
        · intro all
          cases all with
          | cons _ tail => rw [ih.mpr tail] at rest; cases rest
      | ok parsed =>
        constructor
        · intro gathered
          cases gathered
          exact .cons rfl (ih.mp rest)
        · intro all
          cases all with
          | cons head tail =>
            cases head
            rw [ih.mpr tail] at rest
            cases rest
            rfl

theorem array_ok {element : Schema} (parsed : array element v = .ok out) :
    ∃ values parsedValues, v = .arr values ∧ out = .arr parsedValues ∧
      List.Forall₂ (fun value parsedValue => element value = .ok parsedValue) values parsedValues := by
  cases v <;> simp only [array, fail_ne_ok] at parsed
  rename_i values
  cases gathered : collect (values.zipIdx.map fun (value, position) =>
      ((.index position : PathKey), element value)) with
  | error issues => rw [gathered] at parsed; cases parsed
  | ok parsedValues =>
    rw [gathered] at parsed
    cases parsed
    refine ⟨values, parsedValues, rfl, rfl, ?_⟩
    have each := collect_ok.mp gathered
    rw [List.forall₂_map_left_iff] at each
    have unindexed : ∀ (start : Nat) (values : List JsVal) (parsedValues : List JsVal),
        List.Forall₂ (fun (pair : JsVal × Nat) parsedValue => element pair.1 = .ok parsedValue)
          (values.zipIdx start) parsedValues →
        List.Forall₂ (fun value parsedValue => element value = .ok parsedValue) values parsedValues := by
      intro start values
      induction values generalizing start with
      | nil => intro parsedValues each; cases each; exact .nil
      | cons value values ih =>
        intro parsedValues each
        cases each with
        | cons head tail => exact .cons head (ih (start + 1) _ tail)
    exact unindexed 0 values parsedValues each

theorem record_ok {value : Schema} (parsed : record value v = .ok out) :
    ∃ entries parsedEntries, v = .obj entries ∧ out = .obj parsedEntries ∧
      List.Forall₂ (fun (entry parsedEntry : String × JsVal) =>
        parsedEntry.1 = entry.1 ∧ value entry.2 = .ok parsedEntry.2) entries parsedEntries := by
  cases v <;> simp only [record, fail_ne_ok] at parsed
  rename_i entries
  cases gathered : collect (entries.map fun (key, v) =>
      ((.key key : PathKey), (value v).map (key, ·))) with
  | error issues => rw [gathered] at parsed; cases parsed
  | ok parsedEntries =>
    rw [gathered] at parsed
    cases parsed
    refine ⟨entries, parsedEntries, rfl, rfl, ?_⟩
    have each := collect_ok.mp gathered
    rw [List.forall₂_map_left_iff] at each
    refine each.imp ?_
    rintro ⟨key, v⟩ ⟨parsedKey, w⟩ same
    cases result : value v with
    | error issues => simp [result, Except.map] at same
    | ok out =>
      simp only [result, Except.map, Except.ok.injEq, Prod.mk.injEq] at same
      exact ⟨same.1.symm, congrArg Except.ok same.2⟩

theorem lookup_filter_defined (key : String) (fields : List (String × JsVal)) :
    lookup key (fields.filter fun field => field.2 ≠ .undefined) = lookup key fields := by
  induction fields with
  | nil => rfl
  | cons field fields ih =>
    obtain ⟨k, v⟩ := field
    by_cases defined : v = .undefined
    · simp [lookup, defined] at ih ⊢; exact ih
    · by_cases same : k = key <;> simp [lookup, defined, same] at ih ⊢; exact ih

variable {shape : List (String × Schema)} {fields : List (String × JsVal)}

theorem declared_keys {v : JsVal} (parsed : declared shape v = .ok fields) :
    List.Forall₂ (fun (entry : String × Schema) field =>
      field.1 = entry.1 ∧ entry.2 (v.get entry.1) = .ok field.2) shape fields := by
  have each := collect_ok.mp parsed
  rw [List.forall₂_map_left_iff] at each
  refine each.imp ?_
  rintro ⟨key, schema⟩ ⟨k, w⟩ same
  cases result : schema (v.get key) with
  | error issues => simp [result, Except.map] at same
  | ok out =>
    simp only [result, Except.map, Except.ok.injEq, Prod.mk.injEq] at same
    exact ⟨same.1.symm, result.trans (congrArg Except.ok same.2)⟩

theorem declared_fst {v : JsVal} (parsed : declared shape v = .ok fields) :
    fields.map Prod.fst = shape.map Prod.fst := by
  have each := declared_keys parsed
  clear parsed
  induction each with
  | nil => rfl
  | cons head _ ih => simp [head.1, ih]

variable {key : String}

theorem declared_lookup {v : JsVal} (parsed : declared shape v = .ok fields) (distinct : (shape.map Prod.fst).Nodup)
    (member : (key, schema) ∈ shape) : schema (v.get key) = .ok (lookup key fields) := by
  have keys := declared_fst parsed
  have each := declared_keys parsed
  clear parsed
  induction each with
  | nil => cases member
  | @cons entry field shape fields head tail ih =>
    obtain ⟨k, s⟩ := entry
    obtain ⟨k', w⟩ := field
    obtain ⟨sameKey, parsedField⟩ := head
    simp only at sameKey parsedField
    subst sameKey
    simp only [List.map_cons, List.nodup_cons, List.cons.injEq, true_and] at distinct keys
    rcases List.mem_cons.mp member with here | later
    · cases here
      have notLater : lookup key fields = .undefined := by
        apply lookup_of_absent
        intro field present same
        exact distinct.1 (keys ▸ List.mem_map.mpr ⟨field, present, same⟩)
      by_cases defined : w = .undefined
      · simp [lookup, defined, notLater, parsedField]
      · simp [lookup, defined, parsedField]
    · have differs : k' ≠ key := by
        intro same
        exact distinct.1 (List.mem_map.mpr ⟨(key, schema), later, same.symm⟩)
      simp only [lookup, differs, false_and, if_false]
      exact ih distinct.2 later keys

theorem declared_absent {v : JsVal} (parsed : declared shape v = .ok fields)
    (unlisted : key ∉ shape.map Prod.fst) : lookup key fields = .undefined := by
  have each := declared_keys parsed
  clear parsed
  induction each with
  | nil => rfl
  | @cons entry field shape fields head tail ih =>
    obtain ⟨k, w⟩ := field
    simp only [List.map_cons, List.mem_cons, not_or] at unlisted
    have differs : k ≠ key := fun same => unlisted.1 (same ▸ head.1)
    simp only [lookup, differs, false_and, if_false]
    exact ih unlisted.2

theorem lookup_undeclared (listed : key ∈ shape.map Prod.fst) (entries : List (String × JsVal)) :
    lookup key (undeclared shape entries) = .undefined := by
  apply lookup_of_absent
  intro entry member same
  have unlisted := (List.mem_filter.mp member).2
  simp only [decide_eq_true_eq] at unlisted
  exact unlisted (same ▸ listed)

variable {unknown : Unknown}

theorem object_ok (parsed : object unknown shape v = .ok out) :
    ∃ entries fields extras, v = .obj entries ∧ declared shape v = .ok fields ∧
      out = .obj ((fields.filter fun field => field.2 ≠ .undefined) ++ extras) ∧
      extras = (if unknown = .passthrough then undeclared shape entries else []) := by
  cases v <;> simp only [object, fail_ne_ok] at parsed
  rename_i entries
  cases result : declared shape (.obj entries) with
  | error issues => rw [result] at parsed; cases parsed
  | ok fields =>
    rw [result] at parsed
    simp only [bind, Except.bind] at parsed
    cases unknown with
    | strip => cases parsed; exact ⟨entries, fields, [], rfl, rfl, by simp, by simp⟩
    | passthrough => cases parsed; exact ⟨entries, fields, _, rfl, rfl, rfl, by simp⟩
    | strict =>
      simp only at parsed
      split at parsed
      · cases parsed; exact ⟨entries, fields, [], rfl, rfl, by simp, by simp⟩
      · exact absurd parsed fail_ne_ok

theorem object_get (parsed : object unknown shape v = .ok out) (distinct : (shape.map Prod.fst).Nodup)
    (member : (key, schema) ∈ shape) : schema (v.get key) = .ok (out.get key) := by
  obtain ⟨entries, fields, extras, rfl, fieldsParsed, rfl, rfl⟩ := object_ok parsed
  have listed : key ∈ shape.map Prod.fst := List.mem_map.mpr ⟨_, member, rfl⟩
  have noExtra : lookup key (if unknown = .passthrough then undeclared shape entries else []) = .undefined := by
    split
    · exact lookup_undeclared listed entries
    · rfl
  rw [declared_lookup fieldsParsed distinct member, get_obj, lookup_append, lookup_filter_defined, noExtra]
  split
  next missing => rw [missing]
  next => rfl

/-! ## Atoms and stability -/

/-- A schema that accepts atoms only, and returns them as they are. -/
def KeepsAtoms (schema : Schema) : Prop := ∀ v out, schema v = .ok out → out = v ∧ v.isAtom = true

theorem keepsAtoms_stringMin (minimum : Nat) : KeepsAtoms (stringMin minimum) := by
  intro v out parsed
  obtain ⟨same, value, rfl, _⟩ := stringMin_ok parsed
  exact ⟨same, rfl⟩

theorem keepsAtoms_intMin (minimum : JsNumber) : KeepsAtoms (intMin minimum) := by
  intro v out parsed
  obtain ⟨same, value, rfl, _⟩ := intMin_ok parsed
  exact ⟨same, rfl⟩

theorem keepsAtoms_optional (keeps : KeepsAtoms schema) : KeepsAtoms (optional schema) := by
  intro v out parsed
  rcases optional_ok parsed with ⟨rfl, rfl⟩ | ⟨_, parsed⟩
  · exact ⟨rfl, rfl⟩
  · exact keeps v out parsed

theorem keepsAtoms_string : KeepsAtoms string := by
  intro v out parsed
  obtain ⟨same, value, rfl⟩ := string_ok parsed
  exact ⟨same, rfl⟩

theorem keepsAtoms_enum (options : List String) : KeepsAtoms (enum options) := by
  intro v out parsed
  obtain ⟨same, value, _, rfl⟩ := enum_ok parsed
  exact ⟨same, rfl⟩

theorem keepsAtoms_literalNum (expected : JsNumber) : KeepsAtoms (literalNum expected) := by
  intro v out parsed
  cases v <;> simp only [literalNum, fail_ne_ok] at parsed
  split at parsed
  · cases parsed
    exact ⟨rfl, rfl⟩
  · exact absurd parsed fail_ne_ok

/-- What the schema returns is JSON, and parsing it again returns it. -/
def Stable (schema : Schema) : Prop :=
  ∀ v out, schema v = .ok out → schema out = .ok out ∧ (out ≠ .undefined → out.toJson = out)

theorem KeepsAtoms.stable (keeps : KeepsAtoms schema) : Stable schema := by
  intro v out parsed
  obtain ⟨rfl, atom⟩ := keeps v out parsed
  refine ⟨parsed, ?_⟩
  intro defined
  cases out <;> simp_all [toJson, isAtom]

theorem stable_optional (stable : Stable schema) : Stable (optional schema) := by
  intro v out parsed
  rcases optional_ok parsed with ⟨rfl, rfl⟩ | ⟨_, parsed⟩
  · exact ⟨rfl, fun defined => absurd rfl defined⟩
  · obtain ⟨again, serialised⟩ := stable v out parsed
    refine ⟨?_, serialised⟩
    cases out <;> first | rfl | exact again

theorem declared_again {v : JsVal} (distinct : (shape.map Prod.fst).Nodup) (stable : ∀ entry ∈ shape, Stable entry.2)
    (parsed : declared shape v = .ok fields) :
    declared shape (.obj (fields.filter fun field => field.2 ≠ .undefined)) = .ok fields := by
  apply collect_ok.mpr
  rw [List.forall₂_map_left_iff]
  refine ((List.forall₂_and_left shape fields).mpr ⟨fun entry member => member, declared_keys parsed⟩).imp ?_
  rintro ⟨key, schema⟩ ⟨k, w⟩ ⟨member, sameKey, parsedField⟩
  simp only at sameKey parsedField
  subst sameKey
  have found : lookup k fields = w := by
    have listed := declared_lookup parsed distinct member
    rw [parsedField] at listed
    exact (Except.ok.inj listed).symm
  have again : schema w = .ok w := (stable _ member _ _ parsedField).1
  simp only [get_obj, lookup_filter_defined, found, again, Except.map]

theorem declared_serialised {v : JsVal} (stable : ∀ entry ∈ shape, Stable entry.2)
    (parsed : declared shape v = .ok fields) : ∀ field ∈ fields, field.2 ≠ .undefined → field.2.toJson = field.2 := by
  have each := declared_keys parsed
  clear parsed
  induction each with
  | nil => exact fun _ member => nomatch member
  | @cons entry field shape fields head tail ih =>
    intro other member defined
    rcases List.mem_cons.mp member with rfl | later
    · exact (stable entry (by simp) _ _ head.2).2 defined
    · exact ih (fun entry member => stable entry (by simp [member])) other later defined

theorem stable_object (closed : unknown ≠ .passthrough) (distinct : (shape.map Prod.fst).Nodup)
    (stable : ∀ entry ∈ shape, Stable entry.2) : Stable (object unknown shape) := by
  intro v out parsed
  obtain ⟨entries, fields, extras, rfl, fieldsParsed, rfl, rfl⟩ := object_ok parsed
  rw [if_neg closed, List.append_nil]
  have noExtra : undeclared shape (fields.filter fun field => field.2 ≠ .undefined) = [] := by
    apply List.filter_eq_nil_iff.mpr
    intro field member unlisted
    have listed : field.1 ∈ shape.map Prod.fst := by
      rw [← declared_fst fieldsParsed]
      exact List.mem_map.mpr ⟨field, (List.mem_filter.mp member).1, rfl⟩
    simp [listed] at unlisted
  constructor
  · simp only [object, declared_again distinct stable fieldsParsed, bind, Except.bind]
    cases unknown with
    | strip => rfl
    | passthrough => exact absurd rfl closed
    | strict => simp only [noExtra]
  · intro _
    rw [toJson, toJsonEntries_self]
    intro field member
    obtain ⟨declaredField, defined⟩ := List.mem_filter.mp member
    have defined : field.2 ≠ .undefined := by simpa using defined
    exact ⟨defined, declared_serialised stable fieldsParsed field declaredField defined⟩

/-! ## Parsing what was serialised -/

theorem parsed_atom (keeps : KeepsAtoms schema) {v w : JsVal}
    (parsed : schema (v.toJson.get key) = .ok w) : w = v.get key := by
  obtain ⟨rfl, atom⟩ := keeps _ _ parsed
  apply get_toJson_atom
  rw [get_toJson] at atom
  split at atom
  next missing => rw [missing]; rfl
  next => cases found : v.get key <;> simp_all [toJson, isAtom]

theorem parsed_stable (stable : Stable schema) {v w source : JsVal}
    (made : schema source = .ok (v.get key)) (parsed : schema (v.toJson.get key) = .ok w) : w = v.get key := by
  obtain ⟨again, serialised⟩ := stable _ _ made
  have field : v.toJson.get key = v.get key := by
    rw [get_toJson]
    split
    next missing => exact missing.symm
    next defined => exact serialised defined
  rw [field, again] at parsed
  exact (Except.ok.inj parsed).symm

theorem strip_parsed (distinct : (shape.map Prod.fst).Nodup)
    (closed : ∀ key, key ∉ shape.map Prod.fst → v.get key = .undefined)
    (fields : ∀ key schema w, (key, schema) ∈ shape → schema (v.toJson.get key) = .ok w → w = v.get key)
    (parsed : object .strip shape v.toJson = .ok out) (key : String) : out.get key = v.get key := by
  by_cases listed : key ∈ shape.map Prod.fst
  · obtain ⟨⟨k, schema⟩, member, rfl⟩ := List.mem_map.mp listed
    exact fields k schema _ member (object_get parsed distinct member)
  · rw [closed key listed]
    obtain ⟨_, declaredFields, _, _, declaredParsed, rfl, rfl⟩ := object_ok parsed
    rw [if_neg (by decide), List.append_nil, get_obj, lookup_filter_defined, declared_absent declaredParsed listed]

end Schema

end Advance.JavaScript
