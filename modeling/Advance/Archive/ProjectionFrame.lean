import Advance.Archive.PlanSafety

/-! # What a projection leaves alone

A safe plan keeps the requirements no delta is about, in their order, and works
on a copy: its assignments go to objects that were not there before.
-/

namespace Advance.Archive

open Foundation
open Types

/-! ## Requirements no delta is about -/

def Delta.about : Delta → List String
  | .add delta => [delta.requirement.id]
  | .modify delta => [delta.target_id]
  | .remove delta => [delta.target_id]
  | .rename delta => [delta.target_id, DeltaRename.resultId delta]

def untouched (deltas : List Delta) (row : Requirement) : Bool :=
  deltas.all fun delta => decide (row.id ∉ Delta.about delta)

variable {deltas : List Delta}

theorem untouched_iff {row : Requirement} :
    untouched deltas row = true ↔ ∀ delta ∈ deltas, row.id ∉ Delta.about delta := by
  simp [untouched]

theorem untouched_eq_false {delta : Delta} {row : Requirement} (member : delta ∈ deltas)
    (about : row.id ∈ Delta.about delta) : untouched deltas row = false :=
  Bool.eq_false_iff.mpr fun held => untouched_iff.mp held delta member about

theorem filter_updateRow {keep : Requirement → Bool} {target : String} {assign : Requirement → Requirement}
    (old : ∀ row, row.id = target → keep row = false) (new : ∀ row, row.id = target → keep (assign row) = false)
    (rows : List Requirement) : (updateRow target assign rows).filter keep = rows.filter keep := by
  induction rows with
  | nil => rfl
  | cons row rows ih =>
    simp only [updateRow]
    split
    next here => simp [old row here, new row here]
    next => simp only [List.filter_cons, ih]

theorem filter_applies {delta : Delta} (member : delta ∈ deltas)
    {rows next : List Requirement} (applies : Applies delta rows next) :
    next.filter (untouched deltas) = rows.filter (untouched deltas) := by
  have out : ∀ {row : Requirement}, row.id ∈ Delta.about delta → untouched deltas row = false :=
    fun about => untouched_eq_false member about
  cases delta with
  | add delta =>
    obtain ⟨_, rfl⟩ := applies
    have added : untouched deltas delta.requirement = false := out (by simp [Delta.about])
    simp [List.filter_append, added]
  | modify delta =>
    obtain ⟨_, rfl⟩ := applies
    exact filter_updateRow (fun row here => out (by simp [Delta.about, here]))
      (fun row here => out (by simp [Delta.about, here])) rows
  | remove delta =>
    obtain ⟨_, rfl⟩ := applies
    rw [List.filter_filter]
    refine List.filter_congr fun row _ => ?_
    by_cases here : row.id = delta.target_id
    · have about : untouched deltas row = false := out (by simp [Delta.about, here])
      simp [about]
    · simp [here]
  | rename delta =>
    obtain ⟨_, _, rfl⟩ := applies
    exact filter_updateRow (fun row here => out (by simp [Delta.about, here]))
      (fun row here => out (by simp [Delta.about, renameRow])) rows

section

variable (platform : Platform) (authority : ProjectionAuthority)

theorem filter_run {deltas late : List Delta} (among : ∀ delta ∈ late, delta ∈ deltas) (rows : List Requirement) :
    (stateAfter (planDelta platform authority) late rows).filter (untouched deltas) =
      rows.filter (untouched deltas) := by
  induction late generalizing rows with
  | nil => rfl
  | cons delta late ih =>
    rw [stateAfter_cons, ih fun later member => among later (by simp [member])]
    rcases planDelta_moves platform authority delta rows with same | applies
    · rw [same]
    · exact filter_applies (among delta (by simp)) applies

end

/-! ## Objects in memory -/

/-- The members of a spec besides its requirements. -/
structure SpecFields where
  schemaUrl : Option String
  name : String
  title : String
  purpose : String
  version : String
  updated_at : String
  extension : Extension specShape

def SpecFields.withRows (fields : SpecFields) (rows : List Requirement) : Spec where
  schemaUrl := fields.schemaUrl
  name := fields.name
  title := fields.title
  purpose := fields.purpose
  version := fields.version
  updated_at := fields.updated_at
  requirements := rows
  extension := fields.extension

/-- A spec object: its requirements are references. -/
structure SpecObject where
  fields : SpecFields
  rows : List Nat

structure Memory where
  requirements : List Requirement
  specs : List SpecObject

namespace Memory

variable (memory : Memory)

/-- The requirements some references lead to. -/
def deref (rows : List Nat) : List Requirement := rows.filterMap (memory.requirements[·]?)

/-- The spec object at an address, as a value; its references all lead somewhere. -/
def Holds (address : Nat) (spec : Spec) : Prop :=
  ∃ object, memory.specs[address]? = some object ∧ (∀ row ∈ object.rows, row < memory.requirements.length) ∧
    object.fields.withRows (memory.deref object.rows) = spec

/-- `structuredClone(spec)`: new objects for the spec and for each of its requirements. -/
def structuredClone (object : SpecObject) : Memory where
  requirements := memory.requirements ++ memory.deref object.rows
  specs := memory.specs ++
    [{ object with rows := List.range' memory.requirements.length (memory.deref object.rows).length }]

/-- `working.requirements` -/
def rowsAt (working : Nat) : List Nat := (memory.specs[working]?).elim [] SpecObject.rows

/-- `working.requirements.find((row) => row.id === id)` -/
def findRef (rows : List Nat) (id : String) : Option Nat :=
  rows.find? fun row => (memory.requirements[row]?).any fun requirement => requirement.id = id

/-- Assignments to members of the requirement `find` returned. -/
def assignFound (working : Nat) (id : String) (assign : Requirement → Requirement) : Memory :=
  match memory.findRef (memory.rowsAt working) id with
  | some row => { memory with requirements := memory.requirements.modify row assign }
  | none => memory

/-- `working.requirements.push(requirement)` -/
def push (working : Nat) (requirement : Requirement) : Memory where
  requirements := memory.requirements ++ [requirement]
  specs := memory.specs.modify working fun object =>
    { object with rows := object.rows ++ [memory.requirements.length] }

/-- `working.requirements = working.requirements.filter((row) => row.id !== id)` -/
def removeRows (working : Nat) (id : String) : Memory :=
  { memory with
    specs := memory.specs.modify working fun object =>
      { object with rows := object.rows.filter fun row =>
          !(memory.requirements[row]?).any fun requirement => requirement.id = id } }

/-- `working.version = targetVersion; working.updated_at = projectedAt` -/
def stamp (working : Nat) (targetVersion projectedAt : String) : Memory :=
  { memory with
    specs := memory.specs.modify working fun object =>
      { object with fields := { object.fields with version := targetVersion, updated_at := projectedAt } } }

end Memory

/-- Every object of `old` is in the memory, unchanged. -/
structure Memory.Extends (old memory : Memory) : Prop where
  requirements : ∀ {row : Nat} {value : Requirement},
    old.requirements[row]? = some value → memory.requirements[row]? = some value
  specs : ∀ {address : Nat} {object : SpecObject},
    old.specs[address]? = some object → memory.specs[address]? = some object

/-- What a delta that is reported missing assigns. -/
def applyInPlace (working : Nat) : Delta → Memory → Memory
  | .add delta, memory => memory.push working delta.requirement
  | .modify delta, memory => memory.assignFound working delta.target_id (·.assign delta.changes)
  | .remove delta, memory => memory.removeRows working delta.target_id
  | .rename delta, memory => memory.assignFound working delta.target_id (renameRow delta)

section

variable (platform : Platform) (authority : ProjectionAuthority)

/-- The loop body, with its assignments. -/
def planDeltaInPlace (working : Nat) (delta : Delta) (memory : Memory) : DeltaProjectionDisposition × Memory :=
  let row := (planDelta platform authority delta (memory.deref (memory.rowsAt working))).1
  (row, if row.status = .missing then applyInPlace working delta memory else memory)

/-- The plan of a run over objects; `target` is the address of its target. -/
structure PlanInMemory where
  status : PlanStatus
  dispositions : List DeltaProjectionDisposition
  target : Option Nat
  memory : Memory

/-- `planSpecProjection` for the spec object `input`. -/
def planInMemory (deltas : List Delta) (projectedAt : String) (input : SpecObject) (memory : Memory) : PlanInMemory :=
  let baseMemory := memory.structuredClone input
  let base := { input with
    rows := List.range' memory.requirements.length (memory.deref input.rows).length }
  let start := baseMemory.structuredClone base
  let working := baseMemory.specs.length
  let dispositions := (trace (planDeltaInPlace platform authority working) (sortDeltas deltas) start).map Record.response
  let finished := stateAfter (planDeltaInPlace platform authority working) (sortDeltas deltas) start
  let missing := dispositions.filter fun row => row.status = .missing
  if dispositions.any DeltaProjectionDisposition.blocked then ⟨.blocked, dispositions, none, finished⟩
  else
    ⟨.safe, dispositions, some working,
      if 0 < missing.length then
        finished.stamp working (bumpProjectionVersion platform input.fields.version missing) projectedAt
      else finished⟩

end

/-! ## The working copy -/

/-- The working copy of a run: its objects are all new, and lead to `rows`. -/
structure Working (old memory : Memory) (working : Nat) (fields : SpecFields) (rows : List Requirement) : Prop where
  fresh : old.specs.length ≤ working
  object : ∃ references, memory.specs[working]? = some ⟨fields, references⟩ ∧ references.Nodup ∧
    (∀ row ∈ references, old.requirements.length ≤ row ∧ row < memory.requirements.length) ∧
    memory.deref references = rows
  kept : Memory.Extends old memory
  grown : old.requirements.length ≤ memory.requirements.length

theorem deref_cons {memory : Memory} {row : Nat} {rows : List Nat} (valid : row < memory.requirements.length) :
    memory.deref (row :: rows) = memory.requirements[row] :: memory.deref rows := by
  simp [Memory.deref, valid]

theorem deref_congr {memory other : Memory} {rows : List Nat}
    (same : ∀ row ∈ rows, memory.requirements[row]? = other.requirements[row]?) :
    memory.deref rows = other.deref rows :=
  List.filterMap_congr same

theorem assign_found {memory : Memory} {references : List Nat} {id : String} {assign : Requirement → Requirement}
    (distinct : references.Nodup) (valid : ∀ row ∈ references, row < memory.requirements.length) :
    (match memory.findRef references id with
      | some row => { memory with requirements := memory.requirements.modify row assign }
      | none => memory).deref references = updateRow id assign (memory.deref references) := by
  induction references with
  | nil => rfl
  | cons row references ih =>
    obtain ⟨fresh, distinctRest⟩ := List.nodup_cons.mp distinct
    have here : row < memory.requirements.length := valid row (by simp)
    have rest := ih distinctRest fun other member => valid other (by simp [member])
    rw [deref_cons here, updateRow]
    by_cases same : memory.requirements[row].id = id
    · have found : memory.findRef (row :: references) id = some row := by
        simp [Memory.findRef, here, same]
      rw [found, if_pos same, deref_cons (by simpa using here)]
      congr 1
      · simp
      · refine deref_congr fun other member => ?_
        have apart : row ≠ other := fun equal => fresh (equal ▸ member)
        simp [apart]
    · have skipped : memory.findRef (row :: references) id = memory.findRef references id := by
        simp [Memory.findRef, here, same]
      rw [skipped, if_neg same, ← rest]
      cases found : memory.findRef references id with
      | none => exact deref_cons here
      | some other =>
        have member : other ∈ references := List.mem_of_find?_eq_some found
        have apart : other ≠ row := fun equal => fresh (equal ▸ member)
        rw [deref_cons (by simpa using here)]
        congr 1
        simp [apart]

variable {working : Nat}

theorem rowsAt_eq {memory : Memory} {object : SpecObject}
    (held : memory.specs[working]? = some object) : memory.rowsAt working = object.rows := by
  simp [Memory.rowsAt, held]

variable {old memory : Memory}

theorem Memory.Extends.assign (kept : Memory.Extends old memory) {row : Nat}
    (newer : old.requirements.length ≤ row) (assign : Requirement → Requirement) :
    Memory.Extends old { memory with requirements := memory.requirements.modify row assign } where
  requirements := by
    intro other value held
    have older : other < old.requirements.length := (List.getElem?_eq_some_iff.mp held).1
    have apart : row ≠ other := by omega
    simp [apart, kept.requirements held]
  specs := kept.specs

theorem Memory.Extends.assignSpec (kept : Memory.Extends old memory)
    (newer : old.specs.length ≤ working) (assign : SpecObject → SpecObject) :
    Memory.Extends old { memory with specs := memory.specs.modify working assign } where
  requirements := kept.requirements
  specs := by
    intro address object held
    have older : address < old.specs.length := (List.getElem?_eq_some_iff.mp held).1
    have apart : working ≠ address := by omega
    simp [apart, kept.specs held]

theorem Memory.Extends.grow (kept : Memory.Extends old memory) (added : List Requirement)
    (addedSpecs : List SpecObject) :
    Memory.Extends old ⟨memory.requirements ++ added, memory.specs ++ addedSpecs⟩ where
  requirements := by
    intro row value held
    have inside := List.getElem?_eq_some_iff.mp (kept.requirements held)
    rw [List.getElem?_append_left inside.1]
    exact kept.requirements held
  specs := by
    intro address object held
    have inside := List.getElem?_eq_some_iff.mp (kept.specs held)
    rw [List.getElem?_append_left inside.1]
    exact kept.specs held

section

variable {old memory : Memory} {working : Nat} {fields : SpecFields} {rows : List Requirement}

section

variable (held : Working old memory working fields rows)
include held

theorem Working.assignFound (id : String) (assign : Requirement → Requirement) :
    Working old (memory.assignFound working id assign) working fields (updateRow id assign rows) := by
  obtain ⟨references, object, distinct, valid, leads⟩ := held.object
  have updated := @assign_found memory references id assign distinct fun row member => (valid row member).2
  rw [leads] at updated
  rw [Memory.assignFound, rowsAt_eq object]
  cases found : memory.findRef references id with
  | none =>
    rw [found] at updated
    exact ⟨held.fresh, ⟨references, object, distinct, valid, updated⟩, held.kept, held.grown⟩
  | some row =>
    rw [found] at updated
    have newer := (valid row (List.mem_of_find?_eq_some found)).1
    refine ⟨held.fresh, ⟨references, object, distinct, ?_, updated⟩, held.kept.assign newer assign, ?_⟩
    · intro other member
      simpa using valid other member
    · simpa using held.grown

theorem Working.push (requirement : Requirement) :
    Working old (memory.push working requirement) working fields (rows ++ [requirement]) := by
  obtain ⟨references, object, distinct, valid, leads⟩ := held.object
  refine ⟨held.fresh, ⟨references ++ [memory.requirements.length], ?_, ?_, ?_, ?_⟩, ?_, ?_⟩
  · simp [Memory.push, object]
  · refine List.nodup_append.mpr ⟨distinct, List.nodup_singleton _, fun row member other last => ?_⟩
    rw [List.mem_singleton.mp last]
    exact Nat.ne_of_lt (valid row member).2
  · intro row member
    have bound := held.grown
    simp only [Memory.push, List.length_append, List.length_singleton]
    rcases List.mem_append.mp member with inside | last
    · have within := valid row inside
      omega
    · rw [List.mem_singleton.mp last]
      omega
  · rw [← leads]
    simp only [Memory.deref, Memory.push, List.filterMap_append]
    congr 1
    · refine List.filterMap_congr fun row member => ?_
      exact List.getElem?_append_left (valid row member).2
    · simp
  · have kept := (held.kept.grow [requirement] []).assignSpec held.fresh fun object =>
      { object with rows := object.rows ++ [memory.requirements.length] }
    rwa [List.append_nil] at kept
  · simp only [Memory.push, List.length_append]
    exact Nat.le_add_right_of_le held.grown

theorem Working.removeRows (id : String) :
    Working old (memory.removeRows working id) working fields (rows.filter fun row => row.id ≠ id) := by
  obtain ⟨references, object, distinct, valid, leads⟩ := held.object
  refine ⟨held.fresh, ⟨references.filter fun row =>
      !(memory.requirements[row]?).any fun requirement => requirement.id = id, ?_, distinct.filter _, ?_, ?_⟩,
    held.kept.assignSpec held.fresh _, held.grown⟩
  · simp [Memory.removeRows, object]
  · intro row member
    exact valid row (List.mem_of_mem_filter member)
  · rw [← leads]
    simp only [Memory.deref, Memory.removeRows, List.filter_filterMap, List.filterMap_filter]
    refine List.filterMap_congr fun row member => ?_
    have inside := (valid row member).2
    by_cases leaves : memory.requirements[row].id = id
    · simp [inside, leaves, Option.filter]
    · simp [inside, leaves, Option.filter]

theorem Working.apply {delta : Delta} {next : List Requirement}
    (applies : Applies delta rows next) : Working old (applyInPlace working delta memory) working fields next := by
  cases delta with
  | add delta =>
    obtain ⟨_, rfl⟩ := applies
    exact held.push delta.requirement
  | modify delta =>
    obtain ⟨_, rfl⟩ := applies
    exact held.assignFound delta.target_id _
  | remove delta =>
    obtain ⟨_, rfl⟩ := applies
    exact held.removeRows delta.target_id
  | rename delta =>
    obtain ⟨_, _, rfl⟩ := applies
    exact held.assignFound delta.target_id _

end

variable (platform : Platform) (authority : ProjectionAuthority)

theorem Working.step (held : Working old memory working fields rows) (delta : Delta) :
    (planDeltaInPlace platform authority working delta memory).1 = (planDelta platform authority delta rows).1 ∧
      Working old (planDeltaInPlace platform authority working delta memory).2 working fields
        (planDelta platform authority delta rows).2 := by
  have leads : memory.deref (memory.rowsAt working) = rows := by
    obtain ⟨references, object, _, _, leads⟩ := held.object
    rw [rowsAt_eq object, leads]
  simp only [planDeltaInPlace, leads, true_and]
  rcases planDelta_cases platform authority delta rows with ⟨identical, same, _⟩ | ⟨missing, applies⟩ |
    ⟨blocked, same⟩
  · rw [if_neg (by simp [identical]), same]
    exact held
  · rw [if_pos missing]
    exact held.apply applies
  · have present : (planDelta platform authority delta rows).1.status ≠ .missing := by
      intro missing
      simp [DeltaProjectionDisposition.blocked, missing] at blocked
    rw [if_neg present, same]
    exact held

theorem Working.run (held : Working old memory working fields rows) (deltas : List Delta) :
    (trace (planDeltaInPlace platform authority working) deltas memory).map Record.response =
        (trace (planDelta platform authority) deltas rows).map Record.response ∧
      Working old (stateAfter (planDeltaInPlace platform authority working) deltas memory) working fields
        (stateAfter (planDelta platform authority) deltas rows) := by
  induction deltas generalizing memory rows with
  | nil => exact ⟨rfl, held⟩
  | cons delta deltas ih =>
    obtain ⟨response, after⟩ := held.step platform authority delta
    obtain ⟨responses, final⟩ := ih after
    refine ⟨?_, final⟩
    simp only [trace, recordOf, List.map_cons, response, responses]

end

/-! ## Cloning -/

theorem added_references {α : Type} (front added : List α) :
    (List.range' front.length added.length).filterMap (fun row => (front ++ added)[row]?) = added := by
  induction added generalizing front with
  | nil => rfl
  | cons value added ih =>
    have later := ih (front ++ [value])
    rw [List.length_append, List.length_singleton, List.append_assoc, List.singleton_append] at later
    rw [List.length_cons, List.range'_succ, List.filterMap_cons, later]
    simp

theorem Working.ofClone (kept : Memory.Extends old memory)
    (grown : old.requirements.length ≤ memory.requirements.length) (grownSpecs : old.specs.length ≤ memory.specs.length)
    (input : SpecObject) :
    Working old (memory.structuredClone input) memory.specs.length input.fields (memory.deref input.rows) where
  fresh := grownSpecs
  object := by
    refine ⟨_, by simp [Memory.structuredClone], List.nodup_range', fun row member => ?_,
      added_references memory.requirements (memory.deref input.rows)⟩
    have bounds := List.mem_range'_1.mp member
    simp only [Memory.structuredClone, List.length_append]
    omega
  kept := kept.grow _ _
  grown := by
    simp only [Memory.structuredClone, List.length_append]
    omega

theorem Memory.Extends.refl (memory : Memory) : Memory.Extends memory memory := ⟨id, id⟩

theorem Memory.Extends.holds (kept : Memory.Extends old memory) {address : Nat} {spec : Spec}
    (held : old.Holds address spec) : memory.Holds address spec := by
  obtain ⟨object, stored, valid, rfl⟩ := held
  have leads : ∀ row ∈ object.rows, memory.requirements[row]? = old.requirements[row]? := by
    intro row member
    rw [List.getElem?_eq_getElem (valid row member)]
    exact kept.requirements (List.getElem?_eq_getElem (valid row member))
  refine ⟨object, kept.specs stored, fun row member => ?_, ?_⟩
  · have present := leads row member
    rw [List.getElem?_eq_getElem (valid row member)] at present
    exact (List.getElem?_eq_some_iff.mp present).1
  · rw [deref_congr leads]

section

variable {fields : SpecFields} {rows : List Requirement} (held : Working old memory working fields rows)
include fields rows held

theorem Working.holds : memory.Holds working (fields.withRows rows) := by
  obtain ⟨references, object, _, valid, leads⟩ := held.object
  exact ⟨_, object, fun row member => (valid row member).2, by rw [leads]⟩

theorem Working.stamp (version updatedAt : String) :
    Working old (memory.stamp working version updatedAt) working
      { fields with version := version, updated_at := updatedAt } rows := by
  obtain ⟨references, object, distinct, valid, leads⟩ := held.object
  exact ⟨held.fresh, ⟨references, by simp [Memory.stamp, object], distinct, valid, leads⟩,
    held.kept.assignSpec held.fresh _, held.grown⟩

end

/-! ## The plan -/

section

variable (platform : Platform) (authority : ProjectionAuthority)

/-- The run over objects makes the plan: its target is an object with the target's value, and no object that
    was there before has changed. -/
theorem planInMemory_eq {memory : Memory} {input : SpecObject} {spec : Spec}
    (held : input.fields.withRows (memory.deref input.rows) = spec) (deltas : List Delta) (projectedAt : String) :
    let plan := planSpecProjection platform spec deltas authority projectedAt
    let run := planInMemory platform authority deltas projectedAt input memory
    run.status = plan.status ∧ run.dispositions = plan.dispositions ∧ Memory.Extends memory run.memory ∧
      (plan.targetSpec = none → run.target = none) ∧
      ∀ target, plan.targetSpec = some target → ∃ address, run.target = some address ∧
        run.memory.Holds address target := by
  subst held
  have first := Working.ofClone (Memory.Extends.refl memory) le_rfl le_rfl input
  have base : (memory.structuredClone input).deref
      (List.range' memory.requirements.length (memory.deref input.rows).length) = memory.deref input.rows :=
    added_references memory.requirements (memory.deref input.rows)
  have second := Working.ofClone first.kept first.grown (by simp [Memory.structuredClone])
    { input with rows := List.range' memory.requirements.length (memory.deref input.rows).length }
  rw [base] at second
  obtain ⟨responses, final⟩ := second.run platform authority (sortDeltas deltas)
  intro plan run
  by_cases blocked : ((trace (planDelta platform authority) (sortDeltas deltas) (memory.deref input.rows)).map
      Record.response).any DeltaProjectionDisposition.blocked = true
  · have planned : plan = _ := if_pos blocked
    have ran : run = _ := if_pos (responses ▸ blocked)
    rw [planned, ran]
    exact ⟨rfl, responses, final.kept, fun _ => rfl, fun _ found => nomatch found⟩
  · have planned : plan = _ := if_neg blocked
    have ran : run = _ := if_neg (responses ▸ blocked)
    rw [planned, ran]
    refine ⟨rfl, responses, ?_, ?_, ?_⟩
    · dsimp only
      split
      · exact (final.stamp _ _).kept
      · exact final.kept
    · intro absent
      cases absent
    · intro target found
      refine ⟨_, rfl, ?_⟩
      rw [← Option.some.inj found]
      simp only [responses, SpecFields.withRows]
      -- The plan and the run make the same test.
      split
      next changed => exact (congrArg (Memory.Holds _ _) (if_pos changed)).mpr (final.stamp _ _).holds
      next unchanged => exact (congrArg (Memory.Holds _ _) (if_neg unchanged)).mpr final.holds

/-- A plan that is safe has a target whose ids are distinct and which has the requirements no delta is about
    as the spec has them and in the same order; the spec itself is as it was. -/
theorem projection_frame {memory : Memory} {address : Nat} {spec : Spec} (held : memory.Holds address spec)
    (distinct : Distinct spec.requirements) (deltas : List Delta) (projectedAt : String) :
    ∃ input, memory.specs[address]? = some input ∧
      (planInMemory platform authority deltas projectedAt input memory).memory.Holds address spec ∧
      ((planInMemory platform authority deltas projectedAt input memory).status = .safe → ∃ result target,
        (planInMemory platform authority deltas projectedAt input memory).target = some result ∧
        (planInMemory platform authority deltas projectedAt input memory).memory.Holds result target ∧
        (planSpecProjection platform spec deltas authority projectedAt).targetSpec = some target ∧
        Distinct target.requirements ∧
        target.requirements.filter (untouched deltas) = spec.requirements.filter (untouched deltas)) := by
  obtain ⟨input, stored, valid, value⟩ := held
  obtain ⟨status, _, kept, _, result⟩ := planInMemory_eq platform authority value deltas projectedAt
  refine ⟨input, stored, kept.holds ⟨input, stored, valid, value⟩, fun safe => ?_⟩
  obtain ⟨target, planned⟩ := target_of_safe (status ▸ safe)
  obtain ⟨result, found, holds⟩ := result target planned
  refine ⟨result, target, found, holds, planned, ?_⟩
  rw [(plan_target planned).2]
  exact ⟨distinct_run platform authority _ distinct,
    filter_run platform authority (fun delta member => mem_sortDeltas.mp member) _⟩

end

/-! ## Fixed runs -/

def searchMemory : Memory where
  requirements := [replacedRequirement "Search by name"]
  specs := [⟨⟨none, "search", "Search", "Find things", "1.2.3", "2026-01-01T00:00:00.000Z", .empty⟩, [0]⟩]

theorem searchMemory_holds : searchMemory.Holds 0 (searchSpec "Search by name") := by
  refine ⟨_, rfl, ?_, rfl⟩
  intro row member
  rw [List.mem_singleton.mp member]
  exact Nat.one_pos

theorem replaced_in_frame : searchMemory.Holds 0 (searchSpec "Search by name") ∧
    Distinct (searchSpec "Search by name").requirements ∧ ∃ input target, searchMemory.specs[0]? = some input ∧
      (planInMemory (plainPlatform fun _ => noDigest) .current replacement "2026-02-01T00:00:00.000Z" input
        searchMemory).memory.Holds 0 (searchSpec "Search by name") ∧
      (planSpecProjection (plainPlatform fun _ => noDigest) (searchSpec "Search by name") replacement .current
        "2026-02-01T00:00:00.000Z").targetSpec = some target ∧ Distinct target.requirements := by
  have distinct : Distinct (searchSpec "Search by name").requirements := List.nodup_singleton _
  obtain ⟨input, stored, kept, safely⟩ := projection_frame (plainPlatform fun _ => noDigest) .current
    searchMemory_holds distinct replacement "2026-02-01T00:00:00.000Z"
  have value : input.fields.withRows (searchMemory.deref input.rows) = searchSpec "Search by name" := by
    obtain rfl := Option.some.inj stored
    rfl
  have safe := (planInMemory_eq (plainPlatform fun _ => noDigest) .current value replacement
    "2026-02-01T00:00:00.000Z").1.trans (plan_safe_iff.mpr (by decide))
  obtain ⟨_, target, _, _, planned, targetDistinct, _⟩ := safely safe
  exact ⟨searchMemory_holds, distinct, input, target, stored, kept, planned, targetDistinct⟩

end Advance.Archive
