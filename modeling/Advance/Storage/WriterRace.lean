import Advance.Storage.StoreFootprints

/-! # Two writers of one change

Any two operations on a change, interleaved read by read and write by write.  Commits
exclude each other by the per-change lock; the store's mutators do not take it.
-/

namespace Advance.Storage

open Advance.JavaScript Advance.JavaScript.JsVal Advance.Types
open Advance.Utils Advance.Foundation

/-! ## The system -/

inductive Side where
  | first
  | second
  deriving DecidableEq

def Side.other : Side → Side
  | first => second
  | second => first

inductive Operation (Aux : Type) where
  | store (call : StoreCall)
  | commit (call : CommitCall Aux)

/-- Where an operation is, with the file its last read found and the document it is
    about to write or has written. -/
inductive Phase where
  | idle
  | repairing (normalize : JsVal → Except String JsVal)
  | writing (found : FileState) (document : JsVal)
  | written (document : JsVal)
  | stopped (result : Except StoreError JsVal)
  | refused (result : CallResult)

def Phase.isInside : Phase → Bool
  | repairing _ | writing _ _ => true
  | _ => false

section

variable {Aux : Type}

def Operation.isCommit : Operation Aux → Bool
  | commit _ => true
  | store _ => false

def Operation.replaces : Operation Aux → Bool
  | store call => call.events.write.replaces
  | commit call => call.events.write.replaces

def decideCommit (runtime : Runtime) (call : CommitCall Aux) (file : FileState) (latest : JsVal) : Phase :=
  match prepareCommit runtime call.options call.events.committedAt latest with
  | .error result => .refused result
  | .ok plan => .writing file plan.value

/-- The reading step of a store mutator, up to the decision what to save. -/
def storeRead (runtime : Runtime) (call : StoreCall) (file : FileState) : Phase :=
  match call.decide runtime file with
  | .throws error => .stopped (.error error)
  | .returns result => .stopped (.ok result)
  | .saves change _ =>
    let id := (change.get "id").textD ""
    if isSyntheticValidationDraftPattern id then .stopped (.error (syntheticIdError id))
    else .writing file change

def commitRead (runtime : Runtime) (call : CommitCall Aux) (disk : Disk Aux) : Phase :=
  match earlyCheck call disk with
  | some result => .refused result
  | none =>
    match loadLatest runtime call.options disk.change call.events.loadFault with
    | .error result => .refused result
    | .ok (.latest latest) => decideCommit runtime call disk.change latest
    | .ok (.normalize normalize) => .repairing normalize

def commitRepair (runtime : Runtime) (call : CommitCall Aux) (normalize : JsVal → Except String JsVal)
    (file : FileState) : Phase :=
  match normalizeLatest runtime call.options normalize file call.events.rawReadFault with
  | .error result => .refused result
  | .ok latest => decideCommit runtime call file latest

/-- Past the write, unless that failed before the rename. -/
def storeAfterWrite (call : StoreCall) (document : JsVal) : Phase :=
  match call.events.write with
  | .failed error => .stopped (.error (plainError error))
  | .replaced | .replacedThenFailed _ => .written document

def commitAfterWrite (call : CommitCall Aux) (document : JsVal) : Phase :=
  match call.events.write with
  | .failed error =>
    let path := changePath call.options.changesDir call.options.changeId
    .refused (.ok (.writeError s!"Failed to write {path}: {error}"))
  | .replaced | .replacedThenFailed _ => .written document

def Operation.access (runtime : Runtime) (operation : Operation Aux) (phase : Phase) (disk : Disk Aux) :
    Disk Aux × Phase :=
  match operation, phase with
  | .store call, .idle => (disk, storeRead runtime call disk.change)
  | .store call, .writing _ document =>
    (saveWrite runtime call.changeId document call.events.write disk, storeAfterWrite call document)
  | .commit call, .idle => (disk, commitRead runtime call disk)
  | .commit call, .repairing normalize => (disk, commitRepair runtime call normalize disk.change)
  | .commit call, .writing _ document =>
    (writeChange runtime document call.events.write disk, commitAfterWrite call document)
  | _, phase => (disk, phase)

structure Race (Aux : Type) where
  disk : Disk Aux
  phase : Side → Phase

/-- Both operations before their first access. -/
def Race.start (disk : Disk Aux) : Race Aux := ⟨disk, fun _ => .idle⟩

inductive Move where
  | access (side : Side)
  | giveUp (side : Side)
  deriving DecidableEq

def lockedOut (operations : Side → Operation Aux) (side : Side) (race : Race Aux) : Bool :=
  (operations side).isCommit && (operations side.other).isCommit && (race.phase side.other).isInside

def raceStep (runtime : Runtime) (operations : Side → Operation Aux) (move : Move) (race : Race Aux) :
    Unit × Race Aux :=
  match move with
  | .access side =>
    if lockedOut operations side race then ((), race)
    else
      let next := (operations side).access runtime (race.phase side) race.disk
      ((), ⟨next.1, Function.update race.phase side next.2⟩)
  | .giveUp side =>
    match operations side, race.phase side with
    | .commit call, .idle =>
      ((), { race with phase := Function.update race.phase side (.refused (lockTimeoutResult call)) })
    | _, _ => ((), race)

abbrev RaceStep (Aux : Type) := Record (Race Aux) Move Unit

/-! ## Footprints -/

/-- A commit whose callbacks read and write what they like, but change nothing apart from
    some places, which are none of the fields the transaction itself writes. -/
structure MutatesOnly (runtime : Runtime) (options : CommitChangeProjectionOptions Aux)
    (places : List Place) : Prop where
  mutation : ∀ latest mutated, options.mutateLatest latest = .ok mutated → Framed places latest mutated.candidate
  repair : ∀ normalize raw normalized latest, options.normalizeLatestProjection = some normalize →
    normalize raw = .ok normalized → ChangeSchema runtime.fields normalized = .ok latest →
    Framed places raw latest
  unreserved : ∀ place ∈ places, ∀ key ∈ ["id", "projection_revision", "projection_commits", "state_revision"],
      Apart place [.member key]

def Operation.ActsOn (runtime : Runtime) : Operation Aux → List Place → Prop
  | store call, places => places = call.mutation.places runtime call.events.clock
  | commit call, places => MutatesOnly runtime call.options places

/-- The fields a transaction writes besides what its mutation does. -/
def Operation.bookkeeping : Operation Aux → List Place
  | store _ => []
  | commit _ => memberPlaces ["projection_revision", "projection_commits", "state_revision"]

end

/-! ## What an operation decides -/

section

variable {Aux : Type} {runtime : Runtime}

structure Decided (runtime : Runtime) (operation : Operation Aux) (places : List Place) (found : FileState)
    (document : JsVal) : Prop where
  framed : ∃ seen, (seen = storedDocument found ∨ Loads runtime found seen) ∧
    Framed (places ++ operation.bookkeeping) seen document
  id : document.get "id" = (storedDocument found).get "id"
  revision : revisionOf document.toJson = revisionOf (storedDocument found) + if operation.isCommit then 1 else 0

theorem apply_none {mutation : StoreMutation} {clock : Clock} {changeId : String} {saved result : JsVal} :
    mutation.apply runtime clock changeId none ≠ .saves saved result := by
  intro saves
  cases mutation with
  | specDeltasAdd capability delta =>
    simp only [StoreMutation.apply, Storage.specDeltasAdd, appendDelta] at saves
    split at saves <;> cases saves
  | specDeltasRemove capability delta =>
    simp only [StoreMutation.apply, Storage.specDeltasRemove, appendDelta] at saves
    split at saves <;> cases saves
  | _ => cases saves

variable {file found : FileState} {document : JsVal}

theorem storeRead_writing {call : StoreCall} (reads : storeRead runtime call file = .writing found document) :
    found = file ∧ ∃ loaded result, Loads runtime file loaded ∧
      call.mutation.apply runtime call.events.clock call.changeId (some loaded) = .saves document result := by
  unfold storeRead at reads
  split at reads
  · cases reads
  · cases reads
  next change result decides =>
    simp only at reads
    split at reads
    · cases reads
    · cases reads
      refine ⟨rfl, ?_⟩
      simp only [StoreCall.decide, StoreCall.load] at decides
      split at decides
      next data success =>
        cases data with
        | none => exact absurd decides apply_none
        | some loaded => exact ⟨loaded, result, (loadChange_ok success).2, decides⟩
      next => exact absurd decides apply_none

theorem store_decided {call : StoreCall} (reads : storeRead runtime call file = .writing found document) :
    Decided runtime (.store call : Operation Aux) (call.mutation.places runtime call.events.clock) file document := by
  obtain ⟨_, loaded, result, loads, saves⟩ := storeRead_writing reads
  have framed := apply_framed loads.source saves
  have kept : ∀ key, key ∉ touchedFields → document.get key = loaded.get key :=
    fun key reserved => framed [.member key] (places_apart call.mutation reserved)
  refine ⟨⟨loaded, .inr loads, by simpa [Operation.bookkeeping] using framed⟩, ?_, ?_⟩
  · exact (kept "id" (by decide)).trans (load_id loads).1
  · rw [revisionOf_toJson, revisionOf, kept "projection_revision" (by decide)]
    simp only [Operation.isCommit, Bool.false_eq_true, if_false, add_zero]
    exact load_revision loads

variable {places : List Place}

theorem prepared_framed {options : CommitChangeProjectionOptions Aux} {committedAt : String}
    {source latest : JsVal} {mutated : Mutated} {plan : WritePlan}
    (acts : MutatesOnly runtime options places) (valid : ChangeSchema runtime.fields source = .ok latest)
    (prepared : Prepared runtime options committedAt latest mutated plan) :
    Framed (places ++ memberPlaces ["projection_revision", "projection_commits", "state_revision"]) latest
      plan.value := by
  obtain ⟨_, commits, _, value⟩ := buildValue_ok prepared.built
  have mutation := acts.mutation latest mutated prepared.mutation
  obtain ⟨same, id, named⟩ := parsed_id valid
  -- the candidate still has the id, so it is an object
  have kept : mutated.candidate.get "id" = latest.get "id" :=
    mutation [.member "id"] fun place member => acts.unreserved place member "id" (by decide)
  have isObject := isObject_of_named (kept.trans (same.trans named))
  rw [value]
  exact mutation.trans ((((TouchesOnly.refl isObject).set "projection_revision" _).set
    "projection_commits" _).set "state_revision" _).framed

variable {call : CommitCall Aux}

theorem commit_decided {document latest : JsVal} (acts : MutatesOnly runtime call.options places)
    (reads : ReadsLatest runtime call file latest)
    (decides : decideCommit runtime call file latest = .writing found document) :
    found = file ∧ Decided runtime (.commit call) places file document := by
  unfold decideCommit at decides
  split at decides
  · cases decides
  next plan planned =>
    cases decides
    refine ⟨rfl, ?_⟩
    obtain ⟨mutated, prepared⟩ := prepareCommit_ok planned
    have counted := write_revision prepared
    have unreserved : ∀ key ∈ ["id", "projection_revision", "projection_commits", "state_revision"],
        ∀ place ∈ places, Apart place [.member key] :=
      fun key reserved place member => acts.unreserved place member key reserved
    have idApart : ∀ place ∈ places ++ memberPlaces ["projection_revision", "projection_commits", "state_revision"],
        Apart place [.member "id"] := by
      intro place member
      rcases List.mem_append.mp member with member | member
      · exact unreserved "id" (by decide) place member
      · simp only [memberPlaces, List.map_cons, List.map_nil, List.mem_cons, List.not_mem_nil, or_false]
          at member
        rcases member with rfl | rfl | rfl <;> exact .inl (by decide)
    rcases reads with loads | ⟨normalize, normalized, parser, repaired, checked⟩
    · have framed := prepared_framed acts loads.source prepared
      refine ⟨⟨latest, .inr loads, framed⟩, ?_, ?_⟩
      · exact (framed.get_member idApart).trans (load_id loads).1
      · simp only [counted, load_revision loads, Operation.isCommit, if_true]
    · have framed := (acts.repair normalize _ normalized latest parser repaired checked).trans
        (prepared_framed acts checked prepared)
      have whole : Framed (places ++
          memberPlaces ["projection_revision", "projection_commits", "state_revision"])
          (storedDocument file) plan.value := framed.mono (by simp)
      refine ⟨⟨storedDocument file, .inl rfl, whole⟩, whole.get_member idApart, ?_⟩
      have revision : latest.get "projection_revision" = (storedDocument file).get "projection_revision" :=
        (acts.repair normalize _ normalized latest parser repaired checked).get_member
          (unreserved "projection_revision" (by decide))
      rw [counted]
      simp only [revisionOf, revision, Operation.isCommit, if_true]

/-! ## What an access does -/

structure MovesOn (runtime : Runtime) (operation : Operation Aux) (places : List Place) (file : FileState)
    (phase next : Phase) : Prop where
  unwritten : ∀ document, phase ≠ .written document
  unwrittenNext : ∀ document, next ≠ .written document
  repairing : ∀ normalize, next = .repairing normalize →
    ∃ call, operation = .commit call ∧ call.options.normalizeLatestProjection = some normalize
  decided : ∀ found document, next = .writing found document →
    found = file ∧ Decided runtime operation places found document

theorem MovesOn.ends {operation : Operation Aux} {file : FileState}
    {phase next : Phase} (unwritten : ∀ document, phase ≠ .written document)
    (ended : (∃ result, next = .stopped result) ∨ ∃ result, next = .refused result) :
    MovesOn runtime operation places file phase next := by
  rcases ended with ⟨result, rfl⟩ | ⟨result, rfl⟩ <;> exact ⟨unwritten, nofun, nofun, nofun⟩

theorem decideCommit_next (runtime : Runtime) (call : CommitCall Aux) (file : FileState) (latest : JsVal) :
    (∃ result, decideCommit runtime call file latest = .refused result) ∨
      ∃ document, decideCommit runtime call file latest = .writing file document := by
  unfold decideCommit
  split
  · exact .inl ⟨_, rfl⟩
  · exact .inr ⟨_, rfl⟩

theorem MovesOn.decide {file : FileState} {latest : JsVal}
    {phase : Phase} (acts : MutatesOnly runtime call.options places)
    (unwritten : ∀ document, phase ≠ .written document) (reads : ReadsLatest runtime call file latest) :
    MovesOn runtime (.commit call) places file phase (decideCommit runtime call file latest) := by
  rcases decideCommit_next runtime call file latest with
    ⟨result, refused⟩ | ⟨document, writes⟩
  · rw [refused]
    exact .ends unwritten (.inr ⟨result, rfl⟩)
  · obtain ⟨_, decided⟩ := commit_decided acts reads writes
    rw [writes]
    refine ⟨unwritten, nofun, nofun, ?_⟩
    rintro found other same
    cases same
    exact ⟨rfl, decided⟩

variable {disk : Disk Aux}

theorem storeRead_moves {call : StoreCall} :
    MovesOn runtime (.store call : Operation Aux) (call.mutation.places runtime call.events.clock)
      disk.change .idle (storeRead runtime call disk.change) := by
  cases next : storeRead runtime call disk.change with
  | writing found document =>
    refine ⟨nofun, nofun, nofun, ?_⟩
    rintro other otherDocument same
    cases same
    obtain ⟨rfl, _⟩ := storeRead_writing next
    exact ⟨rfl, store_decided next⟩
  | stopped result => exact .ends nofun (.inl ⟨result, rfl⟩)
  | _ =>
    -- a mutator's read ends in a stop or a write
    simp only [storeRead] at next
    split at next
    · cases next
    · cases next
    · split at next <;> cases next

theorem commitRead_moves (acts : MutatesOnly runtime call.options places) :
    MovesOn runtime (.commit call) places disk.change .idle (commitRead runtime call disk) := by
  unfold commitRead
  split
  next result _ => exact .ends nofun (.inr ⟨result, rfl⟩)
  next =>
    split
    next result _ => exact .ends nofun (.inr ⟨result, rfl⟩)
    next latest loaded =>
      rcases loadLatest_ok loaded with ⟨found, same, loads⟩ | ⟨_, same, _⟩
      · cases same
        exact .decide acts nofun (.inl loads)
      · cases same
    next normalize loaded =>
      rcases loadLatest_ok loaded with ⟨_, same, _⟩ | ⟨found, same, parser⟩
      · cases same
      · cases same
        refine ⟨nofun, nofun, ?_, nofun⟩
        rintro other same
        cases same
        exact ⟨call, rfl, parser⟩

theorem commitRepair_moves (acts : MutatesOnly runtime call.options places) {normalize : JsVal → Except String JsVal}
    (parser : call.options.normalizeLatestProjection = some normalize) :
    MovesOn runtime (.commit call) places disk.change (.repairing normalize)
      (commitRepair runtime call normalize disk.change) := by
  unfold commitRepair
  split
  next result _ => exact .ends nofun (.inr ⟨result, rfl⟩)
  next latest repaired =>
    obtain ⟨normalized, repairs, checked⟩ := normalizeLatest_ok repaired
    exact .decide acts nofun (.inr ⟨normalize, normalized, parser, repairs, checked⟩)

theorem saveWrite_own {call : StoreCall} (own : document.get "id" = .str call.changeId) :
    saveWrite runtime call.changeId document call.events.write disk =
      writeChange runtime document call.events.write disk := by
  simp [saveWrite, own]

theorem writeChange_replaced {event : WriteEvent} (replaces : event.replaces = true) :
    (writeChange runtime document event disk).change = .text (runtime.stringify document) := by
  cases event with
  | failed error => cases replaces
  | _ => rfl

theorem access_cases {operation : Operation Aux} {phase : Phase} (acts : operation.ActsOn runtime places)
    (parser : ∀ normalize, phase = .repairing normalize →
      ∃ call, operation = .commit call ∧ call.options.normalizeLatestProjection = some normalize)
    (own : ∀ call found document, operation = .store call → phase = .writing found document →
      operation.replaces = true → document.get "id" = .str call.changeId) :
    operation.access runtime phase disk = (disk, phase) ∨ ((operation.access runtime phase disk).1 = disk ∧
        MovesOn runtime operation places disk.change phase (operation.access runtime phase disk).2) ∨
      ∃ found document, phase = .writing found document ∧ operation.replaces = true ∧
        (operation.access runtime phase disk).2 = .written document ∧
        (operation.access runtime phase disk).1.change = .text (runtime.stringify document) := by
  cases operation with
  | store call =>
    subst acts
    cases phase with
    | idle => exact .inr (.inl ⟨rfl, storeRead_moves⟩)
    | writing found document =>
      cases event : call.events.write with
      | failed error =>
        refine .inr (.inl ⟨?_, .ends nofun (.inl ⟨.error (plainError error), ?_⟩)⟩)
        · simp [Operation.access, saveWrite, writeChange, event]
        · simp [Operation.access, storeAfterWrite, event]
      | _ =>
        have replaces : call.events.write.replaces = true := by rw [event]; rfl
        refine .inr (.inr ⟨found, document, rfl, replaces, ?_, ?_⟩)
        · simp [Operation.access, storeAfterWrite, event]
        · simp only [Operation.access, saveWrite_own (own call found document rfl rfl replaces),
            writeChange_replaced replaces]
    | _ => exact .inl rfl
  | commit call =>
    cases phase with
    | idle => exact .inr (.inl ⟨rfl, commitRead_moves acts⟩)
    | repairing normalize =>
      obtain ⟨_, same, matching⟩ := parser normalize rfl
      cases same
      exact .inr (.inl ⟨rfl, commitRepair_moves acts matching⟩)
    | writing found document =>
      cases event : call.events.write with
      | failed error =>
        refine .inr (.inl ⟨?_, ?_⟩)
        · simp [Operation.access, writeChange, event]
        · simp only [Operation.access, commitAfterWrite, event]
          exact .ends nofun (.inr ⟨_, rfl⟩)
      | _ =>
        have replaces : call.events.write.replaces = true := by rw [event]; rfl
        refine .inr (.inr ⟨found, document, rfl, replaces, ?_, ?_⟩)
        · simp [Operation.access, commitAfterWrite, event]
        · simp only [Operation.access, writeChange_replaced replaces]
    | _ => exact .inl rfl

/-! ## Accesses in a row -/

def accessAgain (runtime : Runtime) (operation : Operation Aux) (state : Disk Aux × Phase) :
    Disk Aux × Phase := operation.access runtime state.2 state.1

theorem persist_change (call : PersistCall) (disk : Disk Files) :
    ((persistChangeProjection runtime call).run disk).2.change =
      ((saveChange runtime call).run disk).2.change := by
  simp only [persistChangeProjection, Program.run_andThen]
  split
  · rfl
  · simp only [Program.run_andThen, Program.run_within]
    split <;> rfl

/-- With nobody between them, the accesses of a mutator do to the file what the whole
    call does. -/
theorem store_accesses_alone (call : StoreCall) (disk : Disk Files) :
    ((accessAgain runtime (.store call))^[2] (disk, .idle)).1.change =
      ((storeProgram runtime call).run disk).2.change := by
  simp only [Function.iterate_succ, Function.comp_apply, Function.iterate_zero, id, accessAgain,
    Operation.access, storeProgram, Program.run_look, storeRead]
  cases call.decide runtime disk.change with
  | throws error => rfl
  | returns result => rfl
  | saves change result =>
    trans ((saveChange runtime (call.persist change)).run disk).2.change
    · by_cases synthetic : isSyntheticValidationDraftPattern ((change.get "id").textD "") = true
      · simp only [saveChange, StoreCall.persist, synthetic, if_true]
        rfl
      · simp only [saveChange, StoreCall.persist, synthetic, if_false, Bool.false_eq_true, Program.run_act]
        cases call.events.write <;> rfl
    · rw [← persist_change]
      simp only [Program.run_andThen]
      split <;> rfl

theorem access_decided_again (call : CommitCall Aux) (latest : JsVal) (disk : Disk Aux) :
    accessAgain runtime (.commit call)
        (accessAgain runtime (.commit call) (disk, decideCommit runtime call disk.change latest)) =
      accessAgain runtime (.commit call) (disk, decideCommit runtime call disk.change latest) := by
  rcases decideCommit_next runtime call disk.change latest with
    ⟨result, refused⟩ | ⟨document, writing⟩
  · rw [refused]
    rfl
  · rw [writing]
    simp only [accessAgain, Operation.access, commitAfterWrite]
    cases call.events.write <;> rfl

theorem access_decided_change (call : CommitCall Aux) {latest : JsVal}
    (planned : plannedWrite runtime call disk.change =
      prepareCommit runtime call.options call.events.committedAt latest) :
    (accessAgain runtime (.commit call) (disk, decideCommit runtime call disk.change latest)).1.change =
      match lockedWrite runtime call disk.change with
      | some plan => .text (runtime.stringify plan.value)
      | none => disk.change := by
  rw [lockedWrite, planned, decideCommit]
  cases prepareCommit runtime call.options call.events.committedAt latest with
  | error result => cases call.events.write.replaces <;> rfl
  | ok plan =>
    simp only [accessAgain, Operation.access, writeChange]
    cases call.events.write <;> rfl

/-- The same for a commit that gets the lock. -/
theorem commit_accesses_alone (call : CommitCall Aux) (disk : Disk Aux) (acquired : call.events.lockAcquired = true) :
    ((accessAgain runtime (.commit call))^[3] (disk, .idle)).1.change =
      (commitChangeProjection runtime call disk).2.change := by
  have first : accessAgain runtime (.commit call) (disk, .idle) = (disk, commitRead runtime call disk) := rfl
  simp only [Function.iterate_succ, Function.comp_apply, Function.iterate_zero, id, first, commit_change,
    writtenPlan, acquired, Bool.and_true, commitRead]
  cases admitted : earlyCheck call disk with
  | some result => rfl
  | none =>
    simp only [Option.isNone_none, if_true]
    cases loaded : loadLatest runtime call.options disk.change call.events.loadFault with
    | error result =>
      simp only [lockedWrite, plannedWrite, readLatest, loaded, bind, Except.bind, Except.toOption, ite_self]
      rfl
    | ok source =>
      cases source with
      | latest latest =>
        simp only [access_decided_again]
        apply access_decided_change
        simp only [plannedWrite, readLatest, loaded, bind, Except.bind]
      | normalize normalize =>
        have second : accessAgain runtime (.commit call) (disk, .repairing normalize) =
            (disk, commitRepair runtime call normalize disk.change) := rfl
        simp only [second, commitRepair]
        cases repaired : normalizeLatest runtime call.options normalize disk.change call.events.rawReadFault with
        | error result =>
          simp only [lockedWrite, plannedWrite, readLatest, loaded, repaired, bind, Except.bind,
            Except.toOption, ite_self]
          rfl
        | ok latest =>
          apply access_decided_change
          simp only [plannedWrite, readLatest, loaded, repaired, bind, Except.bind]

end

def titled : CommitCall Unit :=
  ⟨.applying (settingField "title" (.str "Search")), .undisturbed "2026-01-01T00:00:00.000Z"⟩

theorem commit_accesses_alone_titled : ((accessAgain .permissive (.commit titled))^[3]
      (freshDisk, .idle)).1.change = (commitChangeProjection .permissive titled freshDisk).2.change :=
  commit_accesses_alone titled freshDisk rfl

end Advance.Storage
