import Advance.Storage.WriterRace

/-! # No update of two writers is lost
-/

namespace Advance.Storage

open Advance.JavaScript Advance.JavaScript.JsVal Advance.Types
open Advance.Foundation

section

variable {Aux : Type}

/-! ## Updates -/

/-- The file holds at a place what the document held there when it was written, or what
    a load of that document made of it. -/
def Carries (runtime : Runtime) (document : JsVal) (place : Place) (file : FileState) : Prop :=
  valueAt place (storedDocument file) = valueAt place document.toJson ∨
    ∃ loaded, Loads runtime (.text (runtime.stringify document)) loaded ∧
      valueAt place (storedDocument file) = valueAt place loaded.toJson

/-- The latest projection a commit works from, when this access gives it one. -/
def Obtains (runtime : Runtime) (call : CommitCall Aux) (phase : Phase) (disk : Disk Aux) (latest : JsVal) : Prop :=
  (phase = .idle ∧ earlyCheck call disk = none ∧
    loadLatest runtime call.options disk.change call.events.loadFault = .ok (.latest latest)) ∨
  ∃ normalize, phase = .repairing normalize ∧
    normalizeLatest runtime call.options normalize disk.change call.events.rawReadFault = .ok latest

/-- In the end the change carries what each operation wrote; and a commit of a new
    operation that expects the revision the file had before the other wrote, and reads
    afterwards, is refused as stale. -/
structure NoLostUpdate (runtime : Runtime) (operations : Side → Operation Aux) (places : Side → List Place)
    (schedule : List Move) (disk : Disk Aux) : Prop where
  kept : ∀ side document,
    (stateAfter (raceStep runtime operations) schedule (.start disk)).phase side = .written document →
    ∀ place ∈ places side, Carries runtime document place
      (stateAfter (raceStep runtime operations) schedule (.start disk)).disk.change
  stale : ∀ step ∈ trace (raceStep runtime operations) schedule (.start disk),
    ∀ side call document latest, step.request = .access side → operations side = .commit call →
    call.options.expectedRevision = some (revisionOf (storedDocument disk.change)) →
    step.before.phase side.other = .written document →
    Obtains runtime call (step.before.phase side) step.before.disk latest →
    checkOperation call.options latest = .ok () →
    ∃ actual, step.after.phase side = .refused (.ok (.staleRevision (revisionOf (storedDocument disk.change)) actual))

/-! ## Sound steps -/

/-- With a store mutator taking part, a write replaces the document its writer read. -/
def ReplacesWhatItRead (operations : Side → Operation Aux) (step : RaceStep Aux) : Prop :=
  ∀ side found document, step.request = .access side →
    step.before.phase side = .writing found document → (operations side).replaces = true →
    (¬(operations side).isCommit ∨ ¬(operations side.other).isCommit) →
    step.before.disk.change = found

/-- A commit that watches a revision does not read after a store mutator has written. -/
def WatchesCommits (operations : Side → Operation Aux) (watched : JsNumber) (step : RaceStep Aux) : Prop :=
  ∀ side call document, step.request = .access side → operations side = .commit call →
    call.options.expectedRevision = some watched →
    (step.before.phase side = .idle ∨ ∃ normalize, step.before.phase side = .repairing normalize) →
    step.before.phase side.other = .written document → (operations side.other).isCommit

structure Sound (operations : Side → Operation Aux) (watched : JsNumber) (step : RaceStep Aux) : Prop where
  replaces : ReplacesWhatItRead operations step
  watches : WatchesCommits operations watched step

end

section

variable {Aux : Type} {runtime : Runtime}

/-! ## The invariant -/

variable {operations : Side → Operation Aux} {places : Side → List Place} {disk : Disk Aux}

theorem Side.other_other (side : Side) : side.other.other = side := by
  cases side <;> rfl

theorem Side.other_ne (side : Side) : side.other ≠ side := by
  cases side <;> decide

theorem Side.eq_or_other (side one : Side) : one = side ∨ one = side.other := by
  cases side <;> cases one <;> decide

def BothCommit (operations : Side → Operation Aux) : Prop := ∀ side, (operations side).isCommit

structure RaceInvariant (runtime : Runtime) (operations : Side → Operation Aux) (places : Side → List Place)
    (disk : Disk Aux) (race : Race Aux) : Prop where
  repairing : ∀ side normalize, race.phase side = .repairing normalize →
    ∃ call, operations side = .commit call ∧ call.options.normalizeLatestProjection = some normalize
  decided : ∀ side found document, race.phase side = .writing found document →
    Decided runtime (operations side) (places side) found document
  fresh : BothCommit operations → ∀ side found document, race.phase side = .writing found document →
    race.disk.change = found
  exclusive : BothCommit operations → ∀ side, (race.phase side).isInside = true →
    (race.phase side.other).isInside = false
  untouched : (∀ side document, race.phase side ≠ .written document) → race.disk.change = disk.change
  alone : ∀ side document, race.phase side = .written document → (∀ other, race.phase side.other ≠ .written other) →
    race.disk.change = .text (runtime.stringify document) ∧ revisionOf (storedDocument race.disk.change) =
        revisionOf (storedDocument disk.change) + if (operations side).isCommit then 1 else 0
  kept : ∀ side document, race.phase side = .written document → ∀ place ∈ places side,
    Carries runtime document place race.disk.change
  id : ∀ id, (storedDocument disk.change).get "id" = .str id → (storedDocument race.disk.change).get "id" = .str id

theorem RaceInvariant.initial : RaceInvariant runtime operations places disk (.start disk) where
  repairing := nofun
  decided := nofun
  fresh := nofun
  exclusive := nofun
  untouched _ := rfl
  alone := nofun
  kept := nofun
  id _ same := same

def Race.moved (race : Race Aux) (side : Side) (next : Phase) : Race Aux :=
  { race with phase := Function.update race.phase side next }

section

variable (race : Race Aux) (side : Side) (next : Phase)
include race side next

@[simp] theorem moved_self :
    (race.moved side next).phase side = next := by
  simp [Race.moved]

@[simp] theorem moved_other :
    (race.moved side next).phase side.other = race.phase side.other := by
  simp [Race.moved, side.other_ne]

@[simp] theorem moved_disk :
    (race.moved side next).disk = race.disk := rfl

end

variable {race : Race Aux} {side : Side}

theorem RaceInvariant.moveOn (invariant : RaceInvariant runtime operations places disk race) {next : Phase}
    (moves : MovesOn runtime (operations side) (places side) race.disk.change (race.phase side) next)
    (outside : BothCommit operations → next.isInside = true → (race.phase side.other).isInside = false) :
    RaceInvariant runtime operations places disk (race.moved side next) := by
  refine ⟨?_, ?_, ?_, ?_, ?_, ?_, ?_, invariant.id⟩
  · intro one normalize repairs
    rcases side.eq_or_other one with rfl | rfl
    · exact moves.repairing normalize (by simpa using repairs)
    · exact invariant.repairing _ normalize (by simpa using repairs)
  · intro one found document writes
    rcases side.eq_or_other one with rfl | rfl
    · obtain ⟨rfl, decided⟩ := moves.decided found document (by simpa using writes)
      exact decided
    · exact invariant.decided _ found document (by simpa using writes)
  · intro both one found document writes
    rcases side.eq_or_other one with rfl | rfl
    · exact (moves.decided found document (by simpa using writes)).1.symm
    · exact invariant.fresh both _ found document (by simpa using writes)
  · intro both one inside
    rcases side.eq_or_other one with rfl | rfl
    · rw [moved_other]
      exact outside both (by simpa using inside)
    · rw [moved_other] at inside
      rw [side.other_other, moved_self]
      cases entered : next.isInside with
      | false => rfl
      | true =>
        rw [outside both entered] at inside
        cases inside
  · intro unwritten
    apply invariant.untouched
    intro one document
    rcases side.eq_or_other one with rfl | rfl
    · exact moves.unwritten document
    · simpa using unwritten side.other document
  · intro one document written
    rcases side.eq_or_other one with rfl | rfl
    · exact absurd (by simpa using written) (moves.unwrittenNext document)
    · intro _
      rw [moved_other] at written
      apply invariant.alone _ document written
      intro other
      rw [side.other_other]
      exact moves.unwritten other
  · intro one document written
    rcases side.eq_or_other one with rfl | rfl
    · exact absurd (by simpa using written) (moves.unwrittenNext document)
    · exact invariant.kept _ document (by simpa using written)

theorem Operation.ActsOn.unreserved {operation : Operation Aux} {places : List Place}
    (acts : operation.ActsOn runtime places) :
    ∀ place ∈ places, ∀ key ∈ ["id", "projection_revision", "projection_commits", "state_revision"],
      Apart place [.member key] := by
  cases operation with
  | store call =>
    subst acts
    intro place member key reserved
    exact places_apart call.mutation (by revert key; decide) place member
  | commit call =>
    have only : MutatesOnly runtime call.options places := acts
    exact only.unreserved

theorem bookkeeping_apart {operation other : Operation Aux} {places : List Place}
    (acts : operation.ActsOn runtime places) {place : Place} (member : place ∈ places) :
    ∀ touched ∈ other.bookkeeping, Apart touched place := by
  intro touched listed
  cases other with
  | store call => cases listed
  | commit call =>
    obtain ⟨key, field, rfl⟩ := List.mem_map.mp listed
    exact apart_symm (acts.unreserved place member key (List.mem_cons_of_mem _ field))

/-- The places of the two operations are apart. -/
def Disjoint (places : Side → List Place) : Prop :=
  ∀ place ∈ places .first, ∀ other ∈ places .second, Apart place other

theorem Disjoint.sides (disjoint : Disjoint places) (side : Side) :
    ∀ place ∈ places side, ∀ other ∈ places side.other, Apart place other := by
  cases side with
  | first => exact disjoint
  | second => exact fun place member other listed => apart_symm (disjoint other listed place member)

theorem carries_over (acts : ∀ side, (operations side).ActsOn runtime (places side))
    (disjoint : Disjoint places) {document otherDocument : JsVal}
    (decided : Decided runtime (operations side) (places side) (.text (runtime.stringify otherDocument))
      document) : ∀ place ∈ places side.other,
      Carries runtime otherDocument place (.text (runtime.stringify document)) := by
  intro place member
  obtain ⟨seen, reads, framed⟩ := decided.framed
  have kept : valueAt place document = valueAt place seen := by
    apply framed
    intro touched listed
    rcases List.mem_append.mp listed with listed | listed
    · exact disjoint.sides side touched listed place member
    · exact bookkeeping_apart (acts side.other) member touched listed
  have same := valueAt_toJson_congr kept
  rw [← stored_stringify runtime document] at same
  rcases reads with rfl | loads
  · refine .inl (same.trans ?_)
    rw [stored_stringify, toJson_toJson]
  · exact .inr ⟨seen, loads, same⟩

variable {found : FileState} {document : JsVal}

theorem RaceInvariant.write (invariant : RaceInvariant runtime operations places disk race)
    (acts : ∀ side, (operations side).ActsOn runtime (places side)) (disjoint : Disjoint places)
    (writing : race.phase side = .writing found document) (replaced : race.disk.change = found) {newDisk : Disk Aux}
    (wrote : newDisk.change = .text (runtime.stringify document)) :
    RaceInvariant runtime operations places disk (Race.moved ⟨newDisk, race.phase⟩ side (.written document)) := by
  have decided := invariant.decided side found document writing
  have stored : storedDocument newDisk.change = document.toJson := by rw [wrote, stored_stringify]
  have unwritten : ∀ other, race.phase side ≠ .written other := by
    intro other same
    rw [writing] at same
    cases same
  refine ⟨?_, ?_, ?_, ?_, ?_, ?_, ?_, ?_⟩
  · intro one normalize repairs
    rcases side.eq_or_other one with rfl | rfl
    · simp at repairs
    · exact invariant.repairing _ normalize (by simpa using repairs)
  · intro one otherFound other writes
    rcases side.eq_or_other one with rfl | rfl
    · simp at writes
    · exact invariant.decided _ otherFound other (by simpa using writes)
  · intro both one otherFound other writes
    rcases side.eq_or_other one with rfl | rfl
    · simp at writes
    · -- the other commit is not inside
      have outside := invariant.exclusive both side (by rw [writing]; rfl)
      rw [moved_other] at writes
      rw [writes] at outside
      cases outside
  · intro both one inside
    rcases side.eq_or_other one with rfl | rfl
    · simp [Phase.isInside] at inside
    · rw [side.other_other, moved_self]
      rfl
  · intro nobody
    exact absurd (moved_self _ side _) (nobody side document)
  · intro one other written otherUnwritten
    rcases side.eq_or_other one with rfl | rfl
    · rw [moved_self] at written
      cases written
      refine ⟨wrote, ?_⟩
      -- it is the first to write, so it has read the file of the start
      have start : race.disk.change = disk.change := by
        apply invariant.untouched
        intro two
        rcases one.eq_or_other two with rfl | rfl
        · exact unwritten
        · simpa using otherUnwritten
      rw [moved_disk, stored, decided.revision, ← replaced, start]
    · exact absurd (by rw [side.other_other, moved_self]) (otherUnwritten document)
  · intro one other written
    rcases side.eq_or_other one with rfl | rfl
    · rw [moved_self] at written
      cases written
      intro place _
      left
      rw [moved_disk, stored]
    · rw [moved_other] at written
      have before := (invariant.alone _ other written (by rw [side.other_other]; exact unwritten)).1
      rw [moved_disk, wrote]
      rw [← replaced, before] at decided
      exact carries_over acts disjoint decided
  · intro id same
    have kept := decided.id
    rw [← replaced, invariant.id id same] at kept
    rw [moved_disk, stored]
    exact get_toJson_eq_str.mpr kept

/-! ## Runs -/

def OwnId (operations : Side → Operation Aux) (disk : Disk Aux) : Prop :=
  ∀ side call, operations side = .store call → (storedDocument disk.change).get "id" = .str call.changeId

theorem found_of_sound (invariant : RaceInvariant runtime operations places disk race) {watched : JsNumber}
    (sound : Sound operations watched (recordOf (raceStep runtime operations) (.access side) race))
    (writing : race.phase side = .writing found document)
    (replaces : (operations side).replaces = true) : race.disk.change = found := by
  by_cases both : BothCommit operations
  · exact invariant.fresh both side found document writing
  · apply sound.replaces side found document rfl writing replaces
    by_contra commits
    simp only [not_or, not_not] at commits
    apply both
    intro one
    rcases side.eq_or_other one with rfl | rfl
    · exact commits.1
    · exact commits.2

theorem raceStep_invariant {move : Move}
    (acts : ∀ side, (operations side).ActsOn runtime (places side)) (disjoint : Disjoint places)
    (own : OwnId operations disk) (sound : Sound operations (revisionOf (storedDocument disk.change))
      (recordOf (raceStep runtime operations) move race))
    (invariant : RaceInvariant runtime operations places disk race) :
    RaceInvariant runtime operations places disk (raceStep runtime operations move race).2 := by
  cases move with
  | giveUp side =>
    simp only [raceStep]
    split
    next call committing idle =>
      refine invariant.moveOn (.ends ?_ (.inr ⟨_, rfl⟩)) nofun
      rw [idle]
      exact nofun
    next => exact invariant
  | access side =>
    simp only [raceStep]
    split
    next => exact invariant
    next admitted =>
      have found := fun found document (writing : race.phase side = .writing found document) =>
        found_of_sound invariant sound writing
      have ownDocument : ∀ call found document, operations side = .store call →
          race.phase side = .writing found document → (operations side).replaces = true →
          document.get "id" = .str call.changeId := by
        intro call file document storing writing replaces
        have decided := invariant.decided side file document writing
        rw [decided.id, ← found file document writing replaces]
        exact invariant.id call.changeId (own side call storing)
      rcases access_cases (acts side) (invariant.repairing side) ownDocument with
        same | ⟨same, moves⟩ | ⟨file, document, writing, replaces, next, wrote⟩
      · rw [same]
        simpa using invariant
      · have moved := invariant.moveOn moves ?_
        · simpa [Race.moved, same] using moved
        · -- the lock is free, or the operation is inside already
          intro both _
          have free : (race.phase side.other).isInside = false := by
            simpa [lockedOut, both side, both side.other] using admitted
          exact free
      · rw [next]
        exact invariant.write acts disjoint writing (found file document writing replaces) wrote

theorem race_invariant (acts : ∀ side, (operations side).ActsOn runtime (places side))
    (disjoint : Disjoint places) (own : OwnId operations disk) {schedule : List Move}
    (sound : ∀ step ∈ trace (raceStep runtime operations) schedule (.start disk),
      Sound operations (revisionOf (storedDocument disk.change)) step) :
    (∀ step ∈ trace (raceStep runtime operations) schedule (.start disk),
      RaceInvariant runtime operations places disk step.before ∧
        RaceInvariant runtime operations places disk step.after) ∧
      RaceInvariant runtime operations places disk
        (stateAfter (raceStep runtime operations) schedule (.start disk)) :=
  trace_guarded (fun _ _ => raceStep_invariant acts disjoint own) sound .initial

variable {call : CommitCall Aux} {latest : JsVal}

theorem decideCommit_stale {file : FileState} {expected : JsNumber}
    (fresh : checkOperation call.options latest = .ok ())
    (expects : call.options.expectedRevision = some expected) (moved : revisionOf latest ≠ expected) :
    decideCommit runtime call file latest = .refused (.ok (.staleRevision expected (revisionOf latest))) := by
  have moved : (latest.get "projection_revision").numberD 0 ≠ expected := moved
  simp only [decideCommit, prepareCommit, fresh, checkExpectedRevision, expects, if_pos moved, bind,
    Except.bind, returns]
  rfl

theorem access_obtains {phase : Phase} {disk : Disk Aux} (obtains : Obtains runtime call phase disk latest) :
    ((Operation.commit call).access runtime phase disk).2 = decideCommit runtime call disk.change latest := by
  rcases obtains with ⟨rfl, admitted, loaded⟩ | ⟨normalize, rfl, repaired⟩
  · simp only [Operation.access, commitRead, admitted, loaded]
  · simp only [Operation.access, commitRepair, repaired]

theorem obtains_revision {places : List Place} {phase : Phase} {disk : Disk Aux}
    (acts : MutatesOnly runtime call.options places) (parser : ∀ normalize, phase = .repairing normalize →
      call.options.normalizeLatestProjection = some normalize) (obtains : Obtains runtime call phase disk latest) :
    revisionOf latest = revisionOf (storedDocument disk.change) := by
  rcases obtains with ⟨_, _, loaded⟩ | ⟨normalize, repairing, repaired⟩
  · rcases loadLatest_ok loaded with ⟨found, same, loads⟩ | ⟨_, same, _⟩
    · cases same
      exact load_revision loads
    · cases same
  · obtain ⟨normalized, repairs, checked⟩ := normalizeLatest_ok repaired
    rw [revisionOf, (acts.repair normalize _ normalized latest (parser normalize repairing) repairs
      checked).get_member (fun place member => acts.unreserved place member _ (by decide)), revisionOf]

theorem store_read_step {call : StoreCall} (storing : operations side = .store call) (idle : race.phase side = .idle)
    (writing : (raceStep runtime operations (.access side) race).2.phase side = .writing found document) :
    (raceStep runtime operations (.access side) race).2.disk.change = found := by
  have admitted : lockedOut operations side race = false := by simp [lockedOut, storing, Operation.isCommit]
  simp only [raceStep, admitted, Bool.false_eq_true, if_false, Function.update_self, storing, idle,
    Operation.access] at writing ⊢
  exact (storeRead_writing writing).1.symm

theorem refused_as_stale {step : RaceStep Aux} (acts : ∀ side, (operations side).ActsOn runtime (places side))
    (served : step = recordOf (raceStep runtime operations) step.request step.before)
    (sound : Sound operations (revisionOf (storedDocument disk.change)) step)
    (invariant : RaceInvariant runtime operations places disk step.before)
    {document latest : JsVal} (request : step.request = .access side) (committing : operations side = .commit call)
    (expects : call.options.expectedRevision = some (revisionOf (storedDocument disk.change)))
    (written : step.before.phase side.other = .written document)
    (obtains : Obtains runtime call (step.before.phase side) step.before.disk latest)
    (fresh : checkOperation call.options latest = .ok ()) : step.after.phase side =
      .refused (.ok (.staleRevision (revisionOf (storedDocument disk.change)) (revisionOf latest))) := by
  have reading : step.before.phase side = .idle ∨ ∃ normalize, step.before.phase side = .repairing normalize := by
    rcases obtains with ⟨idle, _, _⟩ | ⟨normalize, repairing, _⟩
    · exact .inl idle
    · exact .inr ⟨normalize, repairing⟩
  have unwritten : ∀ other, step.before.phase side.other.other ≠ .written other := by
    rw [side.other_other]
    rcases reading with idle | ⟨_, repairing⟩
    · rw [idle]; exact nofun
    · rw [repairing]; exact nofun
  have actsOn : MutatesOnly runtime call.options (places side) := by
    have acts := acts side
    rwa [committing] at acts
  have counted := (invariant.alone side.other document written unwritten).2
  rw [sound.watches side call document request committing expects reading written, if_pos rfl,
    ← obtains_revision actsOn ?_ obtains] at counted
  · have admitted : lockedOut operations side step.before = false := by
      simp [lockedOut, written, Phase.isInside]
    have stale : revisionOf latest ≠ revisionOf (storedDocument disk.change) := by
      rw [counted]
      exact ne_of_gt (lt_add_one _)
    rw [served, request]
    simp only [recordOf, raceStep, admitted, Bool.false_eq_true, if_false, Function.update_self, committing]
    rw [access_obtains obtains]
    exact decideCommit_stale fresh expects stale
  · intro normalize repairing
    obtain ⟨other, same, parser⟩ := invariant.repairing side normalize repairing
    rw [committing] at same
    cases same
    exact parser

/-- Two operations on disjoint places of one change, in any interleaving of their
    accesses whose steps are all sound. -/
theorem no_lost_update (runtime : Runtime) (operations : Side → Operation Aux) (places : Side → List Place)
    (acts : ∀ side, (operations side).ActsOn runtime (places side)) (disjoint : Disjoint places)
    (disk : Disk Aux) (own : OwnId operations disk) (schedule : List Move)
    (sound : ∀ step ∈ trace (raceStep runtime operations) schedule (.start disk),
      Sound operations (revisionOf (storedDocument disk.change)) step) :
    NoLostUpdate runtime operations places schedule disk := by
  obtain ⟨around, final⟩ := race_invariant acts disjoint own sound
  refine ⟨final.kept, ?_⟩
  intro step member side call document latest request committing expects written obtains fresh
  exact ⟨_, refused_as_stale acts (trace_step member) (sound step member) (around step member).1 request
    committing expects written obtains fresh⟩

end

/-! ## Fixed runs -/

def someClock : Clock := ⟨"2026-01-01T00:00:00.000Z", 0, 0⟩

def storeCall (clock : Clock) (mutation : StoreMutation) : StoreCall where
  paths := ⟨"changes", "summaries"⟩
  changeId := "addSearch"
  mutation := mutation
  events := ⟨clock, none, .replaced, .undisturbed "2026-01-01T00:00:00.000Z"⟩

def addTask (sequence : Nat) (content : String) : Operation Unit :=
  .store (storeCall { someClock with sequence := sequence } (.tasksAdd content ⟨none, none, .undefined, none⟩))

def twoTasks : Side → Operation Unit
  | .first => addTask 0 "one"
  | .second => addTask 1 "two"

def twoTaskPlaces : Side → List Place
  | .first => [[.member "tasks", .entry "tk-0-0"]]
  | .second => [[.member "tasks", .entry "tk-0-1"]]

def inTurn : List Move := [.access .first, .access .first, .access .second, .access .second]

def overlapping : List Move := [.access .first, .access .second, .access .first, .access .second]

theorem no_lost_update_in_turn : NoLostUpdate .permissive twoTasks twoTaskPlaces inTurn freshDisk := by
  refine no_lost_update .permissive twoTasks twoTaskPlaces ?_ ?_ freshDisk ?_ inTurn ?_
  · intro side
    cases side
    · change twoTaskPlaces .first = _
      rfl
    · change twoTaskPlaces .second = _
      rfl
  · unfold Disjoint
    decide
  · intro side call same
    cases side <;> cases same <;> rfl
  · intro step member
    have stores : ∀ side call, twoTasks side ≠ .commit call := by
      intro side call same
      cases side <;> cases same
    refine ⟨?_, fun side call _ _ same => absurd same (stores side call)⟩
    simp only [inTurn, trace, List.mem_cons, List.not_mem_nil, or_false] at member
    -- each write comes right after the read of its writer
    rcases member with rfl | rfl | rfl | rfl
    · intro side found document request writing
      cases writing
    · intro side found document request writing _ _
      cases request
      exact store_read_step rfl rfl writing
    · intro side found document request writing _ _
      cases request
      cases writing
    · intro side found document request writing _ _
      cases request
      exact store_read_step rfl rfl writing

def Phase.document : Phase → Option JsVal
  | written document => some document
  | _ => none

def afterOverlap : Race Unit :=
  stateAfter (raceStep .permissive twoTasks) overlapping (.start freshDisk)

def showsTask (place : Place) (document : JsVal) : Bool :=
  valueAt place document.toJson ≠ .undefined &&
    match ChangeSchema Runtime.permissive.fields (normalizeProjectionDocument document.toJson) with
    | .ok loaded => valueAt place loaded.toJson ≠ .undefined
    | .error _ => true

theorem overlapping_adds_lose_one : ¬NoLostUpdate .permissive twoTasks twoTaskPlaces overlapping freshDisk := by
  intro noLoss
  have wrote : ((afterOverlap.phase .first).document.map
      (showsTask [.member "tasks", .entry "tk-0-0"])) = some true := by rfl
  have lost : valueAt [.member "tasks", .entry "tk-0-0"] (storedDocument afterOverlap.disk.change) =
      .undefined := by rfl
  cases written : afterOverlap.phase .first with
  | written document =>
    rw [written] at wrote
    have shows := Option.some.inj wrote
    simp only [showsTask, Bool.and_eq_true, decide_eq_true_eq] at shows
    rcases noLoss.kept .first document written _ (List.mem_singleton_self _) with same | ⟨loaded, loads, same⟩
    · exact shows.1 (same.symm.trans lost)
    · have read := loads.source
      rw [stored_stringify] at read
      rw [read] at shows
      simp only [decide_eq_true_eq] at shows
      exact shows.2 (same.symm.trans lost)
  | _ => rw [written] at wrote; cases wrote

end Advance.Storage
