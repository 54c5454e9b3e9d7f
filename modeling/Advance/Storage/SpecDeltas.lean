import Advance.Foundation.KeyedList
import Advance.JavaScript.Collections
import Advance.Storage.StoreDisk
import Advance.Types.Specs

/-! # The spec-delta operations of the store

Six operations edit the deltas of a change, kept by capability.  The four that append
check for duplicates first; `amend` replaces a delta by another of the same id.
-/

namespace Advance.Types

/-! ## Deltas by capability -/

/-- `{ ...deltas, [capability]: entries }` -/
def ChangeDeltas.set (deltas : ChangeDeltas) (capability : String) (entries : List Delta) : ChangeDeltas where
  entries := JavaScript.mapSet deltas.entries capability entries
  distinct := JavaScript.mapSet_distinct capability entries deltas.distinct

/-- Every delta with its capability. -/
def ChangeDeltas.all (deltas : ChangeDeltas) : List (String × Delta) :=
  deltas.entries.flatMap fun entry => entry.2.map (entry.1, ·)

end Advance.Types

namespace Advance.Storage

open Advance.Foundation Advance.JavaScript Advance.Types

/-! ## Operations -/

inductive SpecDeltaOp where
  | add (capability : String) (delta : DeltaAdd)
  | modify (capability : String) (delta : DeltaModify)
  | amend (capability deltaId : String) (delta : Delta)
  | retract (capability deltaId : String)
  | remove (capability : String) (delta : DeltaRemove)
  | rename (capability : String) (delta : DeltaRename)

def SpecDeltaOp.capability : SpecDeltaOp → String
  | add capability _ | modify capability _ | amend capability _ _ | retract capability _
  | remove capability _ | rename capability _ => capability

/-- What an operation returns. -/
def SpecDeltaOp.result : SpecDeltaOp → Option Delta
  | add _ delta => some (.add delta)
  | modify _ delta => some (.modify delta)
  | amend _ _ delta => some delta
  | retract _ _ => none
  | remove _ delta => some (.remove delta)
  | rename _ delta => some (.rename delta)

/-- Why a call threw: an error of its own, or a `TypeError` of the engine. -/
inductive SpecDeltaError where
  | error (message : String)
  | typeError
  deriving DecidableEq

/-- `deltas[capability] ?? []`, used as an array.  Every object inherits a `constructor`, a
    function. -/
def entriesOf (deltas : ChangeDeltas) (capability : String) : Except SpecDeltaError (List Delta) :=
  match mapGet deltas.entries capability with
  | some entries => .ok entries
  | none => if capability = "constructor" then .error .typeError else .ok []

/-- The first conflict with a delta under any capability. -/
def findConflict (deltas : ChangeDeltas) (conflict : String → Delta → Option String) : Option String :=
  deltas.entries.findSome? fun entry => entry.2.findSome? (conflict entry.1)

def duplicateId (delta : Delta) (existingCapability : String) : String :=
  "Duplicate spec delta id " ++ delta.id ++ " under capability " ++ existingCapability

def appendTo (deltas : ChangeDeltas) (capability : String) (delta : Delta)
    (conflict : String → Delta → Option String) : Except SpecDeltaError ChangeDeltas :=
  match findConflict deltas fun existingCapability entry =>
      if entry.id = delta.id then some (duplicateId delta existingCapability)
      else conflict existingCapability entry with
  | some message => .error (.error message)
  | none =>
    match entriesOf deltas capability with
    | .error failure => .error failure
    | .ok entries => .ok (deltas.set capability (entries ++ [delta]))

def addConflict (delta : DeltaAdd) (existingCapability : String) : Delta → Option String
  | .add entry =>
    if entry.requirement.id = delta.requirement.id then
      some ("Duplicate requirement id " ++ delta.requirement.id ++ " under capability " ++ existingCapability)
    else none
  | _ => none

def modifyConflict (capability : String) (delta : DeltaModify) (existingCapability : String) : Delta → Option String
  | .modify entry =>
    if existingCapability = capability ∧ entry.target_id = delta.target_id then
      some ("Conflicting modify delta target " ++ delta.target_id ++ " under capability " ++ capability)
    else none
  | _ => none

def removeConflict (capability : String) (delta : DeltaRemove) (existingCapability : String) : Delta → Option String
  | .remove entry =>
    if existingCapability = capability ∧ entry.target_id = delta.target_id then
      some ("Conflicting remove delta target " ++ delta.target_id ++ " under capability " ++ capability)
    else none
  | _ => none

def deltaPlace (deltas : ChangeDeltas) (capability deltaId : String) : Except SpecDeltaError (List Delta × Nat) :=
  match entriesOf deltas capability with
  | .error failure => .error failure
  | .ok entries =>
    match entries.findIdx? fun entry => entry.id = deltaId with
    | some index => .ok (entries, index)
    | none =>
      .error (.error ("spec delta " ++ deltaId ++ " not found under capability " ++ capability))

def amendIn (deltas : ChangeDeltas) (capability deltaId : String) (delta : Delta) :
    Except SpecDeltaError ChangeDeltas :=
  match deltaPlace deltas capability deltaId with
  | .error failure => .error failure
  | .ok (entries, index) =>
    if delta.id ≠ deltaId then
      .error (.error ("amend id mismatch: delta.id " ++ delta.id ++ " does not match deltaId " ++ deltaId))
    else .ok (deltas.set capability (entries.set index delta))

def retractFrom (deltas : ChangeDeltas) (capability deltaId : String) : Except SpecDeltaError ChangeDeltas :=
  match deltaPlace deltas capability deltaId with
  | .error failure => .error failure
  | .ok (entries, index) =>
    .ok (deltas.set capability (entries.take index ++ entries.drop (index + 1)))

/-- The deltas an operation writes. -/
def SpecDeltaOp.decide (deltas : ChangeDeltas) : SpecDeltaOp → Except SpecDeltaError ChangeDeltas
  | add capability delta => appendTo deltas capability (.add delta) (addConflict delta)
  | modify capability delta =>
    appendTo deltas capability (.modify delta) (modifyConflict capability delta)
  | amend capability deltaId delta => amendIn deltas capability deltaId delta
  | retract capability deltaId => retractFrom deltas capability deltaId
  | remove capability delta =>
    appendTo deltas capability (.remove delta) (removeConflict capability delta)
  | rename capability delta => appendTo deltas capability (.rename delta) fun _ _ => none

/-! ## A call -/

structure SpecDeltaCall where
  changeId : String
  op : SpecDeltaOp
  loads : Bool
  write : WriteEvent
  publish : Option String

def serveSpecDelta (jsonText : String → String) (call : SpecDeltaCall) (deltas : ChangeDeltas) :
    Except SpecDeltaError (Option Delta) × ChangeDeltas :=
  if !isCapabilityKey call.op.capability then
    (.error (.error ("Malformed capability key: " ++ jsonText call.op.capability)), deltas)
  else if !call.loads then (.error (.error ("Change not found: " ++ call.changeId)), deltas)
  else
    match call.op.decide deltas with
    | .error failure => (.error failure, deltas)
    | .ok next =>
      match call.write, call.publish with
      | .failed error, _ => (.error (.error error), deltas)
      | .replacedThenFailed error, _ => (.error (.error error), next)
      | .replaced, some error => (.error (.error error), next)
      | .replaced, none => (.ok call.op.result, next)

/-! ## What is claimed -/

/-- What no two deltas of a change may share: an id, the id of an added requirement, and
    within a capability the target of a modify or of a remove. -/
inductive DeltaKey where
  | id
  | addedRequirement
  | modifyTarget
  | removeTarget

def DeltaKey.of : DeltaKey → String × Delta → Option (String × String)
  | id, (_, delta) => some ("", delta.id)
  | addedRequirement, (_, .add delta) => some ("", delta.requirement.id)
  | modifyTarget, (capability, .modify delta) => some (capability, delta.target_id)
  | removeTarget, (capability, .remove delta) => some (capability, delta.target_id)
  | _, _ => none

def DeltasApart (deltas : ChangeDeltas) : Prop := ∀ key : DeltaKey, KeyedApart key.of deltas.all

abbrev SpecDeltaStep := Record ChangeDeltas SpecDeltaCall (Except SpecDeltaError (Option Delta))

/-- A call that throws leaves the deltas as they were. -/
def RefusalKeeps (step : SpecDeltaStep) : Prop :=
  ∀ failure, step.response = .error failure → step.after = step.before

/-- The call gets as far as replacing the file, with these deltas in it. -/
structure Writes (call : SpecDeltaCall) (deltas next : ChangeDeltas) : Prop where
  keyed : isCapabilityKey call.op.capability = true
  loaded : call.loads = true
  decided : call.op.decide deltas = .ok next
  replaced : ∀ error, call.write ≠ .failed error

/-- An amend that is written shares no key with another delta, and a call that changes the
    deltas meets no error once they are written. -/
structure SafeSpecDelta (call : SpecDeltaCall) (deltas : ChangeDeltas) : Prop where
  amends : ∀ capability deltaId delta next others, call.op = .amend capability deltaId delta →
    Writes call deltas next → retractFrom deltas capability deltaId = .ok others →
      ∀ key : DeltaKey, FreshIn key.of others.all (capability, delta)
  completes : ∀ next, Writes call deltas next → next ≠ deltas → call.write = .replaced ∧ call.publish = none

/-! ## Where an operation edits -/

theorem entries_set {entries : List (String × List Delta)} (capability : String)
    (distinct : (entries.map Prod.fst).Nodup) : ∃ front back, (∀ next, (mapSet entries capability next).flatMap
        (fun entry => entry.2.map (entry.1, ·)) = front ++ next.map (capability, ·) ++ back) ∧
      entries.flatMap (fun entry => entry.2.map (entry.1, ·)) =
        front ++ ((mapGet entries capability).getD []).map (capability, ·) ++ back := by
  induction entries with
  | nil => exact ⟨[], [], fun next => by simp [mapSet], rfl⟩
  | cons entry entries ih =>
    obtain ⟨absent, distinctRest⟩ := List.nodup_cons.mp distinct
    by_cases here : entry.1 = capability
    · subst here
      refine ⟨[], entries.flatMap fun entry => entry.2.map (entry.1, ·), fun next => ?_, ?_⟩
      · rw [mapSet_cons_same absent]
        rfl
      · rw [mapGet_cons, if_pos rfl]
        rfl
    · obtain ⟨front, back, set, whole⟩ := ih distinctRest
      refine ⟨entry.2.map (entry.1, ·) ++ front, back, fun next => ?_, ?_⟩
      · rw [mapSet_cons_other here, List.flatMap_cons, set]
        simp only [List.append_assoc]
      · rw [mapGet_cons, if_neg here, List.flatMap_cons, whole]
        simp only [List.append_assoc]

variable {deltas next : ChangeDeltas} {capability deltaId : String}

theorem all_set {entries : List Delta} (found : entriesOf deltas capability = .ok entries) :
    ∃ front back, (∀ next, (deltas.set capability next).all = front ++ next.map (capability, ·) ++ back) ∧
      deltas.all = front ++ entries.map (capability, ·) ++ back := by
  have same : (mapGet deltas.entries capability).getD [] = entries := by
    unfold entriesOf at found
    split at found
    next held =>
      cases found
      rw [held]
      rfl
    next absent =>
      split at found
      · cases found
      · cases found
        rw [absent]
        rfl
  rw [← same]
  exact entries_set capability deltas.distinct

theorem deltaPlace_ok {entries : List Delta} {index : Nat}
    (place : deltaPlace deltas capability deltaId = .ok (entries, index)) :
    ∃ front back old, old.id = deltaId ∧ deltas.all = front ++ (capability, old) :: back ∧
      (∀ delta, (deltas.set capability (entries.set index delta)).all = front ++ (capability, delta) :: back) ∧
      (deltas.set capability (entries.take index ++ entries.drop (index + 1))).all = front ++ back := by
  unfold deltaPlace at place
  split at place
  next => cases place
  next found =>
    obtain ⟨front, back, set, whole⟩ := all_set found
    split at place
    next located =>
      cases place
      obtain ⟨bound, sameId, _⟩ := List.findIdx?_eq_some_iff_getElem.mp located
      refine ⟨front ++ (entries.take index).map (capability, ·),
        (entries.drop (index + 1)).map (capability, ·) ++ back, entries[index], ?_, ?_, ?_, ?_⟩
      · exact of_decide_eq_true sameId
      · have split : entries = entries.take index ++ entries[index] :: entries.drop (index + 1) := by
          rw [List.getElem_cons_drop, List.take_append_drop]
        rw [whole]
        conv_lhs => rw [split]
        simp only [List.map_append, List.map_cons, List.append_assoc, List.cons_append]
      · intro delta
        rw [set, List.set_eq_take_append_cons_drop, if_pos bound]
        simp only [List.map_append, List.map_cons, List.append_assoc, List.cons_append]
      · rw [set]
        simp only [List.map_append, List.append_assoc]
    next => cases place

theorem mem_all {entry : String × Delta} :
    entry ∈ deltas.all ↔ ∃ entries, (entry.1, entries) ∈ deltas.entries ∧ entry.2 ∈ entries := by
  simp only [ChangeDeltas.all, List.mem_flatMap, List.mem_map]
  constructor
  · rintro ⟨held, member, delta, inside, rfl⟩
    exact ⟨held.2, member, inside⟩
  · rintro ⟨entries, member, inside⟩
    exact ⟨(entry.1, entries), member, entry.2, inside, rfl⟩

variable {conflict : String → Delta → Option String}

theorem findConflict_none : findConflict deltas conflict = none ↔
      ∀ entry ∈ deltas.all, conflict entry.1 entry.2 = none := by
  simp only [findConflict, List.findSome?_eq_none_iff]
  constructor
  · intro clear entry member
    obtain ⟨entries, held, inside⟩ := mem_all.mp member
    exact clear (entry.1, entries) held entry.2 inside
  · intro clear held member delta inside
    exact clear (held.1, delta) (mem_all.mpr ⟨held.2, member, inside⟩)

variable {delta : Delta}

theorem appendTo_ok (appended : appendTo deltas capability delta conflict = .ok next) :
    (∃ front back, deltas.all = front ++ back ∧ next.all = front ++ (capability, delta) :: back) ∧
      ∀ entry ∈ deltas.all, entry.2.id ≠ delta.id ∧ conflict entry.1 entry.2 = none := by
  unfold appendTo at appended
  split at appended
  next => cases appended
  next clear =>
    split at appended
    next => cases appended
    next entries found =>
      cases appended
      obtain ⟨front, back, set, whole⟩ := all_set found
      refine ⟨⟨front ++ entries.map (capability, ·), back, whole, ?_⟩, ?_⟩
      · rw [set]
        simp only [List.map_append, List.map_cons, List.map_nil, List.append_assoc, List.singleton_append]
      · intro entry member
        have none := findConflict_none.mp clear entry member
        split at none
        next => cases none
        next differs => exact ⟨differs, none⟩

/-! ## What an operation keeps apart -/

/-- The checks of an appending operation notice every key its delta shares. -/
def Notices (capability : String) (delta : Delta) (conflict : String → Delta → Option String) : Prop :=
  ∀ (key : DeltaKey) k existing other, key.of (capability, delta) = some k →
    key.of (existing, other) = some k → other.id = delta.id ∨ conflict existing other ≠ none

theorem notices_add (capability : String) (delta : DeltaAdd) :
    Notices capability (.add delta) (addConflict delta) := by
  intro key k existing other carried same
  cases key with
  | id =>
    cases carried
    exact .inl (congrArg Prod.snd (Option.some.inj same))
  | addedRequirement =>
    cases carried
    cases other with
    | add other =>
      have sameId : other.requirement.id = delta.requirement.id :=
        congrArg Prod.snd (Option.some.inj same)
      exact .inr (by simp [addConflict, sameId])
    | modify | remove | rename => cases same
  | modifyTarget | removeTarget => cases carried

theorem notices_modify (capability : String) (delta : DeltaModify) :
    Notices capability (.modify delta) (modifyConflict capability delta) := by
  intro key k existing other carried same
  cases key with
  | id =>
    cases carried
    exact .inl (congrArg Prod.snd (Option.some.inj same))
  | modifyTarget =>
    cases carried
    cases other with
    | modify other =>
      obtain ⟨sameCapability, sameTarget⟩ := Prod.mk.inj (Option.some.inj same)
      exact .inr (by simp [modifyConflict, sameCapability, sameTarget])
    | add | remove | rename => cases same
  | addedRequirement | removeTarget => cases carried

theorem notices_remove (capability : String) (delta : DeltaRemove) :
    Notices capability (.remove delta) (removeConflict capability delta) := by
  intro key k existing other carried same
  cases key with
  | id =>
    cases carried
    exact .inl (congrArg Prod.snd (Option.some.inj same))
  | removeTarget =>
    cases carried
    cases other with
    | remove other =>
      obtain ⟨sameCapability, sameTarget⟩ := Prod.mk.inj (Option.some.inj same)
      exact .inr (by simp [removeConflict, sameCapability, sameTarget])
    | add | modify | rename => cases same
  | addedRequirement | modifyTarget => cases carried

theorem notices_rename (capability : String) (delta : DeltaRename) :
    Notices capability (.rename delta) (fun _ _ => none) := by
  intro key k existing other carried same
  cases key with
  | id =>
    cases carried
    exact .inl (congrArg Prod.snd (Option.some.inj same))
  | addedRequirement | modifyTarget | removeTarget => cases carried

theorem appended_apart (notices : Notices capability delta conflict)
    (appended : appendTo deltas capability delta conflict = .ok next) (apart : DeltasApart deltas) :
    DeltasApart next := by
  obtain ⟨⟨front, back, whole, edited⟩, clear⟩ := appendTo_ok appended
  intro key
  rw [edited, keyedApart_middle, ← whole]
  refine ⟨fun k carried entry member same => ?_, apart key⟩
  obtain ⟨otherId, unnoticed⟩ := clear entry member
  rcases notices key k entry.1 entry.2 carried same with sameId | noticed
  · exact otherId sameId
  · exact noticed unnoticed

theorem retracted_apart (retracted : retractFrom deltas capability deltaId = .ok next)
    (apart : DeltasApart deltas) : DeltasApart next := by
  unfold retractFrom at retracted
  split at retracted
  next => cases retracted
  next entries index place =>
    cases retracted
    obtain ⟨front, back, old, _, whole, _, without⟩ := deltaPlace_ok place
    intro key
    have before := apart key
    rw [whole, keyedApart_middle] at before
    rw [without]
    exact before.2

theorem amended_apart_iff (amended : amendIn deltas capability deltaId delta = .ok next)
    (apart : DeltasApart deltas) : DeltasApart next ↔ ∃ others, retractFrom deltas capability deltaId = .ok others ∧
      ∀ key : DeltaKey, FreshIn key.of others.all (capability, delta) := by
  unfold amendIn at amended
  split at amended
  next => cases amended
  next entries index place =>
    split at amended
    next => cases amended
    next =>
      cases amended
      obtain ⟨front, back, old, _, whole, edited, without⟩ := deltaPlace_ok place
      have retracted : retractFrom deltas capability deltaId =
          .ok (deltas.set capability (entries.take index ++ entries.drop (index + 1))) := by
        rw [retractFrom, place]
      constructor
      · intro kept
        refine ⟨_, retracted, fun key => ?_⟩
        have after := kept key
        rw [edited, keyedApart_middle] at after
        rw [without]
        exact after.1
      · rintro ⟨others, sameRetract, fresh⟩ key
        cases retracted.symm.trans sameRetract
        have before := apart key
        rw [whole, keyedApart_middle] at before
        rw [edited, keyedApart_middle, ← without]
        exact ⟨fresh key, without ▸ before.2⟩

theorem retracts_of_amends (amended : amendIn deltas capability deltaId delta = .ok next) :
    ∃ others, retractFrom deltas capability deltaId = .ok others := by
  unfold amendIn at amended
  split at amended
  next => cases amended
  next place => exact ⟨_, by rw [retractFrom, place]⟩

/-! ## One call -/

theorem serveSpecDelta_cases (jsonText : String → String) (call : SpecDeltaCall) (deltas : ChangeDeltas) :
    (∃ next, Writes call deltas next ∧ (serveSpecDelta jsonText call deltas).2 = next ∧
      ((∃ failure, (serveSpecDelta jsonText call deltas).1 = .error failure) ↔
        ¬ (call.write = .replaced ∧ call.publish = none))) ∨
    (¬ ∃ next, Writes call deltas next) ∧ (serveSpecDelta jsonText call deltas).2 = deltas := by
  unfold serveSpecDelta
  split
  next malformed =>
    refine .inr ⟨fun ⟨_, writes⟩ => ?_, rfl⟩
    rw [writes.keyed] at malformed
    cases malformed
  next keyed =>
    split
    next missing =>
      refine .inr ⟨fun ⟨_, writes⟩ => ?_, rfl⟩
      rw [writes.loaded] at missing
      cases missing
    next loaded =>
      split
      next failure decided =>
        refine .inr ⟨fun ⟨_, writes⟩ => ?_, rfl⟩
        cases decided.symm.trans writes.decided
      next next decided =>
        have writes : (∀ error, call.write ≠ .failed error) → Writes call deltas next :=
          fun replaced => ⟨by simpa using keyed, by simpa using loaded, decided, replaced⟩
        split
        next failed =>
          exact .inr ⟨fun ⟨_, writes⟩ => writes.replaced _ failed, rfl⟩
        next failed =>
          refine .inl ⟨next, writes (by rw [failed]; nofun), rfl, ?_⟩
          exact iff_of_true ⟨_, rfl⟩ fun done => nomatch failed.symm.trans done.1
        next error replaced failed =>
          refine .inl ⟨next, writes (by rw [replaced]; nofun), rfl, ?_⟩
          exact iff_of_true ⟨_, rfl⟩ fun done => nomatch failed.symm.trans done.2
        next replaced published =>
          refine .inl ⟨next, writes (by rw [replaced]; nofun), rfl, ?_⟩
          exact iff_of_false nofun fun undone => undone ⟨replaced, published⟩

theorem written_apart_iff {call : SpecDeltaCall} (writes : Writes call deltas next) (apart : DeltasApart deltas) :
    DeltasApart next ↔ ∀ capability deltaId delta others, call.op = .amend capability deltaId delta →
      retractFrom deltas capability deltaId = .ok others →
        ∀ key : DeltaKey, FreshIn key.of others.all (capability, delta) := by
  have decided := writes.decided
  cases op : call.op with
  | amend capability deltaId delta =>
    rw [op] at decided
    rw [amended_apart_iff decided apart]
    constructor
    · rintro ⟨others, retracted, fresh⟩ _ _ _ again same sameRetract
      cases same
      cases retracted.symm.trans sameRetract
      exact fresh
    · intro fresh
      obtain ⟨others, retracted⟩ := retracts_of_amends decided
      exact ⟨others, retracted, fresh capability deltaId delta others rfl retracted⟩
  | add capability delta =>
    rw [op] at decided
    refine iff_of_true (appended_apart (notices_add capability delta) decided apart) ?_
    intro _ _ _ _ same
    cases same
  | modify capability delta =>
    rw [op] at decided
    refine iff_of_true (appended_apart (notices_modify capability delta) decided apart) ?_
    intro _ _ _ _ same
    cases same
  | remove capability delta =>
    rw [op] at decided
    refine iff_of_true (appended_apart (notices_remove capability delta) decided apart) ?_
    intro _ _ _ _ same
    cases same
  | rename capability delta =>
    rw [op] at decided
    refine iff_of_true (appended_apart (notices_rename capability delta) decided apart) ?_
    intro _ _ _ _ same
    cases same
  | retract capability deltaId =>
    rw [op] at decided
    refine iff_of_true (retracted_apart decided apart) ?_
    intro _ _ _ _ same
    cases same

/-! ## Runs -/

def noDeltas : ChangeDeltas := ⟨[], List.nodup_nil⟩

theorem noDeltas_apart : DeltasApart noDeltas := fun _ => keyedApart_nil

/-- In every state of a run from a change without deltas the deltas are apart, and every
    call that throws has left them alone, just if every call is safe. -/
theorem deltas_apart_iff (jsonText : String → String) (calls : List SpecDeltaCall) :
    (∀ step ∈ trace (serveSpecDelta jsonText) calls noDeltas,
      DeltasApart step.before ∧ DeltasApart step.after ∧ RefusalKeeps step) ↔
    ∀ step ∈ trace (serveSpecDelta jsonText) calls noDeltas, SafeSpecDelta step.request step.before := by
  constructor
  · intro kept step member
    obtain ⟨before, after, refusal⟩ := kept step member
    have served := trace_step member
    rcases serveSpecDelta_cases jsonText step.request step.before with
      ⟨next, writes, stored, failing⟩ | ⟨unwritten, _⟩
    · have left : step.after = next := by
        rw [served]
        exact stored
      refine ⟨fun capability deltaId delta again others isAmend _ retracted => ?_, ?_⟩
      · rw [left] at after
        exact (written_apart_iff writes before).mp after capability deltaId delta others isAmend retracted
      · intro again written differs
        cases writes.decided.symm.trans written.decided
        by_contra undone
        obtain ⟨failure, failed⟩ := failing.mpr undone
        have response : step.response = .error failure := by
          rw [served]
          exact failed
        exact differs (left.symm.trans (refusal failure response))
    · exact ⟨fun _ _ _ next _ _ writes => absurd ⟨next, writes⟩ unwritten,
        fun next writes => absurd ⟨next, writes⟩ unwritten⟩
  · intro safe
    have preserved : ∀ call deltas, SafeSpecDelta (recordOf (serveSpecDelta jsonText) call deltas).request
          (recordOf (serveSpecDelta jsonText) call deltas).before →
        DeltasApart deltas → DeltasApart (serveSpecDelta jsonText call deltas).2 := by
      intro call deltas good apart
      rcases serveSpecDelta_cases jsonText call deltas with
        ⟨next, writes, stored, _⟩ | ⟨_, unchanged⟩
      · rw [stored]
        refine (written_apart_iff writes apart).mpr ?_
        intro capability deltaId delta others isAmend retracted
        exact good.amends capability deltaId delta next others isAmend writes retracted
      · rw [unchanged]
        exact apart
    intro step member
    obtain ⟨before, after⟩ := (trace_guarded preserved safe noDeltas_apart).1 step member
    refine ⟨before, after, fun failure failed => ?_⟩
    have served := trace_step member
    have good := safe step member
    rw [served] at failed ⊢
    rcases serveSpecDelta_cases jsonText step.request step.before with
      ⟨next, writes, stored, failing⟩ | ⟨_, unchanged⟩
    · show (serveSpecDelta jsonText step.request step.before).2 = step.before
      rw [stored]
      by_contra differs
      exact failing.mp ⟨failure, failed⟩ (good.completes next writes differs)
    · exact unchanged

/-! ## Fixed runs -/

def addedDelta (id requirementId : String) : DeltaAdd where
  id := id
  requirement :=
    { id := requirementId, title := "Search", body := "Find things", priority := .must
      tags := none, scenarios := none, metadata := none, extension := .empty }

def undisturbedCall (op : SpecDeltaOp) : SpecDeltaCall := ⟨"addSearch", op, true, .replaced, none⟩

def amendedToFirst : List SpecDeltaCall :=
  [.add "search" (addedDelta "dl-1" "rq-search01"), .add "search" (addedDelta "dl-2" "rq-search02"),
    .amend "search" "dl-2" (.add (addedDelta "dl-2" "rq-search01"))].map undisturbedCall

/-- All three calls succeed, and two deltas add the one requirement. -/
theorem requirement_added_twice :
    (trace (serveSpecDelta id) amendedToFirst noDeltas).map (fun step => step.response.isOk) =
      [true, true, true] ∧ (stateAfter (serveSpecDelta id) amendedToFirst noDeltas).all.filterMap
      (DeltaKey.of .addedRequirement) = [("", "rq-search01"), ("", "rq-search01")] ∧
    ¬ ∀ step ∈ trace (serveSpecDelta id) amendedToFirst noDeltas,
      DeltasApart step.before ∧ DeltasApart step.after ∧ RefusalKeeps step := by
  have doubled : (stateAfter (serveSpecDelta id) amendedToFirst noDeltas).all.filterMap
      (DeltaKey.of .addedRequirement) = [("", "rq-search01"), ("", "rq-search01")] := by rfl
  refine ⟨by rfl, doubled, fun kept => ?_⟩
  have last := (kept (recordOf (serveSpecDelta id)
    (undisturbedCall (.amend "search" "dl-2" (.add (addedDelta "dl-2" "rq-search01"))))
    (stateAfter (serveSpecDelta id) (amendedToFirst.take 2) noDeltas))
    (by simp [amendedToFirst, trace])).2.1
  have apart : KeyedApart (DeltaKey.of .addedRequirement)
      (stateAfter (serveSpecDelta id) amendedToFirst noDeltas).all := last .addedRequirement
  rw [KeyedApart, doubled] at apart
  exact absurd apart (by decide)

end Advance.Storage
