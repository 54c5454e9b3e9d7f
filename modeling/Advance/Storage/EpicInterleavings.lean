import Advance.Storage.EpicWriters

/-! # The Epic invariant under interleavings

Creations and mutations of one Epic take its lock.  Their steps come in any order, and any
of their reads and writes may fail.
-/

namespace Advance.Storage

open Advance.Foundation Advance.JavaScript Advance.Types
open EpicDiskOps

variable {ι : Type} [DecidableEq ι] {epicId : String} {writers : ι → LockedWriter} {race : EpicRace ι} {i : ι}
  {phase : WriterPhase} {stored : Option Epic} {value : EpicValue} {candidate : Epic}

/-- Who is inside holds the lock, and who is about to write has decided on what is stored. -/
structure LockedSound (epicId : String) (writers : ι → LockedWriter) (race : EpicRace ι) : Prop where
  holder : ∀ i, (race.phase i).isInside = true → race.holder = some i
  decided : ∀ i found value candidate, race.phase i = .writing found value candidate →
    (writers i).decide epicId race.stored = .writing value candidate

/-- The writer does not promote a shell to a change that is linked already. -/
def LinksApart (writer : LockedWriter) (stored : Option Epic) : Prop :=
  ∀ call epic, writer = .mutate call → stored = some epic → promotesLinkedChange epic call.request = false

/-- If the step writes, it links no change twice. -/
def WritesApart (writers : ι → LockedWriter) (step : Record (EpicRace ι) ι Unit) : Prop :=
  ∀ found value candidate, step.before.phase step.request = .writing found value candidate →
    (writers step.request).faults.save = none → LinksApart (writers step.request) step.before.stored

def StoredSound (race : EpicRace ι) : Prop := ∀ epic, race.stored = some epic → EpicInvariant epic

/-! ## What is written -/

theorem mutation_candidate {call : EpicCall} {latest : Epic}
    (decided : mutationDecision epicId call (some latest) = .writing value candidate) :
    mutateEpic { call with faults := noDiskFaults } latest = (.changed value, candidate) := by
  unfold mutationDecision at decided
  split at decided
  · cases decided
  next absent => cases absent
  next present =>
    cases present
    split at decided
    next changed =>
      cases decided
      simpa [mutateEpic, noDiskFaults] using changed
    next => cases decided

/-- What is written keeps the invariant exactly when it links no change twice. -/
theorem candidate_sound_iff {writer : LockedWriter} (decided : writer.decide epicId stored = .writing value candidate)
    (sound : ∀ epic, stored = some epic → EpicInvariant epic) :
    EpicInvariant candidate ↔ LinksApart writer stored := by
  cases writer with
  | create creation =>
    refine iff_of_true ?_ fun _ _ other => nomatch other
    simp only [LockedWriter.decide, EpicCreation.decide] at decided
    split at decided
    case h_5 =>
      split at decided
      · cases decided
      · obtain ⟨-, rfl⟩ := LockedDecision.writing.inj decided
        exact invariant_created ..
    all_goals cases decided
  | mutate call =>
    obtain ⟨latest, rfl, -⟩ := mutationDecision_writing decided
    have mutated := mutation_candidate decided
    constructor
    · intro kept other epic same present
      obtain rfl := LockedWriter.mutate.inj same
      obtain rfl := Option.some.inj present
      rcases mutateEpic_cases { call with faults := noDiskFaults } latest with ⟨-, _, done, -⟩ | ⟨-, -, unchanged⟩
      · rw [mutated] at done
        by_contra linked
        exact promoted_twice (Bool.not_eq_false _ ▸ linked) done kept.changeIds
      · rw [mutated] at unchanged
        cases unchanged
    · intro apart
      have kept := @invariant_kept latest { call with faults := noDiskFaults } (fun _ => apart call latest rfl rfl)
        (sound latest rfl)
      rwa [mutated] at kept

/-! ## One step -/

omit [DecidableEq ι] in
theorem LockedSound.alone (sound : LockedSound epicId writers race) (inside : (race.phase i).isInside = true)
    {j : ι} (differs : j ≠ i) : (race.phase j).isInside = false := by
  by_contra both
  exact differs (Option.some.inj ((sound.holder j (by simpa using both)).symm.trans (sound.holder i inside)))

theorem LockedSound.move (sound : LockedSound epicId writers race) {holder : Option ι}
    (holds : ∀ j, ((race.goto i phase).phase j).isInside = true → holder = some j)
    (decided : ∀ found value candidate, phase = .writing found value candidate →
      (writers i).decide epicId race.stored = .writing value candidate) :
    LockedSound epicId writers { race.goto i phase with holder := holder } where
  holder := holds
  decided := forall_goto (P := fun j phase => ∀ found value candidate, phase = .writing found value candidate →
    (writers j).decide epicId race.stored = .writing value candidate) decided fun j _ => sound.decided j

theorem LockedSound.goto (sound : LockedSound epicId writers race)
    (inside : phase.isInside = true → (race.phase i).isInside = true)
    (decided : ∀ found value candidate, phase = .writing found value candidate →
      (writers i).decide epicId race.stored = .writing value candidate) :
    LockedSound epicId writers (race.goto i phase) :=
  sound.move (forall_goto (P := fun j phase => phase.isInside = true → race.holder = some j)
    (fun entered => sound.holder i (inside entered)) fun j _ => sound.holder j) decided

theorem lockedStep_sound (sound : LockedSound epicId writers race) :
    LockedSound epicId writers (lockedStep epicId (writers i) i race) := by
  unfold lockedStep
  split
  next waiting =>
    split
    next free =>
      refine sound.move (forall_goto (P := fun j phase => phase.isInside = true → some i = some j)
        (fun _ => rfl) fun j _ entered => ?_) fun _ _ _ writes => by cases writes
      rw [sound.holder j entered] at free
      cases free
    next => exact sound
  next locked =>
    have inside : (race.phase i).isInside = true := by rw [locked]; rfl
    split
    next => exact sound.goto (fun _ => inside) fun _ _ _ writes => by cases writes
    next decided =>
      refine sound.goto (fun _ => inside) fun _ _ _ writes => ?_
      cases writes
      exact decided
  next found value candidate writing =>
    have inside : (race.phase i).isInside = true := by rw [writing]; rfl
    split
    next => exact sound.goto (fun _ => inside) fun _ _ _ writes => by cases writes
    next =>
      -- Nobody else is about to write on the Epic that is replaced.
      have entered : ∀ j, ((race.goto i (.verifying value candidate)).phase j).isInside = true → race.holder = some j :=
        forall_goto (P := fun j phase => phase.isInside = true → race.holder = some j) (fun _ => sound.holder i inside)
          fun j _ => sound.holder j
      refine ⟨entered, fun j found other candidate writes => ?_⟩
      by_cases same : j = i
      · subst same
        simp [EpicRace.store, EpicRace.goto] at writes
      · have outside := sound.alone inside same
        simp only [EpicRace.store, EpicRace.goto, Function.update_of_ne same] at writes
        rw [writes] at outside
        cases outside
  next verifying =>
    exact sound.goto (fun _ => by rw [verifying]; rfl) fun _ _ _ writes => by cases writes
  next leaving =>
    refine sound.move (forall_goto (P := fun j phase => phase.isInside = true → none = some j)
      (fun entered => by cases entered) fun j differs entered => ?_) fun _ _ _ writes => by cases writes
    rw [sound.alone (by rw [leaving]; rfl) differs] at entered
    cases entered
  all_goals exact sound

theorem stored_sound_iff (locked : LockedSound epicId writers race) (sound : StoredSound race) :
    StoredSound (lockedStep epicId (writers i) i race) ↔ ∀ found value candidate,
      race.phase i = .writing found value candidate → (writers i).faults.save = none →
        LinksApart (writers i) race.stored := by
  cases phase : race.phase i with
  | writing found value candidate =>
    have kept := candidate_sound_iff (locked.decided i found value candidate phase) sound
    simp only [lockedStep, phase]
    cases saved : (writers i).faults.save with
    | some error => exact iff_of_true sound fun _ _ _ _ absent => by cases absent
    | none =>
      refine ⟨fun stored _ _ _ _ _ => kept.mp (stored candidate rfl), fun apart epic present => ?_⟩
      obtain rfl := Option.some.inj present
      exact kept.mpr (apart found value _ rfl rfl)
  | waiting | locked =>
    refine iff_of_true ?_ fun _ _ _ writes => by cases writes
    simp only [lockedStep, phase]
    split <;> exact sound
  | verifying | leaving | readOnce | readTwice | saved | finished =>
    refine iff_of_true ?_ fun _ _ _ writes => by cases writes
    simp only [lockedStep, phase]
    exact sound

/-- In every interleaving, whatever fails on the way, the stored Epic satisfies its invariant after each step
    exactly when no write links a change twice. -/
theorem interleaved_invariant_iff (epicId : String) (writers : ι → LockedWriter) (schedule : List ι)
    {start : Option Epic} (sound : ∀ epic, start = some epic → EpicInvariant epic) :
    (∀ step ∈ trace (writerStep epicId fun i => .locked (writers i)) schedule (.start start), StoredSound step.after) ↔
      ∀ step ∈ trace (writerStep epicId fun i => .locked (writers i)) schedule (.start start),
        WritesApart writers step := by
  have idle : LockedSound epicId writers (.start start) :=
    ⟨fun _ inside => (by cases inside), fun _ _ _ _ writes => by cases writes⟩
  refine trace_exact (I := LockedSound epicId writers) (P := StoredSound) (Q := WritesApart writers)
    (fun i race locked => ?_) (fun i race locked stored => ?_) idle sound
  · exact lockedStep_sound locked
  · exact stored_sound_iff locked stored

/-! ## Fixed runs -/

def founder (second : Bool) : LockedWriter :=
  .create ⟨if second then "Search" else "Find", "", none, "2026-01-01", .absent, noDiskFaults⟩

theorem founders_keep_invariant : ¬∃ step ∈ trace (writerStep "searchEpic" fun second => .locked (founder second))
    [false, true, false, false, false, false, true, true, true] (.start none), ¬StoredSound step.after :=
  fun ⟨step, member, broken⟩ => broken
    ((@interleaved_invariant_iff _ _ "searchEpic" founder _ none fun _ absent => nomatch absent).mpr
      (fun _ _ _ _ _ _ _ _ _ created => nomatch created) step member)

end Advance.Storage
