import Advance.Tools.ArchiveHelpers.ConflictLoop

/-! # What the navigation reports

The loop over the conflicts of a rebase, for any way of prompting, applying and resolving: each
dependency answers from a world it may change.
-/

namespace Advance.Tools

/-- The injected dependencies of `navigateConflicts`. -/
structure NavigateConflictsDeps (World : Type) where
  prompt : String → World → String × World
  apply : ResolveAction → String → World → ResolveActionResult × World
  resolveDivergent : ConflictRecord → World → ResolveAction × World

section

variable {World : Type} (deps : NavigateConflictsDeps World)

/-- The mode of the first reply that names one, of the attempts that are left. -/
def promptMode (summary : String) : Nat → World → Option NavigationMode × World
  | 0, world => (none, world)
  | attempts + 1, world =>
    let (reply, world) := deps.prompt summary world
    match parseMode reply with
    | some mode => (some mode, world)
    | none => promptMode summary attempts world

/-- How a mode finds the action of a conflict, and whether its user chose it. -/
abbrev ActionChoice (World : Type) := ConflictRecord → World → (ResolveAction × Bool) × World

def autoChoice : ActionChoice World := fun conflict world =>
  if conflict.classification.conflictClass = .divergentContent then
    let (action, world) := deps.resolveDivergent conflict world
    ((action, true), world)
  else ((buildAutoAction conflict, false), world)

def stepChoice : ActionChoice World := fun conflict world =>
  let (action, world) := deps.resolveDivergent conflict world
  ((action, true), world)

/-- The loop of a mode; `unresolved` is what it lists of the conflicts after the current one. -/
def resolveConflicts (mode : NavigationMode) (choose : ActionChoice World)
    (unresolved : List ConflictRecord → Option (List ConflictRecord)) :
    List ConflictRecord → List Applied → World → NavigationResult × World
  | [], applied, world => ({ ok := true, mode, applied }, world)
  | conflict :: rest, applied, world =>
    let ((action, chosen), world) := choose conflict world
    if chosen && action.isAbort then
      match deps.apply action conflict.filePath world with
      | (.ok _ auditEntry, world) =>
        ({ ok := false, mode, applied := applied ++ [⟨conflict.filePath, "abort_rebase", auditEntry⟩]
           aborted := some "abort_rebase", unresolved := unresolved rest }, world)
      | (.failed _ _, world) =>
        ({ ok := false, mode, applied, aborted := some "abort_rebase", unresolved := unresolved rest }, world)
    else
      match deps.apply action conflict.filePath world with
      | (.failed _ _, world) =>
        ({ ok := false, mode, applied, aborted := some "apply_failed", unresolved := unresolved rest }, world)
      | (.ok kind auditEntry, world) =>
        resolveConflicts mode choose unresolved rest (applied ++ [⟨conflict.filePath, kind, auditEntry⟩]) world

def abortConflicts (world : World) : NavigationResult × World :=
  match deps.apply (.abortRebase "user-requested abort") "" world with
  | (.ok _ auditEntry, world) =>
    ({ ok := true, mode := .abort, applied := [⟨"", "abort_rebase", auditEntry⟩] }, world)
  | (.failed _ _, world) => ({ ok := false, mode := .abort, applied := [], aborted := some "apply_failed" }, world)

/-- `navigateConflicts` for any dependencies. -/
def navigate (conflicts : List ConflictRecord) (world : World) : NavigationResult × World :=
  if conflicts.isEmpty then ({ ok := true, mode := .auto, applied := [] }, world)
  else
    match promptMode deps (buildBatchSummary conflicts) 3 world with
    | (none, world) => ({ ok := false, mode := .abort, applied := [], aborted := some "ambiguous_reply" }, world)
    | (some .abort, world) => abortConflicts deps world
    | (some .auto, world) => resolveConflicts deps .auto (autoChoice deps) (fun _ => none) conflicts [] world
    | (some .step, world) => resolveConflicts deps .step (stepChoice deps) some conflicts [] world

end

/-! ## Over git -/

/-- The rebase, how many actions have been applied and how many prompts asked. -/
structure ArchiveWorld where
  rebase : Rebase
  actions : Nat
  asked : Nat

def archiveDeps (prompt : String → Nat → String) (resolveDivergent : ConflictRecord → ResolveAction)
    (faults : Nat → ActionFaults) : NavigateConflictsDeps ArchiveWorld where
  prompt message world := (prompt message world.asked, { world with asked := world.asked + 1 })
  apply action filePath world :=
    let (result, rebase) := applyResolveAction action filePath (faults world.actions) world.rebase
    (result, { world with rebase, actions := world.actions + 1 })
  resolveDivergent conflict world := (resolveDivergent conflict, world)

section

variable {prompt : String → Nat → String} {resolveDivergent : ConflictRecord → ResolveAction}
  {faults : Nat → ActionFaults}

theorem promptMode_archive (summary : String) (attempts : Nat) (world : ArchiveWorld) :
    ∃ asked, promptMode (archiveDeps prompt resolveDivergent faults) summary attempts world =
      (askMode prompt summary attempts world.asked, { world with asked }) := by
  induction attempts generalizing world with
  | zero => exact ⟨world.asked, rfl⟩
  | succ attempts ih =>
    simp only [promptMode, askMode, archiveDeps]
    cases parseMode (prompt summary world.asked) with
    | some mode => exact ⟨world.asked + 1, rfl⟩
    | none =>
      obtain ⟨asked, later⟩ := ih { world with asked := world.asked + 1 }
      exact ⟨asked, later⟩

theorem applyResolveAction_kind {action : ResolveAction} {filePath kind auditEntry : String}
    {actionFaults : ActionFaults} {rebase after : Rebase}
    (applied : applyResolveAction action filePath actionFaults rebase = (.ok kind auditEntry, after)) :
    kind = action.kind := by
  cases action <;> simp only [applyResolveAction, single, resolveInPlace] at applied <;>
    (repeat' split at applied) <;> simp_all

theorem resolveConflicts_archive (mode : NavigationMode) {choose : ActionChoice ArchiveWorld}
    {picked : ConflictRecord → ResolveAction × Bool}
    (same : ∀ conflict world, choose conflict world = (picked conflict, world))
    (unresolved : List ConflictRecord → Option (List ConflictRecord)) (conflicts : List ConflictRecord)
    (applied : List Applied) (world : ArchiveWorld) (counted : world.actions = applied.length) :
    let run := resolveConflicts (archiveDeps prompt resolveDivergent faults) mode choose unresolved conflicts
      applied world
    (run.1, run.2.rebase) = resolveEach mode picked unresolved faults conflicts applied world.rebase := by
  induction conflicts generalizing applied world with
  | nil => rfl
  | cons conflict rest ih =>
    simp only [resolveConflicts, resolveEach, same, archiveDeps, counted]
    cases performed : applyResolveAction (picked conflict).1 conflict.filePath (faults applied.length)
        world.rebase with
    | mk result after =>
      by_cases aborts : ((picked conflict).2 && (picked conflict).1.isAbort) = true
      · cases result with
        | failed error detail => simp [aborts]
        | ok kind auditEntry =>
          -- an applied abort is recorded under its own kind
          have kept : kind = "abort_rebase" := by
            rw [applyResolveAction_kind performed]
            have abort := (Bool.and_eq_true _ _ |>.mp aborts).2
            cases action : (picked conflict).1 <;> simp_all [ResolveAction.isAbort, ResolveAction.kind]
          simp [aborts, kept]
      · cases result with
        | failed error detail => simp [aborts]
        | ok kind auditEntry =>
          simp only [aborts]
          exact ih (applied ++ [⟨conflict.filePath, kind, auditEntry⟩]) ⟨after, applied.length + 1, world.asked⟩
            (by simp)

end

/-- The navigation over git is the one of any dependencies, at those that act on a rebase. -/
theorem navigateConflicts_eq (conflicts : List ConflictRecord) (prompt : String → Nat → String)
    (resolveDivergent : ConflictRecord → ResolveAction) (faults : Nat → ActionFaults) (rebase : Rebase) :
    let run := navigate (archiveDeps prompt resolveDivergent faults) conflicts ⟨rebase, 0, 0⟩
    (run.1, run.2.rebase) = navigateConflicts conflicts prompt resolveDivergent faults rebase := by
  unfold navigate navigateConflicts
  by_cases empty : conflicts.isEmpty
  · simp [empty]
  · simp only [empty]
    obtain ⟨asked, mode⟩ := @promptMode_archive prompt resolveDivergent faults (buildBatchSummary conflicts) 3
      ⟨rebase, 0, 0⟩
    rw [mode]
    cases askMode prompt (buildBatchSummary conflicts) 3 0 with
    | none => rfl
    | some mode =>
      cases mode with
      | auto =>
        refine resolveConflicts_archive .auto (fun conflict world => ?_) _ conflicts [] ⟨rebase, 0, asked⟩ rfl
        simp only [autoChoice, chooseAction, archiveDeps]
        split <;> rfl
      | step =>
        refine resolveConflicts_archive .step (fun conflict world => ?_) _ conflicts [] ⟨rebase, 0, asked⟩ rfl
        rfl
      | abort =>
        simp only [abortConflicts, abortAll, archiveDeps]
        cases performed : applyResolveAction (.abortRebase "user-requested abort") "" (faults 0) rebase with
        | mk result after => cases result <;> simp

/-! ## What a result reports -/

def FailedOn {World : Type} (deps : NavigateConflictsDeps World) (conflict : ConflictRecord) : Prop :=
  ∃ action world error detail, (deps.apply action conflict.filePath world).1 = .failed error detail

structure LoopLeft {World : Type} (deps : NavigateConflictsDeps World) (mode : NavigationMode)
    (unresolved : List ConflictRecord → Option (List ConflictRecord)) (conflicts : List ConflictRecord)
    (before : List Applied) (result : NavigationResult) (done rest : List ConflictRecord) : Prop where
  split : conflicts = done ++ rest
  mode : result.mode = mode
  applied : ∃ entries, result.applied = before ++ entries ∧
    entries.map Applied.filePath = done.map ConflictRecord.filePath
  stopped :
    -- all are applied,
    (result.ok = true ∧ rest = [] ∧ result.unresolved = none) ∨
    -- the user gave up at the last applied one,
    (result.ok = false ∧ result.aborted = some "abort_rebase" ∧ result.unresolved = unresolved rest) ∨
    -- or the first of the rest failed
    (result.ok = false ∧ ∃ conflict later, rest = conflict :: later ∧ FailedOn deps conflict ∧
      result.unresolved = unresolved later)

section

variable {World : Type} {deps : NavigateConflictsDeps World} {mode : NavigationMode}
  {unresolved : List ConflictRecord → Option (List ConflictRecord)}

theorem LoopLeft.cons {conflict : ConflictRecord} {rest done left : List ConflictRecord} {before : List Applied}
    {entry : Applied} (names : entry.filePath = conflict.filePath) {result : NavigationResult}
    (loop : LoopLeft deps mode unresolved rest (before ++ [entry]) result done left) :
    LoopLeft deps mode unresolved (conflict :: rest) before result (conflict :: done) left := by
  obtain ⟨entries, applied, paths⟩ := loop.applied
  exact
    { split := by rw [loop.split, List.cons_append]
      mode := loop.mode
      applied := ⟨entry :: entries, by simp [applied], by simp [paths, names]⟩
      stopped := loop.stopped }

theorem resolveConflicts_left (choose : ActionChoice World) (conflicts : List ConflictRecord)
    (before : List Applied) (world : World) : ∃ done rest, LoopLeft deps mode unresolved conflicts before
      (resolveConflicts deps mode choose unresolved conflicts before world).1 done rest := by
  induction conflicts generalizing before world with
  | nil => exact ⟨[], [], rfl, rfl, ⟨[], by simp [resolveConflicts]⟩, .inl ⟨rfl, rfl, rfl⟩⟩
  | cons conflict rest ih =>
    rcases choice : choose conflict world with ⟨⟨action, chosen⟩, picked⟩
    rcases performed : deps.apply action conflict.filePath picked with ⟨result, after⟩
    simp only [resolveConflicts, choice, performed]
    by_cases aborts : (chosen && action.isAbort) = true
    · cases result with
      | ok kind auditEntry =>
        refine ⟨[conflict], rest, by simp, by simp [aborts], ⟨[_], by simp [aborts]; rfl, rfl⟩, .inr (.inl ?_)⟩
        simp [aborts]
      | failed error detail =>
        refine ⟨[], conflict :: rest, by simp, by simp [aborts], ⟨[], by simp [aborts]⟩, .inr (.inr ?_)⟩
        exact ⟨by simp [aborts], conflict, rest, rfl, ⟨action, picked, error, detail, by rw [performed]⟩,
          by simp [aborts]⟩
    · cases result with
      | ok kind auditEntry =>
        simp only [aborts]
        obtain ⟨done, left, loop⟩ := ih (before ++ [⟨conflict.filePath, kind, auditEntry⟩]) after
        exact ⟨conflict :: done, left, loop.cons rfl⟩
      | failed error detail =>
        refine ⟨[], conflict :: rest, by simp, by simp [aborts], ⟨[], by simp [aborts]⟩, .inr (.inr ?_)⟩
        exact ⟨by simp [aborts], conflict, rest, rfl, ⟨action, picked, error, detail, by rw [performed]⟩,
          by simp [aborts]⟩

end

/-- What a result tells of the conflicts: those applied come first in the list, each once; those it
    lists as unresolved are among the others. -/
structure ConflictsAccounted {World : Type} (deps : NavigateConflictsDeps World)
    (conflicts : List ConflictRecord) (result : NavigationResult) : Prop where
  each : result.mode ≠ .abort → ∃ done rest, conflicts = done ++ rest ∧
    result.applied.map Applied.filePath = done.map ConflictRecord.filePath ∧
      (∀ left, result.unresolved = some left → left <:+ rest) ∧
      (result.ok = true → rest = []) ∧
      (rest = [] ∨ (∃ conflict later, rest = conflict :: later ∧ FailedOn deps conflict) ∨
        (result.aborted = some "abort_rebase" ∧ (result.mode = .step → result.unresolved = some rest)))
  whole : result.mode = .abort → result.unresolved = none ∧
    (result.ok = true → ∃ auditEntry, result.applied = [⟨"", "abort_rebase", auditEntry⟩]) ∧
      (result.ok = false → result.applied = [])

theorem accounted_of_loop {World : Type} {deps : NavigateConflictsDeps World} {mode : NavigationMode}
    {unresolved : List ConflictRecord → Option (List ConflictRecord)} {conflicts done rest : List ConflictRecord}
    {result : NavigationResult} (listed : ∀ later left, unresolved later = some left → left = later)
    (stepwise : mode = .step → unresolved = some) (working : mode ≠ .abort)
    (loop : LoopLeft deps mode unresolved conflicts [] result done rest) :
    ConflictsAccounted deps conflicts result := by
  obtain ⟨entries, applied, paths⟩ := loop.applied
  have paths : result.applied.map Applied.filePath = done.map ConflictRecord.filePath := by
    rw [applied, List.nil_append, paths]
  refine ⟨fun _ => ⟨done, rest, loop.split, paths, ?_⟩, fun aborted => absurd (loop.mode ▸ aborted) working⟩
  rcases loop.stopped with
    ⟨ok, none_left, unlisted⟩ | ⟨failed, gave_up, told⟩ | ⟨failed, conflict, later, cut, failing, told⟩
  · exact ⟨by simp [unlisted], fun _ => none_left, .inl none_left⟩
  · refine ⟨fun left lists => ?_, by simp [failed], .inr (.inr ⟨gave_up, fun step => ?_⟩)⟩
    · obtain rfl := listed rest left (told ▸ lists)
      exact List.suffix_rfl
    · rw [told, stepwise (loop.mode ▸ step)]
  · refine ⟨fun left lists => ?_, by simp [failed], .inr (.inl ⟨conflict, later, cut, failing⟩)⟩
    rw [listed later left (told ▸ lists), cut]
    exact List.suffix_cons conflict later

/-- Every result accounts for the conflicts it was given. -/
theorem navigation_accounts {World : Type} (deps : NavigateConflictsDeps World)
    (conflicts : List ConflictRecord) (world : World) :
    ConflictsAccounted deps conflicts (navigate deps conflicts world).1 := by
  unfold navigate
  split
  next empty =>
    have none_given : conflicts = [] := List.isEmpty_iff.mp empty
    exact ⟨fun _ => ⟨[], [], by simp [none_given], rfl, by simp, fun _ => rfl, .inl rfl⟩, by simp⟩
  next =>
    split
    next => exact ⟨by simp, by simp⟩
    next aborted _ =>
      unfold abortConflicts
      split
      next auditEntry _ _ => exact ⟨by simp, fun _ => ⟨rfl, fun _ => ⟨auditEntry, rfl⟩, by simp⟩⟩
      next => exact ⟨by simp, by simp⟩
    next auto _ =>
      obtain ⟨done, rest, loop⟩ := resolveConflicts_left (autoChoice deps) conflicts [] auto
      exact accounted_of_loop (by simp) (by simp) (by simp) loop
    next step _ =>
      obtain ⟨done, rest, loop⟩ := resolveConflicts_left (stepChoice deps) conflicts [] step
      exact accounted_of_loop (by simp) (by simp) (by simp) loop

/-- Each conflict stands once in the result, as applied or as unresolved, and completion is claimed only
    where none is unresolved. -/
def ReportsEach (conflicts : List ConflictRecord) (result : NavigationResult) : Prop :=
  (result.applied.map Applied.filePath ++ (result.unresolved.getD []).map ConflictRecord.filePath).Perm
      (conflicts.map ConflictRecord.filePath) ∧
    (result.ok = true → result.unresolved.getD [] = [])

/-! ## Fixed runs -/

def abortingDeps : NavigateConflictsDeps Unit where
  prompt _ world := ("abort", world)
  apply action _ world := (.ok action.kind "rebase-aborted: user-requested abort", world)
  resolveDivergent _ world := (.abortRebase "user rejected", world)

def divergentConflict : ConflictRecord where
  filePath := "a.ts"
  hunks := []
  classification := ⟨.divergentContent, "differs"⟩

/-- An aborted rebase names no conflict. -/
theorem aborted_names_none : ¬ ReportsEach [divergentConflict] (navigate abortingDeps [divergentConflict] ()).1 := by
  unfold ReportsEach
  decide

end Advance.Tools
