import Advance.Tools.Worktree.DeletionExecutor

/-! # What the executor's checks have shown

The answers after which each check of a deletion passes.
-/

namespace Advance.Tools.Worktree

open Advance.Foundation Advance.Foundation.Attempt

abbrev Checks := List (Exchange CheckOp.Answer)

def asked (op : CheckOp) (answer : op.Answer) : Exchange CheckOp.Answer := ⟨op, answer⟩

section

variable {setting : DeletionSetting} {plan : WorktreeDeletionPlan} {checks : Checks}

-- The type of the answer is left out of the index: it is unfolded where the question is known.
@[simp] theorem passes_ask {op : CheckOp} {answer : op.Answer} :
    @Passes _ _ _ (no_index op.Answer) (ask op) checks answer ↔ checks = [asked op answer] :=
  passes_question

@[simp] theorem passes_expect {Op : Type} {Answer : Op → Type} {Value : Type} {stage : Option String}
    {reply : Except Thrown Value} {history : List (Exchange Answer)} {value : Value} :
    Passes (expect stage reply) history value ↔ history = [] ∧ reply = .ok value := by
  cases reply <;> simp [expect, eq_comm]

@[simp] theorem passes_gitOutput {arguments : List String} {failed : DeletionFailure} {output : String} :
    Passes (gitOutput arguments failed) checks output ↔ checks = [asked (.git arguments) (.ok (some output))] := by
  constructor
  · intro passes
    obtain ⟨front, back, reply, rfl, ran, matched⟩ := passes_bind.mp passes
    obtain ⟨first, rest, answer, rfl, question, awaited⟩ := passes_bind.mp ran
    obtain ⟨rfl, rfl⟩ := passes_expect.mp awaited
    obtain rfl := passes_ask.mp question
    cases reply with
    | none => exact (passes_fail.mp matched).elim
    | some stdout =>
      obtain ⟨rfl, rfl⟩ := passes_pure.mp matched
      rfl
  · rintro rfl
    exact .ask .start

variable {Value : Type} {value : Value}

@[simp] theorem passes_ask_bind {op : CheckOp} {next : op.Answer → Check Value} :
    Passes (@bind _ _ (no_index op.Answer) _ (ask op) next) checks value ↔
      ∃ answer back, checks = asked op answer :: back ∧ Passes (next answer) back value :=
  passes_bind_of_question fun _ _ => passes_ask

@[simp] theorem passes_gitOutput_bind {arguments : List String} {failed : DeletionFailure}
    {next : String → Check Value} : Passes (gitOutput arguments failed >>= next) checks value ↔ ∃ output back,
      checks = asked (.git arguments) (.ok (some output)) :: back ∧ Passes (next output) back value :=
  passes_bind_of_question fun _ _ => passes_gitOutput

@[simp] theorem passes_expect_bind {Op : Type} {Answer : Op → Type} {Awaited : Type} {stage : Option String}
    {reply : Except Thrown Awaited} {history : List (Exchange Answer)}
    {next : Awaited → Attempt Answer DeletionFailure Value} : Passes (expect stage reply >>= next) history value ↔
      ∃ awaited, reply = .ok awaited ∧ Passes (next awaited) history value := by
  cases reply <;> simp [passes_bind]

variable {stage : String}

theorem passes_expiryDecision {value : Unit} : Passes (expiryDecision plan stage) checks value ↔
      ∃ now, checks = [asked .clock now] ∧ now < plan.expiresAt := by
  unfold expiryDecision
  simp

/-! ## A merged pull request -/

structure PullRequestShown (setting : DeletionSetting) (plan : WorktreeDeletionPlan)
    (integration : WorktreeDeletionIntegrationProof) (checks : Checks) : Prop where
  localHead : asked (.git ["rev-parse", "--verify", "refs/heads/" ++ integration.branch ++ "^\x7bcommit\x7d"])
    (.ok (some integration.head)) ∈ checks
  sameHead : plan.facts.head = integration.head
  ancestor : ∃ output, asked (.git (["merge-base", "--is-ancestor"] ++
      if plan.archiveMode then [integration.prHeadOid.getD "", integration.head]
      else [integration.head, integration.prHeadOid.getD ""])) (.ok (some output)) ∈ checks
  repository : ∃ origin, asked (.git ["config", "--get", "remote.origin.url"]) (.ok (some origin)) ∈ checks ∧
    (setting.parseGitRemoteUrl origin).isSome ∧
    setting.parseGitRemoteUrl origin = integration.headRepository ∧
    setting.parseGitRemoteUrl origin = integration.baseRepository
  defaultBranch : ∃ ref, asked (.git ["symbolic-ref", "--quiet", "--short", "refs/remotes/origin/HEAD"])
    (.ok (some ref)) ∈ checks ∧ stripOrigin ref = integration.defaultBranch
  pullRequestHead : asked (.git ["rev-parse", "--verify", "FETCH_HEAD^\x7bcommit\x7d"])
    (.ok (some (integration.prHeadOid.getD ""))) ∈ checks
  reachable : ∃ output, asked (.git ["merge-base", "--is-ancestor", integration.mergeCommitOid.getD "",
    "refs/remotes/origin/" ++ integration.defaultBranch]) (.ok (some output)) ∈ checks

variable {integration : WorktreeDeletionIntegrationProof}

variable {actual : WorktreeDeletionFacts}

theorem shows_pullRequest {value : Unit} (sameFacts : plan.facts = actual)
    (passes : Passes (revalidatePrMerged setting plan integration actual stage) checks value) :
    PullRequestShown setting plan integration checks := by
  subst sameFacts
  unfold revalidatePrMerged at passes
  simp only [passes_demand_bind, passes_gitOutput_bind] at passes
  obtain ⟨_, _, _, rfl, ⟨rfl, sameHead⟩, inside, _, rfl, origin, _, rfl, repository, ref, _, rfl, sameDefault,
    _, _, rfl, _, _, rfl, rfl, _, _, rfl, _, _, rfl, _, merged, _, rfl, _⟩ := passes
  rw [sameHead]
  exact {
    localHead := by simp
    sameHead := sameHead
    ancestor := ⟨inside, by simp⟩
    repository := ⟨origin, by simp, repository⟩
    defaultBranch := ⟨ref, by simp, sameDefault⟩
    pullRequestHead := by simp
    reachable := ⟨merged, by simp⟩ }

/-! ## The proofs -/

/-- The answers that show the integration as the plan has it. -/
inductive IntegrationShown (setting : DeletionSetting) (plan : WorktreeDeletionPlan)
    (branchFact : GitBranchFact) (integration : WorktreeDeletionIntegrationProof) (checks : Checks) : Prop
  | pullRequest : integration.kind = .pr_merged → PullRequestShown setting plan integration checks →
      IntegrationShown setting plan branchFact integration checks
  | adapter : asked (.integrationProof (plan.facts.branch.getD "") plan.facts.head integration.defaultBranch
        plan.repository) (.ok (some (.proof integration))) ∈ checks →
      IntegrationShown setting plan branchFact integration checks
  | census : integration.kind = .merged_to_default → branchFact.merged = true →
      IntegrationShown setting plan branchFact integration checks
  | localProof : asked (.localProof (plan.facts.branch.getD "") plan.facts.head integration.defaultBranch
        plan.repository) (.ok (some integration)) ∈ checks →
      IntegrationShown setting plan branchFact integration checks

theorem PullRequestShown.mono {more : Checks}
    (shown : PullRequestShown setting plan integration checks) (sub : checks ⊆ more) :
    PullRequestShown setting plan integration more where
  localHead := sub shown.localHead
  sameHead := shown.sameHead
  ancestor := shown.ancestor.imp fun _ member => sub member
  repository := shown.repository.imp fun _ found => ⟨sub found.1, found.2⟩
  defaultBranch := shown.defaultBranch.imp fun _ found => ⟨sub found.1, found.2⟩
  pullRequestHead := sub shown.pullRequestHead
  reachable := shown.reachable.imp fun _ member => sub member

theorem IntegrationShown.mono {branchFact : GitBranchFact}
    {more : Checks} (shown : IntegrationShown setting plan branchFact integration checks)
    (sub : checks ⊆ more) : IntegrationShown setting plan branchFact integration more := by
  cases shown with
  | pullRequest kind shown => exact .pullRequest kind (shown.mono sub)
  | adapter member => exact .adapter (sub member)
  | census kind merged => exact .census kind merged
  | localProof member => exact .localProof (sub member)

theorem shows_integration {branchFact : GitBranchFact} {value : Unit} (sameFacts : plan.facts = actual)
    (passes : Passes (revalidateIntegration setting plan branchFact integration actual stage) checks value) :
    IntegrationShown setting plan branchFact integration checks := by
  unfold revalidateIntegration at passes
  split at passes
  next kind => exact .pullRequest kind (shows_pullRequest sameFacts passes)
  next =>
    subst sameFacts
    split at passes
    next =>
      simp only [passes_ask_bind, passes_expect_bind] at passes
      obtain ⟨_, _, rfl, answer, rfl, passes⟩ := passes
      split at passes
      next proof =>
        obtain ⟨_, rfl⟩ := passes_demand.mp passes
        exact .adapter List.mem_cons_self
      next => exact (passes_fail.mp passes).elim
    next =>
      split at passes
      next merged => exact .census (passes_demand.mp passes).2 merged
      next =>
        simp only [passes_ask_bind, passes_expect_bind, passes_demand] at passes
        obtain ⟨_, _, rfl, _, rfl, _, rfl⟩ := passes
        exact .localProof List.mem_cons_self

/-- The answer that shows the terminal state as the plan has it, if the plan has one. -/
def TerminalShown (plan : WorktreeDeletionPlan) (checks : Checks) : Prop :=
  ∀ terminal, plan.terminal = some terminal →
    asked (.terminalProof terminal.changeId plan.repository) (.ok (some terminal)) ∈ checks

theorem shows_terminal {value : Unit}
    (passes : Passes (revalidateTerminal setting plan stage) checks value) : TerminalShown plan checks := by
  unfold revalidateTerminal at passes
  intro terminal bound
  rw [bound] at passes
  simp only [passes_demand_bind, passes_ask_bind, passes_expect_bind, passes_demand] at passes
  obtain ⟨_, _, _, rfl, _, rfl, _, rfl⟩ := passes
  exact List.mem_cons_self

/-! ## An evaluation -/

structure EvaluationShows (setting : DeletionSetting) (plan : WorktreeDeletionPlan) (current : GitWorkspaceFacts)
    (candidate : GitWorktreeFact) (checks : Checks) : Prop where
  found : currentWorktree setting plan current = some candidate
  onDisk : asked (.onDisk plan.facts.worktree) (.ok true) ∈ checks
  inUse : ∃ isInUse, asked (.inUse candidate.path) (.ok isInUse) ∈ checks ∧
    plan.facts = factsFromCensus setting current candidate plan.repository (setting.callerCwd plan) isInUse
  safe : safeToRemove plan.facts plan.removesByForce = true
  integration : ∃ branchFact ∈ current.branches, ∃ integration, some branchFact.branch = plan.facts.branch ∧
    plan.integration = some integration ∧ branchFact.headSha = integration.head ∧
    IntegrationShown setting plan branchFact integration checks
  terminal : TerminalShown plan checks
  inTime : ∃ front now, checks = front ++ [asked .clock now] ∧ now < plan.expiresAt

variable {current : GitWorkspaceFacts}

theorem evaluate_shows {value : Unit} (passes : Passes (evaluate setting plan current stage) checks value) :
    ∃ candidate, EvaluationShows setting plan current candidate checks := by
  unfold evaluate at passes
  simp only [passes_ask_bind, passes_expect_bind] at passes
  obtain ⟨_, _, rfl, onDisk, rfl, passes⟩ := passes
  split at passes
  next => exact (passes_fail.mp passes).elim
  next candidate found =>
    simp only [passes_demand_bind, passes_ask_bind, passes_expect_bind] at passes
    obtain ⟨rfl, _, rest, rfl, isInUse, rfl, sameFacts, safe, passes⟩ := passes
    rw [← sameFacts] at safe passes
    split at passes
    next branchFact integration branchFound bound =>
      simp only [passes_demand_bind] at passes
      obtain ⟨sameHead, passes⟩ := passes
      obtain ⟨forIntegration, later, _, rfl, integrationPasses, passes⟩ := passes_bind.mp passes
      obtain ⟨forArchive, later, _, rfl, _, passes⟩ := passes_bind.mp passes
      obtain ⟨forTerminal, later, _, rfl, terminalPasses, passes⟩ := passes_bind.mp passes
      obtain ⟨now, rfl, inTime⟩ := passes_expiryDecision.mp passes
      refine ⟨candidate, found, List.mem_cons_self, ⟨isInUse, by simp, sameFacts⟩, safe, ?_, ?_, ?_⟩
      · refine ⟨branchFact, List.mem_of_find?_eq_some branchFound, integration, ?_, bound, sameHead, ?_⟩
        · simpa using List.find?_some branchFound
        · exact (shows_integration rfl integrationPasses).mono (by intro x member; simp [member])
      · intro terminal ofPlan
        have shown := shows_terminal terminalPasses terminal ofPlan
        simp [shown]
      · exact ⟨asked (.onDisk plan.facts.worktree) (.ok true) :: asked (.inUse candidate.path) (.ok isInUse) ::
          (forIntegration ++ (forArchive ++ forTerminal)), now, by simp, inTime⟩
    next => exact (passes_fail.mp passes).elim

/-! ## A revalidation -/

theorem passes_runCensus : Passes (runCensus plan stage) checks current ↔ ∃ census : Census, current = census.facts ∧
      checks = [asked .timeLeft true, asked (.census plan.repository plan.defaultBranch) (.ok census)] := by
  unfold runCensus
  simp only [passes_ask_bind, passes_demand_bind]
  constructor
  · rintro ⟨_, _, rfl, rfl, _, _, rfl, passes⟩
    split at passes
    next census =>
      obtain ⟨rfl, rfl⟩ := passes_pure.mp passes
      exact ⟨census, rfl, rfl⟩
    next => exact (passes_fail.mp passes).elim
  · rintro ⟨census, rfl, rfl⟩
    exact ⟨true, _, rfl, rfl, .ok census, [], rfl, passes_pure.mpr ⟨rfl, rfl⟩⟩

theorem EvaluationShows.later {candidate : GitWorktreeFact}
    (shows : EvaluationShows setting plan current candidate checks) (earlier : Checks) :
    EvaluationShows setting plan current candidate (earlier ++ checks) where
  found := shows.found
  onDisk := List.mem_append_right _ shows.onDisk
  inUse := shows.inUse.imp fun _ found => ⟨List.mem_append_right _ found.1, found.2⟩
  safe := shows.safe
  integration := by
    obtain ⟨branchFact, member, integration, named, bound, sameHead, shown⟩ := shows.integration
    exact ⟨branchFact, member, integration, named, bound, sameHead, shown.mono (List.subset_append_right _ _)⟩
  terminal := fun terminal ofPlan => List.mem_append_right _ (shows.terminal terminal ofPlan)
  inTime := by
    obtain ⟨front, now, rfl, inTime⟩ := shows.inTime
    exact ⟨earlier ++ front, now, (List.append_assoc _ _ _).symm, inTime⟩

/-- A revalidation has taken a census and found the worktree on it safe to remove. -/
theorem revalidate_shows {value : Unit} (passes : Passes (revalidate setting plan stage) checks value) :
    ∃ census candidate, asked (.census plan.repository plan.defaultBranch) (.ok census) ∈ checks ∧
      EvaluationShows setting plan census.facts candidate checks := by
  obtain ⟨_, _, _, rfl, expiry, afterExpiry⟩ := passes_bind.mp passes
  obtain ⟨now, rfl, _⟩ := passes_expiryDecision.mp expiry
  obtain ⟨_, evaluated, _, rfl, ran, evaluation⟩ := passes_bind.mp afterExpiry
  obtain ⟨census, rfl, rfl⟩ := passes_runCensus.mp ran
  obtain ⟨candidate, shows⟩ := evaluate_shows evaluation
  exact ⟨census, candidate, by simp, (shows.later _).later _⟩

theorem confirmRemoval_shows {value : Unit} (passes : Passes (confirmRemoval setting plan) checks value) :
    ∃ census, checks = [asked (.census plan.repository plan.defaultBranch) (.ok census),
        asked (.onDisk plan.facts.worktree) (.ok false)] ∧
      currentWorktree setting plan census.facts = none := by
  unfold confirmRemoval at passes
  simp only [passes_ask_bind] at passes
  obtain ⟨_, _, rfl, passes⟩ := passes
  split at passes
  next => exact (passes_fail.mp passes).elim
  next census =>
    simp only [passes_ask_bind] at passes
    obtain ⟨_, _, rfl, passes⟩ := passes
    split at passes
    next => exact (passes_fail.mp passes).elim
    next =>
      obtain ⟨rfl, absent, rfl⟩ := passes_demand.mp passes
      exact ⟨census, rfl, absent⟩

end

end Advance.Tools.Worktree
