import Advance.Tools.Worktree.DeletionChecks

/-! # Deleting a worktree is safe

Whatever the environment answers, the executor asks for a removal only under the lease and
after an evaluation that has found the worktree as the plan has it, and reports a deletion
only when a later census and the disk do not show the worktree any more.  Two things are
left out: a worktree at the root directory, and a census that could not list the worktrees.
-/

namespace Advance.Tools.Worktree

open Advance.Foundation Advance.Foundation.Dialogue Advance.Foundation.Attempt Advance.JavaScript

abbrev History := List (Exchange (Sum.elim CheckOp.Answer ActOp.Answer))

def acted (op : ActOp) (answer : op.Answer) : Exchange (Sum.elim CheckOp.Answer ActOp.Answer) :=
  ⟨.inr op, answer⟩

/-- The answers of a check, where there are other questions too. -/
def ofChecks (checks : Checks) : History := checks.map leftExchange

/-- A lease has been acquired and not been given back. -/
def HoldsLease (history : History) : Prop :=
  ∃ leaseDir, acted (.acquire leaseDir) (.ok true) ∈ history ∧
    ∀ exchange ∈ history, exchange.1 ≠ .inr (.settleLease leaseDir)

section

variable (setting : DeletionSetting) (plan : WorktreeDeletionPlan)

structure FoundSafe (checks : Checks) (census : Census) (candidate : GitWorktreeFact) : Prop where
  scanned : asked (.census plan.repository plan.defaultBranch) (.ok census) ∈ checks
  listed : candidate ∈ census.facts.worktrees
  onDisk : asked (.onDisk plan.facts.worktree) (.ok true) ∈ checks
  notInUse : asked (.inUse candidate.path) (.ok false) ∈ checks
  facts : plan.facts = factsFromCensus setting census.facts candidate plan.repository (setting.callerCwd plan) false
  notRepository : resolvedNames setting.processCwd candidate.path ≠ resolvedNames setting.processCwd plan.repository
  notFirst : ∀ first, census.facts.worktrees.head? = some first →
    resolvedNames setting.processCwd first.path ≠ resolvedNames setting.processCwd candidate.path
  attached : candidate.detached = false
  notBare : candidate.bare = false
  notLocked : candidate.locked = false
  notPrunable : candidate.prunable = false
  clean : candidate.dirty = true → plan.force = some true ∧ plan.archiveMode = false
  outside : ¬IsAncestor setting.processCwd candidate.path (setting.callerCwd plan)
  integration : ∃ branchFact ∈ census.facts.branches, ∃ integration,
    some branchFact.branch = plan.facts.branch ∧ plan.integration = some integration ∧
      branchFact.headSha = integration.head ∧ IntegrationShown setting plan branchFact integration checks
  terminal : TerminalShown plan checks
  inTime : ∃ front now, checks = front ++ [asked .clock now, asked .timeLeft true] ∧ now < plan.expiresAt

/-- The worktree may be removed, by force or not, after what has been asked and answered. -/
structure RemovalSafe (force : Bool) (worktree : String) (before : History) : Prop where
  ofPlan : worktree = plan.facts.worktree
  forced : force = true → plan.force = some true ∧ plan.archiveMode = false
  fresh : ∃ earlier checks census candidate, before = earlier ++ ofChecks checks ∧
    HoldsLease earlier ∧ FoundSafe setting plan checks census candidate

/-- After the removal, git's list and the disk show the worktree absent. -/
def DeletionShown (history : History) : Prop :=
  ∃ before census checks after force, history = before ++
      acted (.remove force plan.facts.worktree) (.ok .exited) :: (ofChecks checks ++ after) ∧
    asked (.census plan.repository plan.defaultBranch) (.ok census) ∈ checks ∧ census.listed = true ∧
    (∀ listed ∈ census.facts.worktrees, resolvedNames setting.processCwd listed.path ≠
      resolvedNames setting.processCwd plan.facts.worktree) ∧
    asked (.onDisk plan.facts.worktree) (.ok false) ∈ checks

def NotRoot : Prop :=
  resolvedNames setting.processCwd plan.facts.worktree = [] →
    resolvedNames setting.processCwd (setting.callerCwd plan) = []

instance : Decidable (NotRoot setting plan) := inferInstanceAs (Decidable (_ → _))

end

def ListedAfterRemoval (history : History) : Prop :=
  ∀ front back repository defaultBranch census force worktree answer,
    history = front ++ leftExchange (asked (.census repository defaultBranch) (.ok census)) :: back →
      acted (.remove force worktree) answer ∈ front → census.listed = true

section

variable {setting : DeletionSetting} {plan : WorktreeDeletionPlan}

/-! ## Before the removal -/

theorem FoundSafe.of_evaluation {census : Census} {candidate : GitWorktreeFact} {checks : Checks} {now : Nat}
    (notRoot : NotRoot setting plan)
    (scanned : asked (.census plan.repository plan.defaultBranch) (.ok census) ∈ checks)
    (shows : EvaluationShows setting plan census.facts candidate checks) (inTime : now < plan.expiresAt) :
    FoundSafe setting plan (checks ++ [asked .clock now, asked .timeLeft true]) census candidate := by
  obtain ⟨isInUse, observed, facts⟩ := shows.inUse
  have safe := shows.safe
  have path : plan.facts.worktree = candidate.path := congrArg (·.worktree) facts
  rw [facts, safeToRemove, factsFromCensus] at safe
  simp only [Bool.and_eq_true, Bool.or_eq_true, decide_eq_true_eq, ne_eq, Bool.not_eq_eq_eq_not, Bool.not_true,
    Option.some.injEq, WorktreeDeletionPlan.removesByForce, not_or] at safe
  obtain ⟨⟨⟨⟨⟨⟨⟨⟨notRepository, notFirst⟩, attached⟩, notBare⟩, notLocked⟩, notPrunable⟩, clean⟩, outside⟩, rfl⟩ := safe.1
  obtain ⟨branchFact, member, integration, named, bound, sameHead, shown⟩ := shows.integration
  have sub : checks ⊆ checks ++ [asked .clock now, asked .timeLeft true] := List.subset_append_left _ _
  exact {
    scanned := sub scanned
    listed := List.mem_of_find?_eq_some shows.found
    onDisk := sub shows.onDisk
    notInUse := sub observed
    facts := facts
    notRepository := fun same => notRepository ((samePath_iff _).mpr same)
    notFirst := fun first isFirst same =>
      notFirst (Option.any_eq_true _ _ |>.mpr ⟨first, isFirst, (samePath_iff _).mpr same⟩)
    attached := attached
    notBare := notBare
    notLocked := notLocked
    notPrunable := notPrunable
    clean := fun dirty => (clean.resolve_left (by simp [dirty])).symm
    -- At the root the executor takes every directory but the root itself to be outside.
    outside := fun below => Bool.false_ne_true (outside.symm.trans
      ((cwdInside_iff _).mpr ⟨below, fun isRoot => notRoot (path ▸ isRoot)⟩))
    integration := ⟨branchFact, member, integration, named, bound, sameHead, shown.mono sub⟩
    terminal := fun terminal ofPlan => sub (shows.terminal terminal ofPlan)
    inTime := ⟨checks, now, rfl, inTime⟩ }

/-! ## What is not asked on the way -/

/-- A removal, or giving the lease back. -/
def Ending : CheckOp ⊕ ActOp → Prop
  | .inr (.remove _ _) | .inr (.settleLease _) => True
  | _ => False

def IsRemoval (force : Bool) (worktree : String) (op : CheckOp ⊕ ActOp) : Prop :=
  op = .inr (.remove force worktree)

variable {Value : Type}

theorem silent_check (attempt : Check Value) : Silent Ending (check attempt) :=
  silent_left (fun _ => id) attempt

theorem silent_act {op : ActOp} (other : ¬Ending (.inr op)) : Silent Ending (act op) :=
  guarded_question other

theorem silent_expect {stage : Option String} {reply : Except Thrown Value} :
    Silent Ending (expect stage reply : Deletion Value) := by
  cases reply with
  | ok value => exact guarded_pure
  | error thrown => exact guarded_fail

variable {failed : DeletionFailure}

theorem silent_abandon : Silent Ending (abandon failed : Deletion Value) :=
  silent_bind (silent_act id) fun _ => guarded_fail

theorem silent_demandTime : Silent Ending (demandTime failed) := by
  refine silent_bind (silent_check _) fun timeLeft => ?_
  split
  next => exact guarded_pure
  next => exact silent_abandon

theorem silent_demandSettled {outcome : ProcessOutcome} {late : DeletionFailure} :
    Silent Ending (demandSettled outcome late) := by
  unfold demandSettled
  split
  next => exact silent_abandon
  next => exact silent_demandTime

theorem silent_acquireLease : Silent Ending (acquireLease setting plan) := by
  have resolves : Silent Ending (resolveLeaseDir setting plan) := by
    unfold resolveLeaseDir
    split
    next => exact guarded_pure
    next => exact silent_bind (silent_act id) fun _ => silent_expect
  refine silent_bind resolves fun leaseDir => silent_bind guarded_demand fun _ =>
    silent_bind (silent_check _) fun _ => silent_bind (silent_check _) fun _ =>
    silent_bind guarded_demand fun _ => silent_bind (silent_act id) fun acquired => ?_
  split
  next => exact guarded_pure
  next => exact guarded_fail

theorem silent_runBeforeRemove : Silent Ending (runBeforeRemove setting) := by
  unfold runBeforeRemove
  split
  next => exact guarded_pure
  next =>
    refine silent_bind guarded_demand fun _ => silent_bind (silent_act id) fun _ =>
      silent_bind silent_expect fun result => ?_
    split
    next => exact guarded_pure
    next => exact guarded_fail

theorem silent_runHook (command : String) : Silent Ending (runHook plan command) :=
  silent_bind (silent_check _) fun _ => silent_bind silent_demandTime fun _ =>
    silent_bind (silent_act id) fun _ => silent_bind silent_expect fun _ =>
    silent_bind silent_demandSettled fun _ => guarded_demand

theorem silent_hooks (hooks : List String) : Silent Ending (hooks.forM (runHook plan) : Deletion Unit) := by
  induction hooks with
  | nil => exact guarded_pure
  | cons command hooks ih => exact silent_bind (silent_runHook command) fun _ => ih

theorem silent_reconcile : Silent Ending (reconcile setting) := by
  unfold reconcile
  split
  next => exact guarded_pure
  next =>
    refine silent_bind guarded_demand fun _ => silent_bind (silent_act id) fun result => ?_
    split
    next => exact guarded_pure
    next =>
      split
      next => exact guarded_fail
      next =>
        split
        next => exact guarded_pure
        next => exact guarded_pure

section

variable {force : Bool} {worktree : String} {guard : History → Prop}

theorem guarded_of_silent {attempt : Deletion Value} (silent : Silent Ending attempt) :
    Guarded (IsRemoval force worktree) guard attempt := by
  intro op front rest isRemoval next spoken same
  subst isRemoval
  exact (silent (.inr (.remove force worktree)) front rest trivial next spoken same).elim

theorem guarded_demandLeaseInTime {leaseDir : String} {owned : Bool} :
    Guarded (IsRemoval force worktree) guard (demandLeaseInTime leaseDir owned) := by
  refine guarded_bind (guarded_of_silent (silent_check _)) fun _ timeLeft _ => ?_
  dsimp only
  split
  next => exact guarded_pure
  next =>
    split
    next => exact guarded_bind (guarded_question nofun) fun _ _ _ => guarded_of_silent silent_abandon
    next => exact guarded_of_silent silent_abandon

theorem silent_lastly {last : Option ActOp} (other : last ≠ some (.remove force worktree)) :
    Silent (IsRemoval force worktree) (lastly last) := by
  cases last with
  | none => exact guarded_finish
  | some op =>
    refine silent_once fun isRemoval => other ?_
    rw [Sum.inr.inj isRemoval]

theorem silent_conclude {lease : Option String} : Silent (IsRemoval force worktree) (conclude setting lease) := by
  refine guarded_andThen (silent_lastly ?_) fun _ _ _ => silent_lastly ?_
  · split <;> simp
  · cases lease <;> simp

end

/-! ## The lease -/

theorem HoldsLease.later {front back : History} (holds : HoldsLease front)
    (keeps : ∀ exchange ∈ back, ¬Ending exchange.1) : HoldsLease (front ++ back) := by
  obtain ⟨leaseDir, acquired, kept⟩ := holds
  refine ⟨leaseDir, List.mem_append_left _ acquired, fun exchange member => ?_⟩
  rcases List.mem_append.mp member with early | late
  · exact kept exchange early
  · exact fun gives => keeps exchange late (gives ▸ trivial)

variable {history : History}

theorem not_ending_of_passes {attempt : Deletion Value} {value : Value}
    (silent : Silent Ending attempt) (passes : Passes attempt history value) :
    ∀ exchange ∈ history, ¬Ending exchange.1 := by
  intro exchange member ending
  obtain ⟨front, back, rfl⟩ := List.append_of_mem member
  exact silent.of_asked ending passes

theorem passes_check {attempt : Check Value} {value : Value} :
    Passes (check attempt) history value ↔ ∃ checks, history = ofChecks checks ∧ Passes attempt checks value :=
  completes_left

theorem passes_act {op : ActOp} {answer : op.Answer} :
    @Passes _ _ _ (no_index op.Answer) (act op) history answer ↔ history = [acted op answer] :=
  passes_question

theorem acquireLease_holds {leaseDir : String}
    (passes : Passes (acquireLease setting plan) history (leaseDir, true)) : HoldsLease history := by
  have keeps := not_ending_of_passes silent_acquireLease passes
  obtain ⟨_, _, _, rfl, _, resolved⟩ := passes_bind.mp passes
  obtain ⟨_, _, _, rfl, _, unexpired⟩ := passes_bind.mp (passes_demand_bind.mp resolved).2
  obtain ⟨_, _, _, rfl, _, timely⟩ := passes_bind.mp unexpired
  obtain ⟨_, _, reply, rfl, asks, replied⟩ := passes_bind.mp (passes_demand_bind.mp timely).2
  obtain rfl := passes_act.mp asks
  split at replied
  next owned =>
    obtain ⟨rfl, same⟩ := passes_pure.mp replied
    obtain ⟨rfl, rfl⟩ := Prod.mk.inj same
    exact ⟨leaseDir, by simp, fun exchange member gives => keeps exchange member (gives ▸ trivial)⟩
  next => exact (passes_fail.mp replied).elim

variable {value : Unit}

theorem demandLeaseInTime_passes {leaseDir : String} {owned : Bool}
    (passes : Passes (demandLeaseInTime leaseDir owned) history value) :
    history = ofChecks [asked .timeLeft true] := by
  obtain ⟨_, _, timeLeft, rfl, asks, decided⟩ := passes_bind.mp passes
  obtain ⟨_, rfl, answered⟩ := passes_check.mp asks
  obtain rfl := passes_ask.mp answered
  have abandoned : ∀ {failed : DeletionFailure} {rest : History} {value : Unit},
      ¬Passes (abandon failed : Deletion Unit) rest value := by
    intro failed rest value passes
    obtain ⟨_, _, _, rfl, _, fails⟩ := passes_bind.mp passes
    exact passes_fail.mp fails
  dsimp only at decided
  split at decided
  next inTime =>
    obtain ⟨rfl, _⟩ := passes_pure.mp decided
    rw [inTime, List.append_nil]
  next =>
    split at decided
    next =>
      obtain ⟨_, _, _, rfl, _, later⟩ := passes_bind.mp decided
      exact (abandoned later).elim
    next => exact (abandoned decided).elim

theorem ofChecks_not_ending (checks : Checks) : ∀ exchange ∈ ofChecks checks, ¬Ending exchange.1 := by
  intro exchange member
  obtain ⟨_, _, rfl⟩ := List.mem_map.mp member
  exact id

/-! ## The removal -/

theorem guarded_removeWorktree {force : Bool} {worktree : String} {guard : History → Prop}
    (safe : ∀ now, now < plan.expiresAt → force = plan.removesByForce → worktree = plan.facts.worktree →
      guard (ofChecks [asked .clock now, asked .timeLeft true])) :
    Guarded (IsRemoval force worktree) guard (removeWorktree plan) := by
  refine guarded_bind (guarded_of_silent (silent_check _)) fun _ _ unexpired => ?_
  obtain ⟨_, rfl, expiry⟩ := passes_check.mp unexpired
  obtain ⟨now, rfl, inTime⟩ := passes_expiryDecision.mp expiry
  refine guarded_bind (guarded_of_silent silent_demandTime) fun _ _ timely => ?_
  obtain ⟨_, _, timeLeft, rfl, asks, decided⟩ := passes_bind.mp timely
  obtain ⟨_, rfl, answered⟩ := passes_check.mp asks
  obtain rfl := passes_ask.mp answered
  split at decided
  next left =>
    obtain ⟨rfl, _⟩ := passes_pure.mp decided
    subst left
    refine guarded_bind (guarded_question fun isRemoval => ?_) fun _ _ _ => ?_
    · obtain ⟨rfl, rfl⟩ := ActOp.remove.inj (Sum.inr.inj isRemoval)
      exact safe now inTime rfl rfl
    · refine guarded_bind (guarded_of_silent silent_expect) fun _ _ _ => ?_
      exact guarded_bind (guarded_of_silent silent_demandSettled) fun _ _ _ => guarded_demand
  next =>
    obtain ⟨_, _, _, _, _, fails⟩ := passes_bind.mp decided
    exact (passes_fail.mp fails).elim

theorem guarded_underLease (notRoot : NotRoot setting plan) {force : Bool} {worktree leaseDir : String}
    {owned : Bool} {before : History} (holds : owned = true → HoldsLease before) : Guarded (IsRemoval force worktree)
      (fun history => RemovalSafe setting plan force worktree (before ++ history))
      (underLease setting plan leaseDir owned) := by
  refine guarded_bind guarded_demandLeaseInTime fun timely _ passes => ?_
  obtain rfl := demandLeaseInTime_passes passes
  refine guarded_bind guarded_demand fun _ _ passes => ?_
  obtain ⟨rfl, isOwned⟩ := passes_demand.mp passes
  have leased := (holds isOwned).later (ofChecks_not_ending [asked .timeLeft true])
  refine guarded_bind (guarded_of_silent (silent_act id)) fun migrating _ passes => ?_
  have leased := leased.later (not_ending_of_passes (silent_act id) passes)
  refine guarded_bind (guarded_of_silent silent_expect) fun migrated _ passes => ?_
  have leased := leased.later (not_ending_of_passes silent_expect passes)
  refine guarded_bind (guarded_of_silent (silent_check _)) fun first _ passes => ?_
  have leased := leased.later (not_ending_of_passes (silent_check _) passes)
  refine guarded_bind (guarded_of_silent silent_runBeforeRemove) fun stage _ passes => ?_
  have leased := leased.later (not_ending_of_passes silent_runBeforeRemove passes)
  refine guarded_bind (guarded_of_silent (silent_hooks _)) fun hooks _ passes => ?_
  have leased := leased.later (not_ending_of_passes (silent_hooks _) passes)
  -- From here on only checks are made, until the removal.
  refine guarded_bind (guarded_of_silent (silent_check _)) fun _ _ passes => ?_
  obtain ⟨fresh, rfl, revalidated⟩ := passes_check.mp passes
  obtain ⟨census, candidate, scanned, shows⟩ := revalidate_shows revalidated
  refine guarded_bind (guarded_removeWorktree fun now inTime byForce ofPlan => ?_) fun _ _ _ => ?_
  · refine ⟨ofPlan, fun forced => ?_, _, _, census, candidate, ?_, leased,
      FoundSafe.of_evaluation notRoot scanned shows inTime⟩
    · rw [forced] at byForce
      simpa [WorktreeDeletionPlan.removesByForce, and_comm] using byForce.symm
    · simp [ofChecks]
  · refine guarded_bind (guarded_of_silent (silent_check _)) fun _ _ _ => ?_
    exact guarded_bind (guarded_of_silent silent_reconcile) fun _ _ _ => guarded_pure

/-- Whenever the executor asks for a removal, it is safe. -/
theorem guarded_execute (notRoot : NotRoot setting plan) (force : Bool) (worktree : String) :
    Guarded (IsRemoval force worktree) (RemovalSafe setting plan force worktree) (execute setting plan) := by
  refine guarded_bind (guarded_of_silent (silent_check _)) fun validated _ passes => ?_
  have early := not_ending_of_passes (silent_check _) passes
  refine guarded_bind (guarded_onFailure (guarded_of_silent silent_acquireLease) silent_conclude)
    fun leasing lease passes => ?_
  obtain ⟨leaseDir, owned⟩ := lease
  refine guarded_ensure ?_ silent_conclude
  have before : owned = true → HoldsLease (validated ++ leasing) := by
    rintro rfl
    obtain ⟨leaseDir, acquired, kept⟩ := acquireLease_holds (passes_onFailure.mp passes)
    refine ⟨leaseDir, List.mem_append_right _ acquired, fun exchange member gives => ?_⟩
    rcases List.mem_append.mp member with before | after
    · exact early exchange before (gives ▸ trivial)
    · exact kept exchange after gives
  simpa only [List.append_assoc] using guarded_underLease notRoot before

/-! ## After the removal -/

theorem demandTime_passes
    (passes : Passes (demandTime failed) history value) : history = ofChecks [asked .timeLeft true] := by
  obtain ⟨_, _, timeLeft, rfl, asks, decided⟩ := passes_bind.mp passes
  obtain ⟨_, rfl, answered⟩ := passes_check.mp asks
  obtain rfl := passes_ask.mp answered
  split at decided
  next left =>
    obtain ⟨rfl, _⟩ := passes_pure.mp decided
    rw [left, List.append_nil]
  next =>
    obtain ⟨_, _, _, _, _, fails⟩ := passes_bind.mp decided
    exact (passes_fail.mp fails).elim

theorem removeWorktree_passes (passes : Passes (removeWorktree plan) history value) : ∃ before, history = before ++
      acted (.remove plan.removesByForce plan.facts.worktree) (.ok .exited) :: ofChecks [asked .timeLeft true] := by
  obtain ⟨first, _, _, rfl, _, unexpired⟩ := passes_bind.mp passes
  obtain ⟨second, _, _, rfl, _, timely⟩ := passes_bind.mp unexpired
  obtain ⟨_, _, _, rfl, asks, replied⟩ := passes_bind.mp timely
  obtain rfl := passes_act.mp asks
  obtain ⟨outcome, rfl, awaited⟩ := passes_expect_bind.mp replied
  obtain ⟨_, _, _, rfl, settled, exited⟩ := passes_bind.mp awaited
  obtain ⟨rfl, rfl⟩ := passes_demand.mp exited
  rw [demandSettled, if_neg nofun] at settled
  obtain rfl := demandTime_passes settled
  exact ⟨first ++ second, by simp⟩

theorem deletion_shown {deleted : Deleted}
    (passes : Passes (execute setting plan) history deleted) (listed : ListedAfterRemoval history) :
    DeletionShown setting plan history := by
  obtain ⟨validated, _, _, rfl, _, valid⟩ := passes_bind.mp passes
  obtain ⟨leasing, _, ⟨leaseDir, owned⟩, rfl, _, leased⟩ := passes_bind.mp valid
  obtain ⟨under, concluding, rfl, ran⟩ := passes_ensure leased
  obtain ⟨timely, _, _, rfl, _, inTime⟩ := passes_bind.mp ran
  obtain ⟨migrating, _, _, rfl, _, migrated⟩ := passes_bind.mp (passes_demand_bind.mp inTime).2
  obtain ⟨_, _, migrated⟩ := passes_expect_bind.mp migrated
  obtain ⟨first, _, _, rfl, _, revalidated⟩ := passes_bind.mp migrated
  obtain ⟨stage, _, _, rfl, _, hooked⟩ := passes_bind.mp revalidated
  obtain ⟨hooks, _, _, rfl, _, unhooked⟩ := passes_bind.mp hooked
  obtain ⟨fresh, _, _, rfl, _, safe⟩ := passes_bind.mp unhooked
  obtain ⟨_, _, _, rfl, removes, removed⟩ := passes_bind.mp safe
  obtain ⟨before, rfl⟩ := removeWorktree_passes removes
  obtain ⟨_, rest, _, rfl, confirms, _⟩ := passes_bind.mp removed
  obtain ⟨_, rfl, confirmed⟩ := passes_check.mp confirms
  obtain ⟨census, rfl, absent⟩ := confirmRemoval_shows confirmed
  refine ⟨validated ++ leasing ++ timely ++ migrating ++ first ++ stage ++ hooks ++ fresh ++ before, census,
    [asked .timeLeft true, asked (.census plan.repository plan.defaultBranch) (.ok census),
      asked (.onDisk plan.facts.worktree) (.ok false)], rest ++ concluding, plan.removesByForce,
    by simp [ofChecks], by simp, ?_, ?_, by simp⟩
  · exact listed (validated ++ leasing ++ timely ++ migrating ++ first ++ stage ++ hooks ++ fresh ++ before ++
        acted (.remove plan.removesByForce plan.facts.worktree) (.ok .exited) :: ofChecks [asked .timeLeft true])
      (ofChecks [asked (.onDisk plan.facts.worktree) (.ok false)] ++ (rest ++ concluding)) plan.repository
      plan.defaultBranch census plan.removesByForce plan.facts.worktree (.ok .exited)
      (by simp [ofChecks]) (by simp)
  · intro listed member same
    have other := List.find?_eq_none.mp absent listed member
    rw [Bool.not_eq_true, Bool.or_eq_false_iff] at other
    exact Bool.false_ne_true (other.1.symm.trans ((samePath_iff _).mpr same))

/-! ## Every run -/

structure SafeRun (setting : DeletionSetting) (plan : WorktreeDeletionPlan) (history : History)
    (rest : Deletion Deleted) : Prop where
  removal : ∀ front back force worktree answer, history = front ++ acted (.remove force worktree) answer :: back →
      RemovalSafe setting plan force worktree front
  deletion : ∀ deleted, rest = finish (.ok deleted) → DeletionShown setting plan history

/-- Every run is safe, however far it has come and whatever has been answered. -/
theorem execute_safe {history : History} {rest : Deletion Deleted} (notRoot : NotRoot setting plan)
    (listed : ListedAfterRemoval history) (run : Speaks (execute setting plan) history rest) :
    SafeRun setting plan history rest where
  removal := by
    rintro front back force worktree answer rfl
    exact (guarded_execute notRoot force worktree).of_asked rfl run
  deletion := by
    rintro deleted rfl
    exact deletion_shown run listed

end

/-! ## Fixed runs -/

def mergedWorktree (tree : String) : WorktreeDeletionFacts where
  repository := "/repo"
  worktree := tree
  branch := some "change/a"
  head := "abcd"
  detached := false
  bare := false
  locked := false
  prunable := false
  dirty := false
  mainWorktree := some false
  cwd := some "/home"
  cwdInsideWorktree := some false
  inUse := some false
  gitCorrupt := some false

def mergedProof : WorktreeDeletionIntegrationProof :=
  ⟨.merged_to_default, "change/a", "main", "abcd", "git branch --merged main", none, none, none, none, none⟩

def mergedPlan (tree : String) : WorktreeDeletionPlan :=
  ⟨"/repo", mergedWorktree tree, some false, 10, "wdp1", some mergedProof, none, some .normal, none⟩

def mergedSetting (tree : String) : DeletionSetting where
  codec := ⟨fun _ => "wdp1", fun _ => some ⟨mergedWorktree tree, some false, 10, some mergedProof, none,
    some .normal, none⟩, (·.head)⟩
  sha256 := fun _ => ""
  canonicalIdentity := fun _ _ => ""
  parseGitRemoteUrl := fun _ => none
  linux := true
  repository := none
  repositoryLeaseDir := some "/repo/.git/lease"
  cwd := some "/home"
  processCwd := "/home"
  hooks := []
  now := none
  ownsOperation := true
  currentStage := none
  hasIntegrationProof := false
  hasTerminalProof := false
  beforeRemove := none
  reconcileAfterDeletion := none

def hasRemoved (past : History) : Bool :=
  past.any fun exchange =>
    match exchange.1 with
    | .inr (.remove _ _) => true
    | _ => false

def mergedEnvironment (tree : String) (listsAfterwards : Bool) (past : History) :
    (op : CheckOp ⊕ ActOp) → Sum.elim CheckOp.Answer ActOp.Answer op
  | .inl .clock => (1 : Nat)
  | .inl .timeLeft => true
  | .inl (.identity path) => path
  | .inl (.census _ _) =>
    let main : ListedWorktree := ⟨some "main", "/repo", some "0123", none, none, none, none, some []⟩
    let linked : ListedWorktree := ⟨some "change/a", tree, some "abcd", none, none, none, none, some []⟩
    let list := if hasRemoved past then (if listsAfterwards then some [main] else none) else some [main, linked]
    .ok (.scanned ⟨some [("main", "0123"), ("change/a", "abcd")], some ["main", "change/a"], list⟩)
  | .inl (.onDisk _) => .ok (!hasRemoved past)
  | .inl (.inUse _) => .ok false
  | .inl (.git _) => .ok none
  | .inl (.gitStatus _) => .ok .failed
  | .inl (.gitDiff _ _) => .ok .failed
  | .inl (.readFile _ _) => none
  | .inl (.integrationProof _ _ _ _) => .ok none
  | .inl (.localProof _ _ _ _) => .ok none
  | .inl (.terminalProof _ _) => .ok none
  | .inr (.leaseDir _) => .ok ""
  | .inr (.acquire _) => .ok true
  | .inr (.migrateLegacyLock _) => .ok ()
  | .inr .beforeRemove => .ok (.ok none)
  | .inr (.hook _) => .ok .exited
  | .inr (.remove _ _) => .ok .exited
  | .inr .reconcile => .ok ()
  | .inr (.abort _) => ()
  | .inr (.settleLease _) => ()

def mergedRun (tree : String) (listsAfterwards : Bool) : History × Except DeletionFailure Deleted :=
  follow (mergedEnvironment tree listsAfterwards) [] (execute (mergedSetting tree) (mergedPlan tree))

theorem mergedRun_speaks (tree : String) (listsAfterwards : Bool) :
    Speaks (execute (mergedSetting tree) (mergedPlan tree)) (mergedRun tree listsAfterwards).1
      (finish (mergedRun tree listsAfterwards).2) :=
  completes_follow _ _ _

theorem mergedRun_deletes (listsAfterwards : Bool) :
    (mergedRun "/tree" listsAfterwards).2 = .ok ⟨"/repo", "/tree", none⟩ := by
  cases listsAfterwards <;> rfl

theorem mergedRun_census {tree : String} {listsAfterwards : Bool} {front back : History}
    {repository defaultBranch : String} {census : Census} (history : (mergedRun tree listsAfterwards).1 =
      front ++ leftExchange (asked (.census repository defaultBranch) (.ok census)) :: back) :
    census.listed = (!hasRemoved front || listsAfterwards) := by
  have answer := Except.ok.inj (follow_answer _ history)
  rw [answer, List.nil_append]
  cases hasRemoved front <;> cases listsAfterwards <;> rfl

theorem execute_safe_removes : SafeRun (mergedSetting "/tree") (mergedPlan "/tree") (mergedRun "/tree" true).1
      (finish (mergedRun "/tree" true).2) :=
  execute_safe (by decide)
    (fun _ _ _ _ _ _ _ _ history _ => by rw [mergedRun_census history, Bool.or_true])
    (mergedRun_speaks "/tree" true)

/-- Git has removed the worktree and cannot list the worktrees then. -/
theorem deleted_unlisted : ¬∀ (setting : DeletionSetting) (plan : WorktreeDeletionPlan) (history : History)
    (rest : Deletion Deleted), Speaks (execute setting plan) history rest → SafeRun setting plan history rest := by
  intro safe
  have run := safe _ _ _ _ (mergedRun_speaks "/tree" false)
  obtain ⟨before, census, checks, after, force, history, member, listed, _⟩ :=
    run.deletion _ (congrArg finish (mergedRun_deletes false))
  obtain ⟨front, back, rfl⟩ := List.append_of_mem member
  have split : (mergedRun "/tree" false).1 = (before ++ acted (.remove force (mergedPlan "/tree").facts.worktree) (.ok .exited) ::
      ofChecks front) ++ leftExchange (asked (.census (mergedPlan "/tree").repository (mergedPlan "/tree").defaultBranch) (.ok census)) ::
        (ofChecks back ++ after) := by
    rw [history]
    simp [ofChecks]
  have unlisted := mergedRun_census split
  rw [listed] at unlisted
  simp [hasRemoved, acted] at unlisted

end Advance.Tools.Worktree
