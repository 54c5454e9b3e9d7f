import Mathlib.Data.List.Nodup
import Advance.Tools.ArchiveHelpers.ConflictClassify

/-! # Resolving the conflicts of a rebase step

The loop over the conflicted files of a step, the actions it applies to them, and git as far as
they reach it: files are written and staged, a step is continued once all its files are staged,
or skipped; git then runs to the next step that stops.
-/

namespace Advance.Tools

open Advance.Utils

/-! ## Steps -/

/-- A line of a file. -/
abbrev Line := { text : List Char // '\n' ∉ text }

def joinLines (lines : List Line) : List Char := ['\n'].intercalate (lines.map Subtype.val)

/-- A conflicted file as git merged it: lines outside the markers and hunks between them. -/
inductive Segment where
  | kept (line : Line)
  | conflict (ours theirs : List Line)

structure ConflictedFile where
  path : String
  segments : List Segment
  currentOid : Option String
  originOid : Option String

def Segment.hunk : Segment → Option ConflictHunk
  | kept _ => none
  | conflict ours theirs => some ⟨joinLines ours, joinLines theirs, none⟩

def Segment.isKept : Segment → Bool
  | kept _ => true
  | conflict _ _ => false

/-- The lines of a segment with the incoming side chosen. -/
def Segment.resolved : Segment → List Line
  | kept line => [line]
  | conflict _ theirs => theirs

def ConflictedFile.hunks (file : ConflictedFile) : List ConflictHunk := file.segments.filterMap Segment.hunk

/-- The merged content with every hunk replaced by its incoming side. -/
def ConflictedFile.resolvedText (file : ConflictedFile) : List Char :=
  joinLines (file.segments.flatMap Segment.resolved)

/-- The files of a step that are in conflict, and for every other change whether the default
    branch has it already. -/
structure RebaseStep where
  files : List ConflictedFile
  others : List Bool
  distinct : (files.map ConflictedFile.path).Nodup

/-- Everything the step changes is on the default branch already. -/
structure RebaseStep.Present (step : RebaseStep) : Prop where
  files : ∀ file ∈ step.files, file.currentOid.isSome ∧ file.currentOid = file.originOid
  others : ∀ present ∈ step.others, present = true

/-! ## Git -/

inductive RebaseEffect where
  | wrote (path : String) (content : List Char)
  | continued (step : RebaseStep)
  | skipped (step : RebaseStep)
  | aborted

/-- The steps that stop with a conflict, from the current one on, and what has been done. -/
structure Rebase where
  steps : List RebaseStep
  staged : List String
  log : List RebaseEffect

/-- The commands of one action that fail although git could do them. -/
structure ActionFaults where
  write : Option String
  add : Option String
  proceed : Option String
  skip : Option String
  abort : Option String

def ActionFaults.none : ActionFaults := ⟨.none, .none, .none, .none, .none⟩

def safeWriteFile (fault : Option String) (path : String) (content : List Char) (rebase : Rebase) :
    Option String × Rebase :=
  match fault with
  | some error => (some error, rebase)
  | none => (none, { rebase with log := rebase.log ++ [.wrote path content] })

def gitAdd (fault : Option String) (path : String) (rebase : Rebase) : Option String × Rebase :=
  match fault with
  | some error => (some error, rebase)
  | none => (none, { rebase with staged := path :: rebase.staged })

/-- Git leaves the current step; where a later one stops in turn, the command has failed as well. -/
def leaveStep (effect : RebaseEffect) (later : List RebaseStep) (rebase : Rebase) : Option String × Rebase :=
  (if later.isEmpty then none else some "could not apply", ⟨later, [], rebase.log ++ [effect]⟩)

def gitRebaseContinue (fault : Option String) (rebase : Rebase) : Option String × Rebase :=
  match fault, rebase.steps with
  | some error, _ => (some error, rebase)
  | none, [] => (some "no rebase in progress", rebase)
  | none, step :: later =>
    if step.files.all fun file => rebase.staged.contains file.path then leaveStep (.continued step) later rebase
    else (some "you must edit all merge conflicts", rebase)

def gitRebaseSkip (fault : Option String) (rebase : Rebase) : Option String × Rebase :=
  match fault, rebase.steps with
  | some error, _ => (some error, rebase)
  | none, [] => (some "no rebase in progress", rebase)
  | none, step :: later => leaveStep (.skipped step) later rebase

def gitRebaseAbort (fault : Option String) (rebase : Rebase) : Option String × Rebase :=
  match fault, rebase.steps with
  | some error, _ => (some error, rebase)
  | none, [] => (some "no rebase in progress", rebase)
  | none, _ :: _ => (none, ⟨[], [], rebase.log ++ [.aborted]⟩)

/-! ## Actions -/

inductive ResolveAction where
  | skip (reason : String)
  | autoResolve (resolvedContent : List Char) (reason : String)
  | userResolveInPlace (resolvedContent : List Char) (userReason : String)
  | abortRebase (userReason : String)
  | skipWithDecision (userReason : String)

def ResolveAction.kind : ResolveAction → String
  | skip _ => "skip"
  | autoResolve _ _ => "auto_resolve"
  | userResolveInPlace _ _ => "user_resolve_in_place"
  | abortRebase _ => "abort_rebase"
  | skipWithDecision _ => "skip_with_decision"

def ResolveAction.isAbort : ResolveAction → Bool
  | abortRebase _ => true
  | _ => false

inductive ResolveError where
  | gitFailed
  | writeFailed
  | rebaseAbortFailed
  deriving DecidableEq

inductive ResolveActionResult where
  | ok (action auditEntry : String)
  | failed (error : ResolveError) (detail : String)

def resolveInPlace (filePath : String) (content : List Char) (kind auditEntry : String) (faults : ActionFaults)
    (rebase : Rebase) : ResolveActionResult × Rebase :=
  match safeWriteFile faults.write filePath content rebase with
  | (some error, written) => (.failed .writeFailed error, written)
  | (none, written) =>
    match gitAdd faults.add filePath written with
    | (some error, staged) => (.failed .gitFailed error, staged)
    | (none, staged) =>
      match gitRebaseContinue faults.proceed staged with
      | (some error, after) => (.failed .gitFailed error, after)
      | (none, after) => (.ok kind auditEntry, after)

/-- One git command and nothing else. -/
def single (command : Option String × Rebase) (failure : ResolveError) (kind auditEntry : String) :
    ResolveActionResult × Rebase :=
  match command with
  | (some error, after) => (.failed failure error, after)
  | (none, after) => (.ok kind auditEntry, after)

def applyResolveAction (action : ResolveAction) (filePath : String) (faults : ActionFaults) (rebase : Rebase) :
    ResolveActionResult × Rebase :=
  match action with
  | .skip reason => single (gitRebaseSkip faults.skip rebase) .gitFailed action.kind s!"skipped: {reason}"
  | .autoResolve content reason =>
    resolveInPlace filePath content action.kind s!"auto-resolved: {reason}" faults rebase
  | .userResolveInPlace content reason =>
    resolveInPlace filePath content action.kind s!"user-resolved-in-place: {reason}" faults rebase
  | .abortRebase reason =>
    single (gitRebaseAbort faults.abort rebase) .rebaseAbortFailed action.kind s!"rebase-aborted: {reason}"
  | .skipWithDecision reason =>
    single (gitRebaseSkip faults.skip rebase) .gitFailed action.kind s!"skipped-with-decision: {reason}"

/-! ## The loop -/

structure ConflictRecord where
  filePath : String
  hunks : List ConflictHunk
  classification : ClassifyResult

structure Applied where
  filePath : String
  action : String
  auditEntry : String

inductive NavigationMode where
  | auto
  | step
  | abort
  deriving DecidableEq

structure NavigationResult where
  ok : Bool
  mode : NavigationMode
  applied : List Applied
  aborted : Option String := none
  unresolved : Option (List ConflictRecord) := none

def buildBatchSummary (conflicts : List ConflictRecord) : String :=
  let count := fun conflictClass =>
    conflicts.countP fun conflict => decide (conflict.classification.conflictClass = conflictClass)
  let total := conflicts.length
  let autoSkip := count .duplicateContent
  let autoResolve := count .autoResolvableTrivial
  let divergent := count .divergentContent
  "\n".intercalate [s!"Phase 9 conflict resolution: {total} conflicts detected",
      s!"  auto-skippable: {autoSkip} (duplicate-content)",
      s!"  auto-resolvable: {autoResolve} (whitespace/formatting)",
      s!"  divergent (user input needed): {divergent}",
      "",
      "Reply EXACTLY one of:",
      "  \u0060auto\u0060 — apply auto-skip + auto-resolve, prompt only on divergent",
      "  \u0060step\u0060 — sequential: classify → present → resolve one at a time",
      "  \u0060abort\u0060 — abort entire rebase"]

def parseMode (reply : String) : Option NavigationMode :=
  let trimmed := trim reply.toList
  if trimmed = "auto".toList then some .auto
  else if trimmed = "step".toList then some .step
  else if trimmed = "abort".toList then some .abort
  else none

/-- The mode of the first reply that names one, of the attempts that are left. -/
def askMode (prompt : String → Nat → String) (summary : String) : Nat → Nat → Option NavigationMode
  | 0, _ => none
  | attempts + 1, asked =>
    match parseMode (prompt summary asked) with
    | some mode => some mode
    | none => askMode prompt summary attempts (asked + 1)

def synthesizeAutoResolveContent (hunks : List ConflictHunk) : List Char :=
  ['\n'].intercalate (hunks.map ConflictHunk.theirs)

def buildAutoAction (conflict : ConflictRecord) : ResolveAction :=
  match conflict.classification.conflictClass with
  | .duplicateContent => .skip conflict.classification.reason
  | .autoResolvableTrivial =>
    .autoResolve (synthesizeAutoResolveContent conflict.hunks) conflict.classification.reason
  | .divergentContent => .abortRebase "Unexpected divergent conflict in auto action builder"

/-- The action of a conflict in the automatic mode, and whether its user chose it. -/
def chooseAction (resolveDivergent : ConflictRecord → ResolveAction) (conflict : ConflictRecord) :
    ResolveAction × Bool :=
  if conflict.classification.conflictClass = .divergentContent then (resolveDivergent conflict, true)
  else (buildAutoAction conflict, false)

/-- One conflict after another; `choose` gives the action and whether its user chose it. -/
def resolveEach (mode : NavigationMode) (choose : ConflictRecord → ResolveAction × Bool)
    (unresolved : List ConflictRecord → Option (List ConflictRecord)) (faults : Nat → ActionFaults) :
    List ConflictRecord → List Applied → Rebase → NavigationResult × Rebase
  | [], applied, rebase => ({ ok := true, mode := mode, applied := applied }, rebase)
  | conflict :: rest, applied, rebase =>
    let (action, chosen) := choose conflict
    let aborts := chosen && action.isAbort
    match applyResolveAction action conflict.filePath (faults applied.length) rebase with
    | (.failed _ _, after) =>
      ({ ok := false, mode := mode, applied := applied
         aborted := some (if aborts then "abort_rebase" else "apply_failed"), unresolved := unresolved rest }, after)
    | (.ok kind auditEntry, after) =>
      let applied := applied ++ [⟨conflict.filePath, kind, auditEntry⟩]
      if aborts then
        ({ ok := false, mode := mode, applied := applied
           aborted := some "abort_rebase", unresolved := unresolved rest }, after)
      else resolveEach mode choose unresolved faults rest applied after

def abortAll (faults : ActionFaults) (rebase : Rebase) : NavigationResult × Rebase :=
  match applyResolveAction (.abortRebase "user-requested abort") "" faults rebase with
  | (.ok _ auditEntry, after) =>
    ({ ok := true, mode := .abort, applied := [⟨"", "abort_rebase", auditEntry⟩] }, after)
  | (.failed _ _, after) => ({ ok := false, mode := .abort, applied := [], aborted := some "apply_failed" }, after)

def navigateConflicts (conflicts : List ConflictRecord) (prompt : String → Nat → String)
    (resolveDivergent : ConflictRecord → ResolveAction) (faults : Nat → ActionFaults) (rebase : Rebase) :
    NavigationResult × Rebase :=
  if conflicts.isEmpty then ({ ok := true, mode := .auto, applied := [] }, rebase)
  else
    match askMode prompt (buildBatchSummary conflicts) 3 0 with
    | none => ({ ok := false, mode := .abort, applied := [], aborted := some "ambiguous_reply" }, rebase)
    | some .abort => abortAll (faults 0) rebase
    | some .auto =>
      resolveEach .auto (chooseAction resolveDivergent) (fun _ => none) faults conflicts [] rebase
    | some .step =>
      resolveEach .step (fun conflict => (resolveDivergent conflict, true)) some faults conflicts [] rebase

/-! ## Contents -/

theorem joinLines_injective {left right : List Line} (leftSome : left ≠ []) (rightSome : right ≠ [])
    (same : joinLines left = joinLines right) : left = right := by
  have unsplit : ∀ lines : List Line, lines ≠ [] → (joinLines lines).splitOn '\n' = lines.map Subtype.val := by
    intro lines some
    refine List.splitOn_intercalate '\n' ?_ ?_
    · intro text member
      obtain ⟨line, _, rfl⟩ := List.mem_map.mp member
      exact line.property
    · exact fun empty => some (List.map_eq_nil_iff.mp empty)
  have texts : left.map Subtype.val = right.map Subtype.val := by
    rw [← unsplit left leftSome, ← unsplit right rightSome, same]
  exact List.map_injective_iff.mpr Subtype.val_injective texts

theorem joinLines_cons {line : Line} {lines : List Line} (some : lines ≠ []) :
    joinLines (line :: lines) = line.val ++ '\n' :: joinLines lines := by
  cases lines with
  | nil => exact absurd rfl some
  | cons next lines => simp [joinLines, List.intercalate]

theorem joinLines_append {left right : List Line} (leftSome : left ≠ []) (rightSome : right ≠ []) :
    joinLines (left ++ right) = joinLines left ++ '\n' :: joinLines right := by
  induction left with
  | nil => exact absurd rfl leftSome
  | cons line left ih =>
    cases left with
    | nil =>
      rw [List.singleton_append, joinLines_cons rightSome]
      simp [joinLines, List.intercalate]
    | cons next left =>
      have later : next :: left ≠ [] := List.cons_ne_nil _ _
      rw [List.cons_append, joinLines_cons (List.append_ne_nil_of_left_ne_nil later right), ih later,
        joinLines_cons later, List.append_assoc, List.cons_append]

theorem joinLines_flatten {blocks : List (List Line)} (some : ∀ block ∈ blocks, block ≠ []) :
    ['\n'].intercalate (blocks.map joinLines) = joinLines blocks.flatten := by
  induction blocks with
  | nil => rfl
  | cons block blocks ih =>
    obtain ⟨blockSome, blocksSome⟩ := List.forall_mem_cons.mp some
    cases blocks with
    | nil => simp [List.intercalate]
    | cons next blocks =>
      have restSome : (next :: blocks).flatten ≠ [] := by
        simp [(List.forall_mem_cons.mp blocksSome).1]
      rw [List.flatten_cons, joinLines_append blockSome restSome, ← ih blocksSome]
      simp [List.intercalate]

/-- The incoming lines of the hunks, without the lines between them. -/
def Segment.incoming : Segment → Option (List Line)
  | kept _ => none
  | conflict _ theirs => some theirs

theorem hunks_theirs (file : ConflictedFile) :
    file.hunks.map ConflictHunk.theirs = (file.segments.filterMap Segment.incoming).map joinLines := by
  unfold ConflictedFile.hunks
  induction file.segments with
  | nil => rfl
  | cons segment segments ih =>
    cases segment with
    | kept line => exact ih
    | conflict ours theirs => exact congrArg (joinLines theirs :: ·) ih

theorem incoming_length (segments : List Segment) : (segments.flatMap Segment.resolved).length =
      (segments.filterMap Segment.incoming).flatten.length + segments.countP Segment.isKept := by
  induction segments with
  | nil => rfl
  | cons segment segments ih =>
    cases segment with
    | kept line =>
      simp only [List.flatMap_cons, Segment.resolved, List.length_append, ih, List.filterMap_cons, Segment.incoming,
        List.length_singleton, List.countP_cons, Segment.isKept, if_true]
      omega
    | conflict ours theirs =>
      simp only [List.flatMap_cons, Segment.resolved, List.length_append, ih, List.filterMap_cons, Segment.incoming,
        List.flatten_cons, List.countP_cons, Segment.isKept]
      simp only [Bool.false_eq_true, if_false]
      omega

theorem incoming_of_unkept {segments : List Segment} (unkept : ∀ segment ∈ segments, segment.isKept = false) :
    segments.flatMap Segment.resolved = (segments.filterMap Segment.incoming).flatten := by
  induction segments with
  | nil => rfl
  | cons segment segments ih =>
    obtain ⟨first, rest⟩ := List.forall_mem_cons.mp unkept
    cases segment with
    | kept line => cases first
    | conflict ours theirs => simp [Segment.resolved, Segment.incoming, ih rest]

variable {file : ConflictedFile}

theorem synthesized_iff (trivial : AllTrivial file.hunks) :
    synthesizeAutoResolveContent file.hunks = file.resolvedText ↔
      ∀ segment ∈ file.segments, segment.isKept = false := by
  have texts : file.hunks.map ConflictHunk.theirs = (file.segments.filterMap Segment.incoming).map joinLines :=
    hunks_theirs file
  have blocks : ∀ block ∈ file.segments.filterMap Segment.incoming, block ≠ [] := by
    rintro block member rfl
    have listed : joinLines [] ∈ file.hunks.map ConflictHunk.theirs := by
      rw [texts]
      exact List.mem_map_of_mem member
    obtain ⟨hunk, among, empty⟩ := List.mem_map.mp listed
    exact (trivial.sided hunk among).2 empty
  have someBlock : file.segments.filterMap Segment.incoming ≠ [] := by
    intro none
    rw [none] at texts
    exact trivial.some (List.map_eq_nil_iff.mp texts)
  have someLine : (file.segments.filterMap Segment.incoming).flatten ≠ [] := by
    obtain ⟨block, member⟩ := List.exists_mem_of_ne_nil _ someBlock
    intro empty
    exact blocks block member (List.flatten_eq_nil_iff.mp empty block member)
  rw [synthesizeAutoResolveContent, texts, joinLines_flatten blocks, ConflictedFile.resolvedText]
  constructor
  · intro same
    have resolvedSome : file.segments.flatMap Segment.resolved ≠ [] := by
      intro empty
      have counted := incoming_length file.segments
      rw [empty, List.length_nil] at counted
      exact someLine (List.length_eq_zero_iff.mp (by omega))
    have counted := incoming_length file.segments
    rw [← joinLines_injective someLine resolvedSome same] at counted
    have none : file.segments.countP Segment.isKept = 0 := by omega
    simpa [List.countP_eq_zero] using none
  · intro unkept
    rw [incoming_of_unkept unkept]

/-! ## What the automatic mode loses -/

def RebaseEffect.writtenPath : RebaseEffect → Option String
  | wrote path _ => some path
  | continued _ | skipped _ | aborted => none

/-- Every file is written as its merged content with the incoming sides, and once; a step goes on
    with all its files so; and a step is skipped only when the default branch has all of it. -/
structure LosesNothing (step : RebaseStep) (log : List RebaseEffect) : Prop where
  written : ∀ path content, .wrote path content ∈ log →
    ∃ file ∈ step.files, file.path = path ∧ content = file.resolvedText
  once : (log.filterMap RebaseEffect.writtenPath).Nodup
  continued : ∀ done, .continued done ∈ log → ∀ file ∈ done.files, .wrote file.path file.resolvedText ∈ log
  skipped : ∀ dropped, .skipped dropped ∈ log → dropped.Present

def ResolvesAll (step : RebaseStep) (log : List RebaseEffect) : Prop :=
  .skipped step ∈ log ∨ ∀ file ∈ step.files, .wrote file.path file.resolvedText ∈ log

section

variable (resolvedBranch : Option String)

def isDuplicate (file : ConflictedFile) : Bool :=
  (detectSkipDuplicate resolvedBranch file.currentOid file.originOid).isDuplicate

def recordOf (file : ConflictedFile) : ConflictRecord :=
  ⟨file.path, file.hunks, classifyConflict (isDuplicate resolvedBranch file) file.hunks⟩

/-- There is one file and it has no line outside its markers; or the first file is a duplicate, and the
    default branch has all of the step. -/
def Resolvable (step : RebaseStep) : Prop :=
  match step.files with
  | [] => True
  | first :: rest =>
    if isDuplicate resolvedBranch first then step.Present
    else rest = [] ∧ ∀ segment ∈ first.segments, segment.isKept = false

end

variable {resolvedBranch : Option String} {resolveDivergent : ConflictRecord → ResolveAction}
  {faults : Nat → ActionFaults} {applied : List Applied} {rebase : Rebase}

theorem isDuplicate_iff : isDuplicate resolvedBranch file = true ↔
      (resolvedBranch.filter (· ≠ "")).isSome ∧ file.currentOid.isSome ∧ file.currentOid = file.originOid := by
  unfold isDuplicate detectSkipDuplicate
  cases resolvedBranch.filter (· ≠ "") with
  | none => simp
  | some branch =>
    by_cases same : file.currentOid.isSome ∧ file.currentOid = file.originOid
    · dsimp only
      rw [if_pos same]
      exact ⟨fun _ => ⟨rfl, same⟩, fun _ => rfl⟩
    · dsimp only
      rw [if_neg same]
      exact ⟨nofun, fun duplicate => absurd duplicate.2 same⟩

theorem action_duplicate (duplicate : isDuplicate resolvedBranch file = true) :
    chooseAction resolveDivergent (recordOf resolvedBranch file) =
      (.skip "duplicate-content commit (T28: tree matches origin/<default>)", false) := by
  simp [chooseAction, recordOf, duplicate, classifyConflict, buildAutoAction]

theorem action_trivial (trivial : AllTrivial file.hunks) (fresh : isDuplicate resolvedBranch file = false) :
    ∃ reason, chooseAction resolveDivergent (recordOf resolvedBranch file) =
      (.autoResolve (synthesizeAutoResolveContent file.hunks) reason, false) := by
  have classified := classify_trivial trivial false
  exact ⟨(classifyConflict false file.hunks).reason, by
    simp [chooseAction, recordOf, fresh, buildAutoAction, classified]⟩

/-! ## Actions and their effects -/

theorem skip_cases (fault : Option String) (rebase : Rebase) :
    (∃ error, gitRebaseSkip fault rebase = (some error, rebase)) ∨ ∃ step later, rebase.steps = step :: later ∧
        gitRebaseSkip fault rebase = leaveStep (.skipped step) later rebase := by
  unfold gitRebaseSkip
  cases fault with
  | some error => exact .inl ⟨error, rfl⟩
  | none =>
    cases rebase.steps with
    | nil => exact .inl ⟨_, rfl⟩
    | cons step later => exact .inr ⟨step, later, rfl, rfl⟩

theorem continue_cases (fault : Option String) (rebase : Rebase) :
    (∃ error, gitRebaseContinue fault rebase = (some error, rebase)) ∨
      ∃ step later, rebase.steps = step :: later ∧ (∀ file ∈ step.files, file.path ∈ rebase.staged) ∧
        gitRebaseContinue fault rebase = leaveStep (.continued step) later rebase := by
  unfold gitRebaseContinue
  cases fault with
  | some error => exact .inl ⟨error, rfl⟩
  | none =>
    cases rebase.steps with
    | nil => exact .inl ⟨_, rfl⟩
    | cons step later =>
      simp only
      split
      next staged => exact .inr ⟨step, later, rfl, by simpa using staged, rfl⟩
      · exact .inl ⟨_, rfl⟩

theorem single_snd (command : Option String × Rebase) (failure : ResolveError) (kind auditEntry : String) :
    (single command failure kind auditEntry).2 = command.2 := by
  obtain ⟨error, after⟩ := command
  cases error <;> rfl

theorem resolveInPlace_cases (filePath : String) (content : List Char) (kind auditEntry : String)
    (faults : ActionFaults) (rebase : Rebase) :
    (∃ error detail after, resolveInPlace filePath content kind auditEntry faults rebase =
        (.failed error detail, after) ∧
        (after.log = rebase.log ∨ after.log = rebase.log ++ [.wrote filePath content])) ∨
      ∃ step later, rebase.steps = step :: later ∧ (∀ file ∈ step.files, file.path ∈ filePath :: rebase.staged) ∧
        (resolveInPlace filePath content kind auditEntry faults rebase).2.log =
          rebase.log ++ [.wrote filePath content] ++ [.continued step] := by
  unfold resolveInPlace safeWriteFile gitAdd
  cases faults.write with
  | some error => exact .inl ⟨_, _, _, rfl, .inl rfl⟩
  | none =>
    cases faults.add with
    | some error => exact .inl ⟨_, _, _, rfl, .inr rfl⟩
    | none =>
      simp only
      rcases continue_cases faults.proceed
          ⟨rebase.steps, filePath :: rebase.staged, rebase.log ++ [.wrote filePath content]⟩ with
        ⟨error, failed⟩ | ⟨step, later, steps, staged, done⟩
      · rw [failed]
        exact .inl ⟨_, _, _, rfl, .inr rfl⟩
      · rw [done]
        refine .inr ⟨step, later, steps, staged, ?_⟩
        cases later <;> rfl

theorem apply_grows (action : ResolveAction) (filePath : String) (faults : ActionFaults) (rebase : Rebase) :
    ∃ more, (applyResolveAction action filePath faults rebase).2.log = rebase.log ++ more := by
  have inPlace : ∀ content kind auditEntry, ∃ more,
      (resolveInPlace filePath content kind auditEntry faults rebase).2.log = rebase.log ++ more := by
    intro content kind auditEntry
    rcases resolveInPlace_cases filePath content kind auditEntry faults rebase with
      ⟨_, _, after, result, same | wrote⟩ | ⟨step, later, _, _, log⟩
    · exact ⟨[], by rw [result, same, List.append_nil]⟩
    · exact ⟨_, by rw [result, wrote]⟩
    · exact ⟨_, by rw [log, List.append_assoc]⟩
  have skipping : ∀ kind auditEntry, ∃ more,
      (single (gitRebaseSkip faults.skip rebase) .gitFailed kind auditEntry).2.log = rebase.log ++ more := by
    intro kind auditEntry
    rw [single_snd]
    rcases skip_cases faults.skip rebase with ⟨error, failed⟩ | ⟨step, later, _, done⟩
    · exact ⟨[], by rw [failed, List.append_nil]⟩
    · exact ⟨_, by rw [done]; rfl⟩
  cases action with
  | skip reason => exact skipping _ _
  | autoResolve content reason => exact inPlace _ _ _
  | userResolveInPlace content reason => exact inPlace _ _ _
  | skipWithDecision reason => exact skipping _ _
  | abortRebase reason =>
    simp only [applyResolveAction, single_snd, gitRebaseAbort]
    cases faults.abort with
    | some error => exact ⟨[], by simp⟩
    | none =>
      cases rebase.steps with
      | nil => exact ⟨[], by simp⟩
      | cons step later => exact ⟨_, rfl⟩

theorem resolveEach_grows (mode : NavigationMode) (choose : ConflictRecord → ResolveAction × Bool)
    (unresolved : List ConflictRecord → Option (List ConflictRecord)) (faults : Nat → ActionFaults)
    (conflicts : List ConflictRecord) (applied : List Applied) (rebase : Rebase) :
    ∃ more, (resolveEach mode choose unresolved faults conflicts applied rebase).2.log = rebase.log ++ more := by
  induction conflicts generalizing applied rebase with
  | nil => exact ⟨[], (List.append_nil _).symm⟩
  | cons conflict rest ih =>
    obtain ⟨more, grown⟩ := apply_grows (choose conflict).1 conflict.filePath (faults applied.length) rebase
    simp only [resolveEach]
    cases result : applyResolveAction (choose conflict).1 conflict.filePath (faults applied.length) rebase with
    | mk answer after =>
      rw [result] at grown
      cases answer with
      | failed error detail => exact ⟨more, grown⟩
      | ok kind auditEntry =>
        simp only
        split
        · exact ⟨more, grown⟩
        · obtain ⟨later, grownLater⟩ := ih (applied ++ [⟨conflict.filePath, kind, auditEntry⟩]) after
          exact ⟨more ++ later, by rw [grownLater, grown, List.append_assoc]⟩

theorem resolveEach_first (mode : NavigationMode) (choose : ConflictRecord → ResolveAction × Bool)
    (unresolved : List ConflictRecord → Option (List ConflictRecord)) (faults : Nat → ActionFaults)
    (conflict : ConflictRecord) (rest : List ConflictRecord) (applied : List Applied) (rebase : Rebase) :
    ∃ more, (resolveEach mode choose unresolved faults (conflict :: rest) applied rebase).2.log =
      (applyResolveAction (choose conflict).1 conflict.filePath (faults applied.length) rebase).2.log ++ more := by
  simp only [resolveEach]
  cases applyResolveAction (choose conflict).1 conflict.filePath (faults applied.length) rebase with
  | mk answer after =>
    cases answer with
    | failed error detail => exact ⟨[], (List.append_nil _).symm⟩
    | ok kind auditEntry =>
      simp only
      split
      · exact ⟨[], (List.append_nil _).symm⟩
      · exact resolveEach_grows mode choose unresolved faults rest _ after

/-! ## The automatic mode -/

/-- The automatic mode over the files of a step. -/
def autoResolve (resolvedBranch : Option String) (resolveDivergent : ConflictRecord → ResolveAction)
    (faults : Nat → ActionFaults) (files : List ConflictedFile) (applied : List Applied) (rebase : Rebase) :
    NavigationResult × Rebase :=
  resolveEach .auto (chooseAction resolveDivergent) (fun _ => none) faults (files.map (recordOf resolvedBranch))
    applied rebase

variable {rest : List ConflictedFile}

theorem autoResolve_duplicate (duplicate : isDuplicate resolvedBranch file = true) :
    (autoResolve resolvedBranch resolveDivergent faults (file :: rest) applied rebase).2 = rebase ∨
      ∃ step later, rebase.steps = step :: later ∧
        ((autoResolve resolvedBranch resolveDivergent faults (file :: rest) applied rebase).2 =
            ⟨later, [], rebase.log ++ [.skipped step]⟩ ∨
          ∃ applied', (autoResolve resolvedBranch resolveDivergent faults (file :: rest) applied rebase).2 =
            (autoResolve resolvedBranch resolveDivergent faults rest applied'
              ⟨[], [], rebase.log ++ [.skipped step]⟩).2) := by
  simp only [autoResolve, List.map_cons, resolveEach, action_duplicate duplicate, applyResolveAction]
  rcases skip_cases (faults applied.length).skip rebase with ⟨error, failed⟩ | ⟨step, later, steps, done⟩
  · exact .inl (by simp only [failed, single])
  · refine .inr ⟨step, later, steps, ?_⟩
    cases later with
    | cons next later => exact .inl (by simp only [done, leaveStep, single, List.isEmpty_cons]; rfl)
    | nil =>
      exact .inr ⟨_, by
        simp only [done, leaveStep, single, List.isEmpty_nil, if_true, Bool.false_and, Bool.false_eq_true, if_false]
        rfl⟩

theorem duplicates_skip {files : List ConflictedFile}
    (duplicates : ∀ file ∈ files, isDuplicate resolvedBranch file = true) :
    (autoResolve resolvedBranch resolveDivergent faults files applied rebase).2.log = rebase.log ∨
      ∃ step later, rebase.steps = step :: later ∧
        (autoResolve resolvedBranch resolveDivergent faults files applied rebase).2.log =
          rebase.log ++ [.skipped step] := by
  induction files generalizing applied rebase with
  | nil => exact .inl rfl
  | cons file rest ih =>
    obtain ⟨duplicate, others⟩ := List.forall_mem_cons.mp duplicates
    have head : (autoResolve resolvedBranch resolveDivergent faults (file :: rest) applied rebase).2 = rebase ∨ _ :=
      autoResolve_duplicate duplicate
    rcases head with same | ⟨step, later, steps, left | ⟨applied', goesOn⟩⟩
    · exact .inl (by rw [same])
    · exact .inr ⟨step, later, steps, by rw [left]⟩
    · refine .inr ⟨step, later, steps, ?_⟩
      have tail : (autoResolve resolvedBranch resolveDivergent faults rest applied'
          ⟨[], [], rebase.log ++ [.skipped step]⟩).2.log = rebase.log ++ [.skipped step] ∨ _ := ih others
      rcases tail with same | ⟨_, _, none, _⟩
      · rw [goesOn, same]
      · cases none

variable {step : RebaseStep}

theorem autoResolve_skips {later : List RebaseStep} (duplicate : isDuplicate resolvedBranch file = true)
    (steps : rebase.steps = step :: later) : .skipped step ∈
      (autoResolve resolvedBranch resolveDivergent (fun _ => .none) (file :: rest) applied rebase).2.log := by
  obtain ⟨more, grown⟩ := resolveEach_first .auto (chooseAction resolveDivergent) (fun _ => none) (fun _ => .none)
    (recordOf resolvedBranch file) (rest.map (recordOf resolvedBranch)) applied rebase
  rw [autoResolve, List.map_cons, grown, action_duplicate duplicate]
  simp [applyResolveAction, single_snd, gitRebaseSkip, ActionFaults.none, steps, leaveStep]

theorem autoResolve_first (trivial : AllTrivial file.hunks) (fresh : isDuplicate resolvedBranch file = false) :
    ((autoResolve resolvedBranch resolveDivergent faults (file :: rest) applied rebase).2.log = rebase.log ∨
      (autoResolve resolvedBranch resolveDivergent faults (file :: rest) applied rebase).2.log =
        rebase.log ++ [.wrote file.path (synthesizeAutoResolveContent file.hunks)]) ∨
      ∃ step later, rebase.steps = step :: later ∧ (∀ other ∈ step.files, other.path ∈ file.path :: rebase.staged) ∧
        (rest = [] → (autoResolve resolvedBranch resolveDivergent faults (file :: rest) applied rebase).2.log =
          rebase.log ++ [.wrote file.path (synthesizeAutoResolveContent file.hunks)] ++ [.continued step]) := by
  obtain ⟨reason, action⟩ : ∃ reason, chooseAction resolveDivergent (recordOf resolvedBranch file) =
      (.autoResolve (synthesizeAutoResolveContent file.hunks) reason, false) := action_trivial trivial fresh
  simp only [autoResolve, List.map_cons, resolveEach, action, applyResolveAction]
  rcases resolveInPlace_cases (recordOf resolvedBranch file).filePath (synthesizeAutoResolveContent file.hunks)
      (ResolveAction.autoResolve (synthesizeAutoResolveContent file.hunks) reason).kind
      s!"auto-resolved: {reason}" (faults applied.length) rebase with
    ⟨error, detail, after, failed, log⟩ | ⟨step, later, steps, staged, log⟩
  · rw [failed]
    exact .inl log
  · refine .inr ⟨step, later, steps, staged, ?_⟩
    rintro rfl
    cases result : resolveInPlace (recordOf resolvedBranch file).filePath (synthesizeAutoResolveContent file.hunks)
        (ResolveAction.autoResolve (synthesizeAutoResolveContent file.hunks) reason).kind
        s!"auto-resolved: {reason}" (faults applied.length) rebase with
    | mk answer after =>
      rw [result] at log
      cases answer <;> exact log

theorem autoResolve_writes (trivial : AllTrivial file.hunks) (fresh : isDuplicate resolvedBranch file = false) :
    .wrote file.path (synthesizeAutoResolveContent file.hunks) ∈
      (autoResolve resolvedBranch resolveDivergent (fun _ => .none) (file :: rest) applied rebase).2.log := by
  obtain ⟨reason, action⟩ : ∃ reason, chooseAction resolveDivergent (recordOf resolvedBranch file) =
      (.autoResolve (synthesizeAutoResolveContent file.hunks) reason, false) := action_trivial trivial fresh
  obtain ⟨more, grown⟩ := resolveEach_first .auto (chooseAction resolveDivergent) (fun _ => none) (fun _ => .none)
    (recordOf resolvedBranch file) (rest.map (recordOf resolvedBranch)) applied rebase
  rw [autoResolve, List.map_cons, grown, action]
  refine List.mem_append_left _ ?_
  simp only [applyResolveAction, resolveInPlace, safeWriteFile, gitAdd, ActionFaults.none]
  rcases continue_cases none ⟨rebase.steps, file.path :: rebase.staged,
      rebase.log ++ [.wrote file.path (synthesizeAutoResolveContent file.hunks)]⟩ with
    ⟨error, failed⟩ | ⟨step, later, steps, staged, done⟩
  · simp only [recordOf, failed]
    simp
  · simp only [recordOf, done]
    cases later <;> simp [leaveStep]

/-! ## When nothing is lost -/

theorem LosesNothing.of_skip {log : List RebaseEffect} (present : step.Present)
    (cases : log = [] ∨ log = [.skipped step]) : LosesNothing step log := by
  rcases cases with rfl | rfl
  · exact ⟨by simp, by simp, by simp, by simp⟩
  · exact ⟨by simp, List.nodup_nil, by simp, by simpa using present⟩

theorem LosesNothing.of_first (member : file ∈ step.files) {log : List RebaseEffect}
    (cases : log = [] ∨ log = [.wrote file.path file.resolvedText] ∨
      step.files = [file] ∧ log = [.wrote file.path file.resolvedText, .continued step]) : LosesNothing step log := by
  have written : ∀ path content, RebaseEffect.wrote path content = .wrote file.path file.resolvedText →
      ∃ file ∈ step.files, file.path = path ∧ content = file.resolvedText := by
    rintro _ _ same
    cases same
    exact ⟨file, member, rfl, rfl⟩
  rcases cases with rfl | rfl | ⟨only, rfl⟩
  · exact ⟨by simp, by simp, by simp, by simp⟩
  · refine ⟨fun path content among => written path content (List.mem_singleton.mp among), ?_, by simp, by simp⟩
    simp [RebaseEffect.writtenPath]
  · refine ⟨fun path content among => ?_, List.nodup_singleton file.path, fun done among => ?_, by simp⟩
    · refine written path content ?_
      simpa using among
    · obtain rfl : done = step := by simpa using among
      intro other otherMember
      rw [only, List.mem_singleton] at otherMember
      rw [otherMember]
      exact List.mem_cons_self

theorem RebaseStep.alone {first : ConflictedFile}
    (files : step.files = first :: rest) (paths : ∀ file ∈ step.files, file.path = first.path) : rest = [] := by
  have distinct := step.distinct
  rw [files, List.map_cons, List.nodup_cons] at distinct
  refine List.eq_nil_iff_forall_not_mem.mpr fun other among => distinct.1 ?_
  rw [← paths other (by rw [files]; exact List.mem_cons_of_mem _ among)]
  exact List.mem_map_of_mem among

section

variable {step : RebaseStep} {later : List RebaseStep} {first : ConflictedFile} {rest : List ConflictedFile}

theorem loses_nothing_duplicate (files : step.files = first :: rest)
    (duplicate : isDuplicate resolvedBranch first = true) :
    let log := fun faults =>
      (autoResolve resolvedBranch resolveDivergent faults (first :: rest) [] ⟨step :: later, [], []⟩).2.log
    ((∀ faults, LosesNothing step (log faults)) ∧ ResolvesAll step (log fun _ => .none)) ↔ step.Present := by
  intro log
  have skipped : .skipped step ∈ log fun _ => .none := autoResolve_skips duplicate rfl
  constructor
  · exact fun ⟨loses, _⟩ => (loses fun _ => .none).skipped step skipped
  · intro present
    have duplicates : ∀ file ∈ first :: rest, isDuplicate resolvedBranch file = true := by
      intro file among
      obtain ⟨resolved, _, _⟩ := isDuplicate_iff.mp duplicate
      refine isDuplicate_iff.mpr ⟨resolved, present.files file ?_⟩
      rw [files]
      exact among
    refine ⟨fun faults => .of_skip present ?_, .inl skipped⟩
    have logged : log faults = [] ∨ _ := duplicates_skip duplicates
    rcases logged with logged | ⟨_, _, steps, logged⟩
    · exact .inl logged
    · cases steps
      exact .inr logged

theorem loses_nothing_fresh (files : step.files = first :: rest) (trivial : AllTrivial first.hunks)
    (fresh : isDuplicate resolvedBranch first = false) :
    let log := fun faults =>
      (autoResolve resolvedBranch resolveDivergent faults (first :: rest) [] ⟨step :: later, [], []⟩).2.log
    ((∀ faults, LosesNothing step (log faults)) ∧ ResolvesAll step (log fun _ => .none)) ↔
      rest = [] ∧ ∀ segment ∈ first.segments, segment.isKept = false := by
  intro log
  have member : first ∈ step.files := by rw [files]; exact List.mem_cons_self
  have written : .wrote first.path (synthesizeAutoResolveContent first.hunks) ∈ log fun _ => .none :=
    autoResolve_writes trivial fresh
  have firstOf := fun faults => (autoResolve_first trivial fresh : (log faults = [] ∨ log faults = _) ∨ _)
  rw [← synthesized_iff trivial]
  constructor
  · rintro ⟨loses, resolves⟩
    obtain ⟨file, among, samePath, content⟩ := (loses fun _ => .none).written _ _ written
    have same : file = first := List.inj_on_of_nodup_map step.distinct among member samePath
    refine ⟨RebaseStep.alone files ?_, by rw [content, same]⟩
    rcases firstOf fun _ => .none with logged | ⟨_, _, steps, staged, _⟩
    · -- git is still at the step: nothing but the first file is written
      intro other otherMember
      have inLog : ∀ effect ∈ log fun _ => .none, effect = .wrote first.path (synthesizeAutoResolveContent first.hunks) := by
        rcases logged with logged | logged <;> simp [log, logged]
      rcases resolves with skipped | all
      · cases inLog _ skipped
      · exact (RebaseEffect.wrote.inj (inLog _ (all other otherMember))).1
    · cases steps
      exact fun other otherMember => List.mem_singleton.mp (staged other otherMember)
  · rintro ⟨alone, resolved⟩
    refine ⟨fun faults => .of_first member ?_, .inr fun file among => ?_⟩
    · rcases firstOf faults with (logged | logged) | ⟨_, _, steps, staged, logged⟩
      · exact .inl logged
      · exact .inr (.inl (logged.trans (by rw [resolved]; rfl)))
      · cases steps
        exact .inr (.inr ⟨by rw [files, alone], (logged alone).trans (by rw [resolved]; rfl)⟩)
    · rw [files, alone, List.mem_singleton] at among
      rw [among, ← resolved]
      exact written

end

theorem navigate_auto {prompt : String → Nat → String}
    (auto : askMode prompt (buildBatchSummary ((file :: rest).map (recordOf resolvedBranch))) 3 0 = some .auto) :
    (navigateConflicts ((file :: rest).map (recordOf resolvedBranch)) prompt resolveDivergent faults rebase).2 =
      (autoResolve resolvedBranch resolveDivergent faults (file :: rest) [] rebase).2 := by
  rw [List.map_cons] at auto
  simp only [navigateConflicts, auto, List.map_cons, List.isEmpty_cons, Bool.false_eq_true, if_false]
  rfl

section

def reindented : Segment := .conflict [⟨"  total".toList, by decide⟩] [⟨"total".toList, by decide⟩]

def reindentStep (before : List Segment) : RebaseStep where
  files := [⟨"sum.ts", before ++ [reindented], some "a", some "b"⟩]
  others := []
  distinct := List.nodup_singleton _

theorem reindented_trivial (before : List Line) :
    ∀ file ∈ (reindentStep (before.map .kept)).files, AllTrivial file.hunks := by
  have hunks : ((before.map Segment.kept).filterMap Segment.hunk) = [] := by
    simp [Segment.hunk]
  intro file among
  rw [List.mem_singleton.mp among]
  have only : ConflictedFile.hunks ⟨"sum.ts", before.map .kept ++ [reindented], some "a", some "b"⟩ =
      [⟨"  total".toList, "total".toList, none⟩] := by
    rw [ConflictedFile.hunks, List.filterMap_append, hunks]
    rfl
  rw [only]
  exact ⟨by decide, by decide +kernel, by decide +kernel⟩

theorem reindented_fresh (before : List Segment) :
    ∀ file ∈ (reindentStep before).files, isDuplicate (some "main") file = false := by
  intro file among
  rw [List.mem_singleton.mp among]
  rfl

end

end Advance.Tools
