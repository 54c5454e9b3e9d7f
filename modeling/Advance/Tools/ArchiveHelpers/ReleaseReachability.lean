import Advance.Foundation.CommitGraph

/-! # Whether a change is released

Git and GitHub answer about one history: the commits, origin's default branch, the branches and the pull requests.
A command may also fail.
-/

namespace Advance.Tools.ArchiveHelpers

open Advance.Foundation

/-! ## The history -/

inductive PullRequestState where
  | opened
  | closed
  | merged
  deriving DecidableEq

structure HeadRepository where
  name : Option String
  nameWithOwner : Option String

structure PullRequest (Sha : Type) where
  number : Nat
  state : PullRequestState
  mergedAt : Option String
  mergeCommit : Option Sha
  headRefName : String
  headRefOid : Sha
  baseRefName : String
  headRepositoryOwner : Option String
  headRepository : Option HeadRepository
  isCrossRepository : Bool

inductive ReleaseCommand where
  | fetchDefault
  | revParseHead
  | lsRemote
  | fetchBranch
  | revParseBranch
  | branchAncestor
  | exactList
  | exactAncestor
  | exactDefault
  | discover
  | view
  | tree
  | log
  | preArchiveTree
  | preArchiveLog
  deriving DecidableEq

/-- What a failed command leaves. -/
structure CommandFailure where
  reason : String
  lines : List String

/-- What git and gh have to answer about; pull requests are listed by repository in the order gh lists them. -/
structure ReleaseHistory (Sha Tree : Type) extends CommitGraph Sha Tree where
  text : Sha → String
  originDefault : Sha
  head : Sha
  originBranches : String → Option Sha
  branches : String → Option Sha
  trunk : List Sha
  logged : ∀ commit ∈ trunk, isAncestor commit originDefault = true
  pullRequests : Option String → List (PullRequest Sha)
  failure : ReleaseCommand → Option CommandFailure

/-! ## Input and answer -/

inductive RouteKind where
  | direct
  | pr_auto_merge
  | pr_manual
  | merge_queue
  | blocked
  | no_remote
  deriving DecidableEq

structure FinalizationRoute where
  route : RouteKind
  repo : Option String
  reason : Option String
  details : Option (List String)

/-- The route is the one given, or as it is classified. -/
structure ReleaseReachabilityInput (Sha : Type) where
  defaultBranch : String
  changeId : String
  sourceBranch : Option String
  route : FinalizationRoute
  prNumber : Option Nat
  repo : Option String
  prHeadSha : Option Sha
  changeTipSha : Option Sha
  preArchiveTipSha : Option Sha

def ReleaseReachabilityInput.branch {Sha : Type} (input : ReleaseReachabilityInput Sha) : String :=
  input.sourceBranch.getD ("change/" ++ input.changeId)

def ReleaseReachabilityInput.tips {Sha : Type} (input : ReleaseReachabilityInput Sha) : List Sha :=
  input.changeTipSha.toList ++ input.preArchiveTipSha.toList

inductive ReachableProof where
  | origin_default
  | pr_merged
  | pr_merged_by_tree_pre_archive
  deriving DecidableEq

inductive UnreachableProof where
  | blocked
  | origin_push_unverified
  | change_ref_unresolved
  | origin_unmerged
  | pr_unmerged
  | pr_missing_merge_proof
  deriving DecidableEq

structure ExactHead (Sha : Type) where
  prHeadSha : Sha
  defaultBranchSha : Sha

inductive ReleaseReachabilityProof (Sha : Type) where
  | reachable (proof : ReachableProof) (releasedCommitSha : Sha) (prNumber : Option Nat)
      (mergeCommitOid : Option Sha) (exact : Option (ExactHead Sha))
  | unreachable (proof : UnreachableProof) (prNumber : Option Nat) (details : List String)

/-- The commit a positive answer calls the released one. -/
def ReleaseReachabilityProof.releasedCommitSha {Sha : Type} : ReleaseReachabilityProof Sha → Option Sha
  | .reachable _ released .. => some released
  | .unreachable .. => none

/-! ## The commands -/

section

variable {Sha Tree : Type} [DecidableEq Sha] [DecidableEq Tree]
  (history : ReleaseHistory Sha Tree) (input : ReleaseReachabilityInput Sha)

def verifyDefaultBranchPushed : Except String Sha :=
  match history.failure .fetchDefault, history.failure .revParseHead, history.failure .lsRemote with
  | some failed, _, _ => .error failed.reason
  | none, some failed, _ => .error failed.reason
  | none, none, some failed => .error failed.reason
  | none, none, none =>
    if history.originDefault = history.head then .ok history.originDefault
    else .error ("origin/" ++ input.defaultBranch ++ " is at " ++ history.text history.originDefault ++ ", local " ++
      input.defaultBranch ++ " is at " ++ history.text history.head)

structure OriginReachability where
  reachable : Bool
  refUnresolved : Bool

/-- The tip that is asked about: the one given, or the branch as it is fetched. -/
def reachabilityTip : Option Sha :=
  match input.changeTipSha with
  | some tip => some tip
  | none =>
    if (history.failure .fetchBranch).isSome || (history.failure .revParseBranch).isSome then none
    else history.originBranches input.branch

def verifyChangeBranchReachableFromOrigin : OriginReachability :=
  match reachabilityTip history input with
  | none => ⟨false, true⟩
  | some tip =>
    if (history.failure .branchAncestor).isSome then ⟨false, true⟩
    else ⟨history.isAncestor tip history.originDefault, false⟩

inductive DirectMergedPrProof (Sha : Type) where
  | absent
  | invalid (reason : String) (details : List String)
  | valid (prNumber : Nat) (prHeadSha mergeCommitOid defaultBranchSha : Sha)

/-- The owner and the name in a repository's path. -/
def repoParts (repo : String) : Option (String × String) :=
  match (repo.splitOn "/").reverse with
  | name :: owner :: _ => if name = "" || owner = "" then none else some (owner, name)
  | _ => none

def exactHeadRepository (repo owner name : String) (pr : PullRequest Sha) : Bool :=
  match pr.headRepository.bind HeadRepository.nameWithOwner with
  | some path => path = repo
  | none => pr.headRepositoryOwner = some owner && pr.headRepository.bind HeadRepository.name = some name

def exactRecord (repo owner name : String) (pr : PullRequest Sha) : Option (PullRequest Sha × Sha) :=
  if 0 < pr.number && pr.state = .merged && pr.mergedAt.any (·.trimAscii.toString ≠ "") &&
      pr.headRefName = input.branch && pr.baseRefName = input.defaultBranch && !pr.isCrossRepository &&
      exactHeadRepository repo owner name pr &&
      (some pr.headRefOid = input.changeTipSha || some pr.headRefOid = input.preArchiveTipSha) then
    pr.mergeCommit.map (pr, ·)
  else none

def DIRECT_MERGED_PR_QUERY_LIMIT : Nat := 20

def exactListing (repo : String) : List (PullRequest Sha) :=
  ((history.pullRequests (some repo)).filter fun pr =>
    pr.state = .merged && pr.headRefName = input.branch && pr.baseRefName = input.defaultBranch).take
    DIRECT_MERGED_PR_QUERY_LIMIT

def verifyDirectMergedPrProof (repo : String) : DirectMergedPrProof Sha :=
  match history.failure .exactList with
  | some failed => .invalid "MERGED_PR_PROOF_QUERY_FAILED" failed.lines
  | none =>
    let listed := exactListing history input repo
    if listed.isEmpty then .absent
    else
      match repoParts repo with
      | none => .invalid "MERGED_PR_PROOF_REPOSITORY_UNPARSEABLE" []
      | some (owner, name) =>
        match listed.filterMap (exactRecord input repo owner name) with
        | [] =>
          .invalid "MERGED_PR_PROOF_MISMATCH" ((listed.map fun pr => "PR " ++ toString pr.number ++
                " did not match exact repo/head/base/state/OID proof") ++
              if listed.length = DIRECT_MERGED_PR_QUERY_LIMIT then
                ["Merged PR proof query reached limit " ++ toString DIRECT_MERGED_PR_QUERY_LIMIT ++
                  " without an exact local-tip match"]
              else [])
        | [(selected, mergeCommitOid)] =>
          match history.failure .exactAncestor with
          | some failed => .invalid "MERGED_PR_REACHABILITY_CHECK_FAILED" failed.lines
          | none =>
            if history.isAncestor mergeCommitOid history.originDefault then
              match history.failure .exactDefault with
              | some failed => .invalid "DEFAULT_BRANCH_REACHABILITY_UNRESOLVED" failed.lines
              | none => .valid selected.number selected.headRefOid mergeCommitOid history.originDefault
            else .invalid "MERGED_PR_COMMIT_UNREACHABLE" []
        | valid =>
          .invalid "MERGED_PR_PROOF_AMBIGUOUS" (valid.map fun candidate =>
            "PR " ++ toString candidate.1.number ++ " exactly matched the local change tip")

def discoverMergedPr (repo : Option String) : Except String Nat :=
  match history.failure .discover with
  | some failed => .error failed.reason
  | none =>
    match (history.pullRequests repo).find? fun pr => pr.state = .merged && pr.headRefName = input.branch with
    | none => .error "NO_MERGED_PR_FOUND"
    | some pr => .ok pr.number

def PullRequestState.text : PullRequestState → String
  | .opened => "OPEN"
  | .closed => "CLOSED"
  | .merged => "MERGED"

def readPrMergeState (repo : Option String) (prNumber : Nat) : Except (List String) (PullRequest Sha) :=
  match history.failure .view with
  | some failed => .error (failed.reason :: failed.lines)
  | none =>
    match (history.pullRequests repo).find? fun pr => pr.number = prNumber with
    | none => .error ["GITHUB_API_UNAVAILABLE"]
    | some pr => .ok pr

def mergedCommit (pr : PullRequest Sha) : Option Sha :=
  if pr.state = .merged && pr.mergedAt.any (· ≠ "") then pr.mergeCommit else none

/-- The newest of the last fifty commits with the tree of a tip. -/
def treeMatch (tip : Option Sha) (treeCommand logCommand : ReleaseCommand) : Option Sha :=
  if (history.failure treeCommand).isSome || (history.failure logCommand).isSome then none
  else tip.bind fun tip => (history.trunk.take 50).find? fun commit => history.tree commit = history.tree tip

def detectSquashMergeByTree : Option (Sha × ReachableProof) :=
  ((treeMatch history (input.changeTipSha.or (history.branches input.branch)) .tree .log).map (·, .pr_merged)).or
    ((treeMatch history input.preArchiveTipSha .preArchiveTree .preArchiveLog).map
      (·, .pr_merged_by_tree_pre_archive))

/-! ## The decision -/

def effectivePrNumber (repo : Option String) : Except String Nat :=
  match input.prNumber.filter (· ≠ 0) with
  | some prNumber => .ok prNumber
  | none => discoverMergedPr history input repo

/-- The repository of the direct route; a number is looked up in it only. -/
def directRepo : Option String := input.repo.or input.route.repo

def directExactProof : DirectMergedPrProof Sha :=
  match directRepo input, input.prHeadSha with
  | some repo, some _ => verifyDirectMergedPrProof history input repo
  | _, _ => .absent

def directNumber : Option Nat :=
  match input.prNumber.filter (· ≠ 0), directRepo input with
  | some prNumber, _ => some prNumber
  | none, some repo => (discoverMergedPr history input (some repo)).toOption
  | none, none => none

def directMerged : Option (Nat × Sha) :=
  match directNumber history input, directRepo input with
  | some prNumber, some repo =>
    match readPrMergeState history (some repo) prNumber with
    | .ok pr => (mergedCommit pr).map (prNumber, ·)
    | .error _ => none
  | _, _ => none

def resolveDirect (pushedSha : Sha) : ReleaseReachabilityProof Sha :=
  let originReachability := verifyChangeBranchReachableFromOrigin history input
  if originReachability.reachable then .reachable .origin_default pushedSha none none none
  else
    match directExactProof history input with
    | .valid prNumber prHeadSha mergeCommitOid defaultBranchSha =>
      if input.prNumber = none || input.prNumber = some prNumber then
        .reachable .pr_merged mergeCommitOid (some prNumber) (some mergeCommitOid) (some ⟨prHeadSha, defaultBranchSha⟩)
      else .unreachable .blocked input.prNumber ["Merged PR number does not match persisted Phase 9 proof"]
    | .invalid reason details => .unreachable .blocked input.prNumber (reason :: details)
    | .absent =>
      match directMerged history input with
      | some (prNumber, oid) => .reachable .pr_merged oid (some prNumber) (some oid) none
      | none =>
        match detectSquashMergeByTree history input with
        | some (oid, proof) => .reachable proof oid none (some oid) none
        | none =>
          .unreachable (if originReachability.refUnresolved then .change_ref_unresolved else .origin_unmerged) none []

def resolveByPullRequest : ReleaseReachabilityProof Sha :=
  let repo := directRepo input
  match effectivePrNumber history input repo with
  | .ok prNumber =>
    match readPrMergeState history repo prNumber with
    | .error details => .unreachable .pr_unmerged (some prNumber) details
    | .ok pr =>
      match mergedCommit pr with
      | some oid => .reachable .pr_merged oid (some prNumber) (some oid) none
      | none => .unreachable .pr_unmerged (some prNumber) ["PR state is " ++ pr.state.text]
  | .error discoveryError =>
    match input.changeTipSha.bind fun _ => detectSquashMergeByTree history input with
    | some (oid, proof) => .reachable proof oid none (some oid) none
    | none =>
      .unreachable .pr_missing_merge_proof none
        ["prNumber is missing and no merged PR was discoverable", discoveryError]

def resolveReleaseReachability : ReleaseReachabilityProof Sha :=
  match input.route.route with
  | .blocked => .unreachable .blocked none (input.route.details.getD input.route.reason.toList)
  | .no_remote => .unreachable .blocked none ["NO_REMOTE_RELEASE_AUTHORITY"]
  | .direct =>
    match verifyDefaultBranchPushed history input with
    | .error reason => .unreachable .origin_push_unverified none [reason]
    | .ok pushedSha => resolveDirect history input pushedSha
  | .pr_auto_merge | .pr_manual | .merge_queue => resolveByPullRequest history input

/-! ## What is claimed -/

/-- A commit with the content of a tip: the tip, the merge of a pull request with that head, or a commit with its tree
    that is not already part of it. -/
def Carries (tip commit : Sha) : Prop :=
  commit = tip ∨ (∃ repo, ∃ pr ∈ history.pullRequests repo, pr.state = .merged ∧ pr.headRefOid = tip ∧
      pr.mergeCommit = some commit) ∨
    (history.tree commit = history.tree tip ∧ history.isAncestor commit tip = false)

def ContentIn (tip commit : Sha) : Prop := ∃ carrier, Carries history tip carrier ∧ history.isAncestor carrier commit = true

/-- One of the tips is on origin's default branch, and the commit contains its content. -/
def Proven (released : Sha) : Prop :=
  ∃ tip ∈ input.tips, ContentIn history tip history.originDefault ∧ ContentIn history tip released

def AnswersSoundly : Prop :=
  ∀ released, (resolveReleaseReachability history input).releasedCommitSha = some released →
    Proven history input released

/-- What is accepted without a proof of its own: the branch where no tip is given, a merged pull request taken by its
    number, and a commit taken by its tree, each where the decision comes to it. -/
def AcceptsRight : Prop :=
  match input.route.route with
  | .blocked | .no_remote => True
  | .direct =>
    (∃ pushedSha, verifyDefaultBranchPushed history input = .ok pushedSha) →
      if (verifyChangeBranchReachableFromOrigin history input).reachable then
        input.changeTipSha = none → Proven history input history.originDefault
      else
        directExactProof history input = .absent →
          match directMerged history input with
          | some (_, oid) => Proven history input oid
          | none => ∀ found ∈ detectSquashMergeByTree history input, Proven history input found.1
  | .pr_auto_merge | .pr_manual | .merge_queue =>
    match effectivePrNumber history input (directRepo input) with
    | .ok prNumber =>
      ∀ pr, readPrMergeState history (directRepo input) prNumber = .ok pr →
        ∀ oid ∈ mergedCommit pr, Proven history input oid
    | .error _ =>
      input.changeTipSha.isSome → ∀ found ∈ detectSquashMergeByTree history input, Proven history input found.1

end

/-! ## Evidence that is right -/

section

variable {Sha Tree : Type} {history : ReleaseHistory Sha Tree} {input : ReleaseReachabilityInput Sha}

theorem proven_of_ancestor {tip : Sha} (named : tip ∈ input.tips)
    (reached : history.isAncestor tip history.originDefault = true) : Proven history input history.originDefault :=
  ⟨tip, named, ⟨tip, .inl rfl, reached⟩, ⟨tip, .inl rfl, reached⟩⟩

theorem proven_of_head {repo : Option String} {pr : PullRequest Sha} {commit : Sha}
    (listed : pr ∈ history.pullRequests repo) (merged : pr.state = .merged) (named : pr.headRefOid ∈ input.tips)
    (made : pr.mergeCommit = some commit) (reached : history.isAncestor commit history.originDefault = true) :
    Proven history input commit :=
  have carries : Carries history pr.headRefOid commit := .inr (.inl ⟨repo, pr, listed, merged, rfl, made⟩)
  ⟨pr.headRefOid, named, ⟨commit, carries, reached⟩, ⟨commit, carries, history.isAncestor_self commit⟩⟩

theorem reachable_tip {tip : Sha} (given : input.changeTipSha = some tip)
    (reached : (verifyChangeBranchReachableFromOrigin history input).reachable = true) :
    history.isAncestor tip history.originDefault = true := by
  unfold verifyChangeBranchReachableFromOrigin reachabilityTip at reached
  rw [given] at reached
  dsimp only at reached
  split at reached
  · cases reached
  · exact reached

variable [DecidableEq Sha]

theorem verifyDefaultBranchPushed_ok {sha : Sha} (pushed : verifyDefaultBranchPushed history input = .ok sha) :
    sha = history.originDefault := by
  unfold verifyDefaultBranchPushed at pushed
  split at pushed
  · cases pushed
  · cases pushed
  · cases pushed
  · split at pushed
    · cases pushed
      rfl
    · cases pushed

theorem exactRecord_some {repo owner name : String} {pr selected : PullRequest Sha} {oid : Sha}
    (exact_ : exactRecord input repo owner name pr = some (selected, oid)) :
    selected = pr ∧ pr.state = .merged ∧ pr.headRefOid ∈ input.tips ∧ pr.mergeCommit = some oid := by
  unfold exactRecord at exact_
  split at exact_
  next holds =>
    simp only [Bool.and_eq_true, Bool.or_eq_true, decide_eq_true_eq] at holds
    obtain ⟨⟨⟨⟨⟨⟨⟨_, merged⟩, _⟩, _⟩, _⟩, _⟩, _⟩, head⟩ := holds
    obtain ⟨commit, made, same⟩ := Option.map_eq_some_iff.mp exact_
    cases same
    refine ⟨rfl, merged, ?_, made⟩
    unfold ReleaseReachabilityInput.tips
    rcases head with tip | preArchive
    · rw [← tip]
      simp
    · rw [← preArchive]
      simp
  next => cases exact_

theorem exactProof_proven {repo : String} {prNumber : Nat} {head oid defaultSha : Sha}
    (valid : verifyDirectMergedPrProof history input repo = .valid prNumber head oid defaultSha) :
    Proven history input oid := by
  unfold verifyDirectMergedPrProof at valid
  split at valid
  next => cases valid
  next =>
    dsimp only at valid
    split at valid
    next => cases valid
    next =>
      split at valid
      next => cases valid
      next owner name _ =>
        split at valid
        next => cases valid
        next selected mergeCommitOid single =>
          split at valid
          next => cases valid
          next =>
            split at valid
            next reached =>
              split at valid
              next => cases valid
              next =>
                cases valid
                have found : (selected, oid) ∈ (exactListing history input repo).filterMap
                    (exactRecord input repo owner name) := by rw [single]; exact List.mem_singleton.mpr rfl
                obtain ⟨pr, listed, matched⟩ := List.mem_filterMap.mp found
                obtain ⟨rfl, merged, named, made⟩ := exactRecord_some matched
                have inRepo := (List.mem_filter.mp (List.mem_of_mem_take listed)).1
                exact proven_of_head inRepo merged named made reached
            next => cases valid
        next => cases valid

theorem directExactProof_proven {prNumber : Nat} {head oid defaultSha : Sha}
    (valid : directExactProof history input = .valid prNumber head oid defaultSha) : Proven history input oid := by
  unfold directExactProof at valid
  split at valid
  · exact exactProof_proven valid
  · cases valid

/-! ## The decision -/

variable [DecidableEq Tree]

theorem resolveDirect_iff : (∀ released,
      (resolveDirect history input history.originDefault).releasedCommitSha = some released →
        Proven history input released) ↔ if (verifyChangeBranchReachableFromOrigin history input).reachable then
      input.changeTipSha = none → Proven history input history.originDefault else
      directExactProof history input = .absent →
        match directMerged history input with
        | some (_, oid) => Proven history input oid
        | none => ∀ found ∈ detectSquashMergeByTree history input, Proven history input found.1 := by
  unfold resolveDirect
  dsimp only
  split
  next reached =>
    -- With a tip the ancestor test proves the tip itself.
    constructor
    · exact fun sound _ => sound _ rfl
    · intro branch released same
      cases same
      cases given : input.changeTipSha with
      | none => exact branch given
      | some tip =>
        exact proven_of_ancestor (by simp [ReleaseReachabilityInput.tips, given]) (reachable_tip given reached)
  next =>
    cases exactProof : directExactProof history input with
    | valid prNumber head oid defaultSha =>
      refine ⟨fun _ absent => ?_, fun _ released same => ?_⟩
      · cases absent
      dsimp only at same
      split at same
      · cases same
        exact directExactProof_proven exactProof
      · cases same
    | invalid reason details =>
      refine ⟨fun _ absent => ?_, fun _ released same => ?_⟩
      · cases absent
      · cases same
    | absent =>
      cases merged : directMerged history input with
      | some found =>
        refine ⟨fun sound _ => sound _ rfl, fun right released same => ?_⟩
        cases same
        exact right rfl
      | none =>
        cases squashed : detectSquashMergeByTree history input with
        | some found =>
          refine ⟨fun sound _ other same => ?_, fun right released same => ?_⟩
          · cases same
            exact sound _ rfl
          · cases same
            exact right rfl found rfl
        | none =>
          refine ⟨fun _ _ _ absent => ?_, fun _ released same => ?_⟩
          · cases absent
          · cases same

omit [DecidableEq Sha] in
theorem resolveByPullRequest_iff : (∀ released,
      (resolveByPullRequest history input).releasedCommitSha = some released → Proven history input released) ↔
    match effectivePrNumber history input (directRepo input) with
    | .ok prNumber =>
      ∀ pr, readPrMergeState history (directRepo input) prNumber = .ok pr →
        ∀ oid ∈ mergedCommit pr, Proven history input oid
    | .error _ =>
      input.changeTipSha.isSome → ∀ found ∈ detectSquashMergeByTree history input, Proven history input found.1 := by
  unfold resolveByPullRequest
  dsimp only
  cases effective : effectivePrNumber history input (directRepo input) with
  | ok prNumber =>
    dsimp only
    cases read : readPrMergeState history (directRepo input) prNumber with
    | error details =>
      refine ⟨fun _ pr same => ?_, fun _ released same => ?_⟩
      · cases same
      · cases same
    | ok pr =>
      dsimp only
      cases merged : mergedCommit pr with
      | none =>
        refine ⟨fun _ other same oid held => ?_, fun _ released same => ?_⟩
        · cases same
          rw [merged] at held
          cases held
        · cases same
      | some oid =>
        refine ⟨fun sound other same oid held => ?_, fun right released same => ?_⟩
        · cases same
          rw [merged] at held
          cases held
          exact sound _ rfl
        · cases same
          exact right pr rfl oid merged
  | error discoveryError =>
    dsimp only
    cases given : input.changeTipSha with
    | none =>
      refine ⟨fun _ absent => ?_, fun _ released same => ?_⟩
      · cases absent
      · cases same
    | some tip =>
      cases squashed : detectSquashMergeByTree history input with
      | none =>
        refine ⟨fun _ _ found absent => ?_, fun _ released same => ?_⟩
        · cases absent
        · cases same
      | some found =>
        refine ⟨fun sound _ other same => ?_, fun right released same => ?_⟩
        · cases same
          exact sound _ rfl
        · cases same
          exact right rfl found rfl

end

/-! ## Fixed histories -/

/-- Commit 1 is on the default branch, commit 2 is the tip; both come from commit 0. -/
def forkParents (commit : Nat) : List Nat := if commit = 1 ∨ commit = 2 then [0] else []

def forkAncestor (early late : Nat) : Bool := early = late || (early = 0 && (late = 1 || late = 2))

theorem forkAncestor_iff (early late : Nat) : forkAncestor early late = true ↔
    Relation.ReflTransGen (fun child parent => parent ∈ forkParents child) late early := by
  constructor
  · intro before
    simp only [forkAncestor, Bool.or_eq_true, Bool.and_eq_true, decide_eq_true_eq] at before
    rcases before with rfl | ⟨rfl, child⟩
    · exact .refl
    · exact .single (by simp [forkParents, child])
  · intro path
    induction path with
    | refl => simp [forkAncestor]
    | tail _ edge ih =>
      rename_i middle parent
      simp only [forkParents] at edge
      split at edge
      next branched =>
        cases List.mem_singleton.mp edge
        simp only [forkAncestor, Bool.or_eq_true, Bool.and_eq_true, decide_eq_true_eq] at ih ⊢
        rcases ih with rfl | ⟨rfl, _⟩
        · exact .inr ⟨trivial, branched⟩
        · omega
      next => cases edge

def earlierPullRequest : PullRequest Nat where
  number := 7
  state := .merged
  mergedAt := some "2026-01-01T00:00:00Z"
  mergeCommit := some 1
  headRefName := "change/addSearch"
  headRefOid := 5
  baseRefName := "main"
  headRepositoryOwner := some "acme"
  headRepository := some ⟨some "app", some "acme/app"⟩
  isCrossRepository := false

def reusedBranch : ReleaseHistory Nat String where
  parents := forkParents
  tree commit := if commit = 0 then "base" else if commit = 1 then "earlier" else "search"
  isAncestor := forkAncestor
  truthful := forkAncestor_iff
  text := toString
  originDefault := 1
  head := 1
  originBranches _ := none
  branches _ := some 2
  trunk := [1, 0]
  logged := by decide
  pullRequests _ := [earlierPullRequest]
  failure _ := none

def unmergedTip : ReleaseReachabilityInput Nat where
  defaultBranch := "main"
  changeId := "addSearch"
  sourceBranch := none
  route := ⟨.direct, some "acme/app", none, none⟩
  prNumber := none
  repo := none
  prHeadSha := none
  changeTipSha := some 2
  preArchiveTipSha := none

end Advance.Tools.ArchiveHelpers
