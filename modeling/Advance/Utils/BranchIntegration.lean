import Advance.Foundation.CommitGraph
import Advance.Tools.Worktree.Census

/-! # Whether a local branch is integrated

A worktree and its branch may be deleted when the branch is in the default branch, when `git cherry` finds an equivalent
of each of its patches, or when a commit of the default branch has the tree of its head.
-/

namespace Advance.Utils

open Advance.Foundation

inductive IntegrationCommand where
  | mergeBase
  | cherry
  | revParse
  | log
  deriving DecidableEq

/-- A command runs out of its budget, or git cannot answer. -/
inductive GitFailure where
  | deadline
  | exit
  deriving DecidableEq

/-- What git has to answer about. `cherry` are the commits it lists, `equivalent` those it lists with a minus. -/
structure BranchHistory (Sha Tree Patch : Type) extends CommitGraph Sha Tree where
  text : Sha → String
  patch : Sha → Patch
  branchTip : Sha
  defaultTip : Sha
  cherry : List Sha
  listed : ∀ commit, commit ∈ cherry ↔
    isAncestor commit branchTip = true ∧ isAncestor commit defaultTip = false ∧ (parents commit).length ≤ 1
  equivalent : Sha → Bool
  marked : ∀ commit ∈ cherry, equivalent commit = true ↔ ∃ other, isAncestor other defaultTip = true ∧
    isAncestor other branchTip = false ∧ (parents other).length ≤ 1 ∧ patch other = patch commit
  log : List Sha
  logged : ∀ commit ∈ log, isAncestor commit defaultTip = true
  failure : IntegrationCommand → Option GitFailure

inductive IntegrationKind where
  | merged_to_default
  | patch_equivalent
  deriving DecidableEq

structure LocalBranchIntegrationProof (Sha : Type) where
  kind : IntegrationKind
  branch : String
  defaultBranch : String
  head : Sha
  evidence : String

/-- The stage that a deadline names. -/
inductive IntegrationStage where
  | mergeBase
  | cherry
  | tree
  deriving DecidableEq

/-- Trunk-history window. -/
def TRUNK_TREE_WALK_LIMIT : Nat := 500

section

variable {Sha Tree Patch : Type} [DecidableEq Tree] (history : BranchHistory Sha Tree Patch)

/-- A strategy goes on with the answer of a command; without one there is no proof. -/
def withAnswer {Answer : Type} (stage : IntegrationStage) (command : IntegrationCommand)
    (next : Except IntegrationStage (Option Answer)) : Except IntegrationStage (Option Answer) :=
  match history.failure command with
  | some .deadline => .error stage
  | some .exit => .ok none
  | none => next

def validRefs (branch defaultBranch : String) : Bool :=
  Tools.Worktree.isValidGitBranchRef branch && Tools.Worktree.isValidGitBranchRef defaultBranch &&
    branch ≠ defaultBranch

/-- The newest of the last commits of the default branch with the tree of the head. -/
def trunkTreeMatch (head : Sha) : Option Sha :=
  (history.log.take TRUNK_TREE_WALK_LIMIT).find? fun commit => history.tree commit = history.tree head

def proveLocalBranchIntegration (branch defaultBranch : String) (head : Sha) :
    Except IntegrationStage (Option (LocalBranchIntegrationProof Sha)) :=
  if !validRefs branch defaultBranch then .ok none
  else
    withAnswer history .mergeBase .mergeBase <|
      if history.isAncestor history.branchTip history.defaultTip then
        .ok (some ⟨.merged_to_default, branch, defaultBranch, head,
          "git merge-base --is-ancestor " ++ branch ++ " " ++ defaultBranch⟩)
      else
        withAnswer history .cherry .cherry <|
          -- Nothing listed is as good as nothing missing.
          if history.cherry.all history.equivalent then
            .ok (some ⟨.patch_equivalent, branch, defaultBranch, head,
              "git cherry -v " ++ defaultBranch ++ " " ++ branch ++ " (all patches equivalent)"⟩)
          else
            withAnswer history .tree .revParse <| withAnswer history .tree .log <|
              .ok ((trunkTreeMatch history head).map fun commit => ⟨.patch_equivalent, branch, defaultBranch, head,
                "tree-identical to trunk commit " ++ history.text commit⟩)

end

/-! ## What is claimed -/

section

variable {Sha Tree Patch : Type} (history : BranchHistory Sha Tree Patch)

/-- The change of a commit is also made by a commit of the default branch. -/
def Represented (commit : Sha) : Prop :=
  ∃ other, history.isAncestor other history.defaultTip = true ∧ history.patch other = history.patch commit

def OnBranch (commit : Sha) : Prop :=
  history.isAncestor commit history.branchTip = true ∧ history.isAncestor commit history.defaultTip = false

def TreeLanded : Prop :=
  ∃ commit, history.isAncestor commit history.defaultTip = true ∧
    history.isAncestor commit history.branchTip = false ∧ history.tree commit = history.tree history.branchTip

def Integrated : Prop :=
  history.isAncestor history.branchTip history.defaultTip = true ∨
    (∀ commit, OnBranch history commit → Represented history commit) ∨ TreeLanded history

/-- The merge commits of the branch, which `git cherry` does not list, are represented. -/
def MergesRepresented : Prop :=
  ∀ commit, OnBranch history commit → 1 < (history.parents commit).length → Represented history commit

variable [DecidableEq Tree]

/-- Every proof is right. -/
def ProvesSoundly (branch defaultBranch : String) (head : Sha) : Prop :=
  ∀ proof, proveLocalBranchIntegration history branch defaultBranch head = .ok (some proof) → Integrated history

/-- Of a branch that is not in the default branch: where `git cherry` lists no other patch, its merge commits are
    represented or its tree has landed; where it does, and a recent commit of the default branch has the head's tree,
    one made after the branch point has the tip's tree, or all commits are represented all the same. -/
def AcceptsIntegrated (branch defaultBranch : String) (head : Sha) : Prop :=
  validRefs branch defaultBranch = true → history.failure .mergeBase = none →
    history.isAncestor history.branchTip history.defaultTip = false → history.failure .cherry = none →
      if history.cherry.all history.equivalent then MergesRepresented history ∨ TreeLanded history
      else
        history.failure .revParse = none → history.failure .log = none → (trunkTreeMatch history head).isSome →
          (∀ commit, OnBranch history commit → Represented history commit) ∨ TreeLanded history

end

/-! ## Proofs that are right -/

section

variable {Sha Tree Patch : Type} {history : BranchHistory Sha Tree Patch}

theorem represented_iff (plain : history.cherry.all history.equivalent = true) :
    (∀ commit, OnBranch history commit → Represented history commit) ↔ MergesRepresented history := by
  constructor
  · intro each commit missing _
    exact each commit missing
  · intro merges commit missing
    by_cases merge : 1 < (history.parents commit).length
    · exact merges commit missing merge
    · have inList : commit ∈ history.cherry :=
        (history.listed commit).mpr ⟨missing.1, missing.2, Nat.le_of_not_lt merge⟩
      have minus : history.equivalent commit = true := List.all_eq_true.mp plain commit inList
      obtain ⟨other, landed, _, _, same⟩ := (history.marked commit inList).mp minus
      exact ⟨other, landed, same⟩

theorem withAnswer_some {Answer : Type} {stage : IntegrationStage} {command : IntegrationCommand}
    {next : Except IntegrationStage (Option Answer)} {answer : Answer} :
    withAnswer history stage command next = .ok (some answer) ↔
      history.failure command = none ∧ next = .ok (some answer) := by
  unfold withAnswer
  cases history.failure command with
  | none => simp
  | some failed => cases failed <;> simp

theorem integrated_iff (ahead : history.isAncestor history.branchTip history.defaultTip = false) :
    Integrated history ↔ (∀ commit, OnBranch history commit → Represented history commit) ∨ TreeLanded history := by
  simp [Integrated, ahead]

/-- Every proof is right exactly where what is accepted without an ancestor test is integrated. -/
theorem integration_sound_iff [DecidableEq Tree] (history : BranchHistory Sha Tree Patch)
    (branch defaultBranch : String) (head : Sha) :
    ProvesSoundly history branch defaultBranch head ↔ AcceptsIntegrated history branch defaultBranch head := by
  unfold ProvesSoundly AcceptsIntegrated proveLocalBranchIntegration
  cases valid : validRefs branch defaultBranch with
  | false => simp
  | true =>
    simp only [Bool.not_true, Bool.false_eq_true, if_false, withAnswer_some, true_implies]
    cases ahead : history.isAncestor history.branchTip history.defaultTip with
    | true => simp [Integrated, ahead]
    | false =>
      simp only [Bool.false_eq_true, if_false, withAnswer_some, true_implies, integrated_iff ahead]
      by_cases plain : history.cherry.all history.equivalent = true
      · simp only [if_pos plain, represented_iff plain]
        constructor
        · intro sound answered listed
          exact sound _ ⟨answered, listed, rfl⟩
        · intro right proof accepted
          exact right accepted.1 accepted.2.1
      · simp only [if_neg plain, withAnswer_some]
        constructor
        · intro sound answered listed parsed walked found
          obtain ⟨commit, matched⟩ := Option.isSome_iff_exists.mp found
          refine sound ⟨.patch_equivalent, branch, defaultBranch, head,
            "tree-identical to trunk commit " ++ history.text commit⟩ ⟨answered, listed, parsed, walked, ?_⟩
          rw [matched]
          exact rfl
        · intro right proof accepted
          obtain ⟨answered, listed, parsed, walked, same⟩ := accepted
          refine right answered listed parsed walked ?_
          cases found : trunkTreeMatch history head with
          | some commit => rfl
          | none =>
            rw [found] at same
            cases same

end

/-! ## Fixed histories -/

def lineParents (commit : Nat) : List Nat := if commit = 0 then [] else [commit - 1]

theorem line_ancestor_iff (early late : Nat) : decide (early ≤ late) = true ↔
    Relation.ReflTransGen (fun child parent => parent ∈ lineParents child) late early := by
  rw [decide_eq_true_iff]
  constructor
  · intro before
    induction late with
    | zero => rw [Nat.le_zero.mp before]
    | succ late ih =>
      rcases Nat.le_succ_iff.mp before with earlier | same
      · exact .head (by simp [lineParents]) (ih earlier)
      · rw [same]
  · intro path
    induction path with
    | refl => exact Nat.le_refl late
    | tail _ edge ih =>
      simp only [lineParents] at edge
      split at edge
      · cases edge
      · have parent := List.mem_singleton.mp edge
        omega

theorem reverted_listed (commit : Nat) : commit ∈ [2] ↔
    decide (commit ≤ 2) = true ∧ decide (commit ≤ 1) = false ∧ (lineParents commit).length ≤ 1 := by
  simp only [List.mem_singleton, decide_eq_true_eq, decide_eq_false_iff_not, lineParents]
  split
  · simp
    omega
  · simp
    omega

theorem reverted_marked (commit : Nat) (_ : commit ∈ [2]) : false = true ↔
    ∃ other, decide (other ≤ 1) = true ∧ decide (other ≤ 2) = false ∧ (lineParents other).length ≤ 1 ∧
      id other = id commit := by
  simp only [Bool.false_eq_true, false_iff, decide_eq_true_eq, decide_eq_false_iff_not]
  intro equal
  obtain ⟨other, early, late, _⟩ := equal
  omega

def revertedBranch : BranchHistory Nat String Nat where
  parents := lineParents
  tree commit := if commit = 1 then "changed" else "base"
  isAncestor early late := decide (early ≤ late)
  truthful := line_ancestor_iff
  text := toString
  patch := id
  branchTip := 2
  defaultTip := 1
  cherry := [2]
  listed := reverted_listed
  equivalent _ := false
  marked := reverted_marked
  log := [1, 0]
  logged := by decide
  failure _ := none

/-- The tree of the commit before the branch point proves the branch integrated. -/
theorem revert_accepted : ¬ ProvesSoundly revertedBranch "change/revertSearch" "main" 2 := by
  intro sound
  have valid : validRefs "change/revertSearch" "main" = true := by rfl
  have accepted : proveLocalBranchIntegration revertedBranch "change/revertSearch" "main" 2 = .ok (some
      ⟨.patch_equivalent, "change/revertSearch", "main", 2, "tree-identical to trunk commit 0"⟩) := by
    unfold proveLocalBranchIntegration
    rw [valid]
    exact rfl
  rcases sound _ accepted with landed | represented | treeLanded
  · simp [revertedBranch] at landed
  · obtain ⟨other, landed, same⟩ := represented 2 ⟨by decide, by decide⟩
    simp only [revertedBranch, decide_eq_true_eq, id_eq] at landed same
    omega
  · obtain ⟨commit, early, late, _⟩ := treeLanded
    simp only [revertedBranch, decide_eq_true_eq, decide_eq_false_iff_not] at early late
    omega

end Advance.Utils
