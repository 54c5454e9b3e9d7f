import Advance.JavaScript.Path
import Advance.Tools.Worktree.DeletionContracts
import Advance.Types.Epics

/-! # The census of branches and worktrees

`scanGitWorkspaceFacts` over what git prints, parsed, and the facts of one worktree as the
planner and the executor derive them.
-/

namespace Advance.Tools.Worktree

open Advance.JavaScript Advance.Types

/-! ## Branch names -/

def includes (text part : List Char) : Bool := text.tails.any fun rest => part.isPrefixOf rest

/-- A character that a local branch name cannot have. -/
def isForbiddenInRef (c : Char) : Bool :=
  c.toNat ≤ 0x1f || c.toNat = 0x7f || " ~^:?*[]\\;&|`$()".toList.contains c

def isValidGitBranchRef (name : String) : Bool :=
  let text := name.toList
  !(utf16Length name = 0 || 255 < utf16Length name) &&
    !("-".toList.isPrefixOf text || "/".toList.isPrefixOf text || "/".toList.isSuffixOf text) &&
    !(includes text "//".toList || includes text ("@".toList ++ [Char.ofNat 0x7b]) ||
      includes text "..".toList || ".".toList.isPrefixOf text || ".".toList.isSuffixOf text ||
      ".lock".toList.isSuffixOf text) &&
    !text.any isForbiddenInRef

/-! ## The scan -/

structure GitBranchFact where
  branch : String
  headSha : String
  merged : Bool
  deriving DecidableEq

structure GitWorktreeFact where
  branch : Option String
  path : String
  headSha : String
  dirty : Bool
  detached : Bool
  bare : Bool
  locked : Bool
  prunable : Bool
  corrupt : Option Bool
  /-- Not in the type of the source; the planner reads it of a census that has it. -/
  mainWorktree : Option Bool
  deriving DecidableEq

structure GitWorkspaceFacts where
  branches : List GitBranchFact
  worktrees : List GitWorktreeFact
  deriving DecidableEq

/-- An entry of `git worktree list`, with what `git status` prints there; none if it fails. -/
structure ListedWorktree where
  branch : Option String
  path : String
  headSha : Option String
  detached : Option Bool
  bare : Option Bool
  locked : Option Bool
  prunable : Option Bool
  status : Option (List String)
  deriving DecidableEq

/-- The outputs of the scan's commands; none of one that fails. -/
structure GitScan where
  branchLines : Option (List (String × String))
  mergedBranches : Option (List String)
  worktreeList : Option (List ListedWorktree)
  deriving DecidableEq

def ListedWorktree.fact (listed : ListedWorktree) : GitWorktreeFact where
  branch := listed.branch
  path := listed.path
  headSha := listed.headSha.getD ""
  dirty :=
    match listed.status with
    | none => true
    | some entries => 0 < entries.length
  detached := listed.detached.getD false
  bare := listed.bare.getD false
  locked := listed.locked.getD false
  prunable := listed.prunable.getD false
  corrupt := none
  mainWorktree := none

def scanGitWorkspaceFacts (scan : GitScan) : GitWorkspaceFacts where
  -- A command that fails counts as one that prints nothing.
  branches := (scan.branchLines.getD []).map fun (branch, headSha) =>
    ⟨branch, headSha, (scan.mergedBranches.getD []).contains branch⟩
  worktrees := (scan.worktreeList.getD []).map ListedWorktree.fact

/-- What a census gives: the facts of an adapter, or git's own outputs. -/
inductive Census where
  | adapted (facts : GitWorkspaceFacts)
  | scanned (scan : GitScan)
  deriving DecidableEq

def Census.facts : Census → GitWorkspaceFacts
  | adapted facts => facts
  | scanned scan => scanGitWorkspaceFacts scan

def Census.listed : Census → Bool
  | adapted _ => true
  | scanned scan => scan.worktreeList.isSome

/-! ## The facts of one worktree -/

section

-- The working directory of the process, for `path.resolve`
variable (processCwd : String)

/-- `resolve(left) === resolve(right)` -/
def samePath (left right : String) : Bool := resolve processCwd left = resolve processCwd right

/-- The caller's directory is the worktree or below it, as the executor tells. -/
def cwdInside (cwd worktree : String) : Bool :=
  samePath processCwd cwd worktree ||
    ((resolve processCwd worktree).toList ++ ['/']).isPrefixOf (resolve processCwd cwd).toList

/-- The same, as the planner tells: a trailing slash of the parent is dropped first. -/
def inside (parent child : String) : Bool :=
  let parentPath := (resolve processCwd parent).toList
  let parentPath := if ['/'].isSuffixOf parentPath then parentPath.dropLast else parentPath
  (resolve processCwd child).toList = parentPath || (parentPath ++ ['/']).isPrefixOf (resolve processCwd child).toList

/-- The worktree is the caller's directory or an ancestor of it. -/
def IsAncestor (worktree cwd : String) : Prop :=
  resolvedNames processCwd worktree <+: resolvedNames processCwd cwd

theorem toList_resolve (path : String) :
    (resolve processCwd path).toList = renderPath (resolvedNames processCwd path) :=
  String.toList_ofList

theorem samePath_iff {left right : String} : samePath processCwd left right = true ↔
      resolvedNames processCwd left = resolvedNames processCwd right := by
  rw [samePath, decide_eq_true_eq, ← String.toList_inj, toList_resolve, toList_resolve]
  exact ⟨renderPath_injective (resolvedNames_proper _ _) (resolvedNames_proper _ _), congrArg _⟩

theorem cwdInside_iff {cwd worktree : String} :
    cwdInside processCwd cwd worktree = true ↔ IsAncestor processCwd worktree cwd ∧
      (resolvedNames processCwd worktree = [] → resolvedNames processCwd cwd = []) := by
  rw [cwdInside, Bool.or_eq_true, samePath_iff, List.isPrefixOf_iff_prefix, toList_resolve,
    toList_resolve, renderPath_isPrefix (resolvedNames_proper _ _) (resolvedNames_proper _ _), IsAncestor]
  constructor
  · rintro (same | ⟨notRoot, below, _⟩)
    · rw [same]
      exact ⟨List.prefix_refl _, fun root => root⟩
    · exact ⟨below, fun root => absurd root notRoot⟩
  · rintro ⟨below, root⟩
    by_cases same : resolvedNames processCwd worktree = resolvedNames processCwd cwd
    · exact .inl same.symm
    · exact .inr ⟨fun isRoot => same (isRoot.trans (root isRoot).symm), below, same⟩

end

end Advance.Tools.Worktree
