import Advance.Utils.SyntheticFixtureDetector

/-! # Classifying a conflicted file

A file that a rebase step left in conflict is a duplicate of the default branch, differs in
blanks only, or needs its user.
-/

namespace Advance.Tools

open Advance.Utils

structure ConflictHunk where
  ours : List Char
  theirs : List Char
  base : Option (List Char)
  deriving DecidableEq

inductive ConflictClass where
  | duplicateContent
  | autoResolvableTrivial
  | divergentContent
  deriving DecidableEq

structure ClassifyResult where
  conflictClass : ConflictClass
  reason : String
  deriving DecidableEq

/-! ## Duplicates -/

structure SkipDuplicateResult where
  isDuplicate : Bool
  reason : String
  defaultBranch : String
  deriving DecidableEq

/-- Compare the object of a file in the commit that is being applied with the one on the default
    branch, from what git answers for both. -/
def detectSkipDuplicate (resolvedBranch currentOid originOid : Option String) : SkipDuplicateResult :=
  match resolvedBranch.filter (· ≠ "") with
  | none => ⟨false, "default_branch_unresolvable", ""⟩
  | some defaultBranch =>
    if currentOid.isSome ∧ currentOid = originOid then
      ⟨true, "duplicate-content commit (already on default branch)", defaultBranch⟩
    else
      let parts :=
        (if currentOid.isNone then ["missing at current commit"] else []) ++
        (if originOid.isNone then ["missing on default branch"] else []) ++
        (if currentOid.isSome ∧ originOid.isSome ∧ currentOid ≠ originOid then ["divergent content"] else [])
      let detail := if parts.isEmpty then "unknown divergence" else ", ".intercalate parts
      ⟨false, s!"not duplicate — {detail}", defaultBranch⟩

/-! ## Blanks -/

/-- `raw.replace(/\r\n/g, "\n")` -/
def unixEndings : List Char → List Char
  | '\r' :: '\n' :: rest => '\n' :: unixEndings rest
  | c :: rest => c :: unixEndings rest
  | [] => []

def trimEnd (line : List Char) : List Char := (line.reverse.dropWhile isJsWhitespace).reverse

/-- `line.replace(/\s+/g, " ")`, inside a run of blanks or not. -/
def collapseBlanks : Bool → List Char → List Char
  | _, [] => []
  | inRun, c :: rest =>
    if isJsWhitespace c then (if inRun then [] else [' ']) ++ collapseBlanks true rest
    else c :: collapseBlanks false rest

def normalizeConflictLines (raw : List Char) : List Char :=
  ['\n'].intercalate (((unixEndings raw).splitOn '\n').map fun line => trim (collapseBlanks false (trimEnd line)))

/-! ## Classes -/

def malformed : ClassifyResult :=
  ⟨.divergentContent, "malformed conflict input — caller should handle as divergent"⟩

def trivialHunk (hunk : ConflictHunk) : Bool :=
  decide (normalizeConflictLines hunk.ours = normalizeConflictLines hunk.theirs)

def classifyConflict (isDuplicate : Bool) (conflictHunks : List ConflictHunk) : ClassifyResult :=
  if isDuplicate then
    ⟨.duplicateContent, "duplicate-content commit (T28: tree matches origin/<default>)"⟩
  else if conflictHunks.isEmpty then malformed
  else if conflictHunks.any fun hunk => hunk.ours.isEmpty || hunk.theirs.isEmpty then malformed
  else if conflictHunks.all trivialHunk then
    ⟨.autoResolvableTrivial, "whitespace-only conflict; auto-resolve to incoming"⟩
  else
    let hunks := conflictHunks.length
    ⟨.divergentContent, s!"{hunks} hunk(s) require user resolution"⟩

/-- Every hunk of the file has two sides that differ in blanks only. -/
structure AllTrivial (hunks : List ConflictHunk) : Prop where
  some : hunks ≠ []
  sided : ∀ hunk ∈ hunks, hunk.ours ≠ [] ∧ hunk.theirs ≠ []
  blank : ∀ hunk ∈ hunks, normalizeConflictLines hunk.ours = normalizeConflictLines hunk.theirs

theorem classify_trivial {hunks : List ConflictHunk} (trivial : AllTrivial hunks) (isDuplicate : Bool) :
    (classifyConflict isDuplicate hunks).conflictClass =
      if isDuplicate then .duplicateContent else .autoResolvableTrivial := by
  have sided : (hunks.any fun hunk => hunk.ours.isEmpty || hunk.theirs.isEmpty) = false := by
    simpa [List.any_eq_false] using trivial.sided
  have blank : hunks.all trivialHunk = true := by
    simpa [List.all_eq_true, trivialHunk] using trivial.blank
  cases isDuplicate with
  | true => rfl
  | false => simp [classifyConflict, trivial.some, sided, blank]

end Advance.Tools
