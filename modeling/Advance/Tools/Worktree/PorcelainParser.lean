import Advance.JavaScript.CodeUnits

/-! # What git prints with NUL bytes

The parsers of `git status --porcelain=v1 -z`, `git diff --name-status -z` and
`git worktree list --porcelain -z`, against what git prints.
-/

namespace Advance.Tools.Worktree

open Advance.Foundation Advance.JavaScript CodeUnit

/-! ## Parsed entries -/

structure DiskWorktree where
  path : Text
  headSha : Option Text
  branch : Option Text
  detached : Option Bool
  bare : Option Bool
  locked : Option Bool
  prunable : Option Bool
  deriving DecidableEq

structure GitStatusPorcelainEntry where
  index : UInt16
  worktree : UInt16
  path : Text
  originalPath : Option Text
  deriving DecidableEq

structure GitNameStatusEntry where
  status : UInt16
  path : Text
  originalPath : Option Text
  deriving DecidableEq

/-! ## Changed paths -/

/-- The letters of renames and copies. -/
def hasSource (status : UInt16) : Bool := status = 82 || status = 67

/-- `/^[A-Z?](?:\d{1,3})?$/` -/
def isNameStatus : Text → Bool
  | [] => false
  | status :: score => (isUpper status || status = 63) && score.length ≤ 3 && score.all isDigit

/-- An entry in front of what the rest gives. -/
def followedBy {α : Type} (entry : α) (rest : Except String (List α)) : Except String (List α) :=
  rest.map fun entries => entry :: entries

def nameStatusEntries : List Text → Except String (List GitNameStatusEntry)
  | [] => .ok []
  | [] :: rest => nameStatusEntries rest
  | (status :: score) :: rest =>
    if !isNameStatus (status :: score) then .error "malformed git name-status record"
    else
      match rest with
      | [] | [] :: _ => .error "git name-status record has no path"
      | firstPath :: rest =>
        if hasSource status then
          match rest with
          | [] | [] :: _ => .error "git name-status rename has no destination"
          | path :: rest => followedBy ⟨status, path, some firstPath⟩ (nameStatusEntries rest)
        else followedBy ⟨status, firstPath, none⟩ (nameStatusEntries rest)

def parseGitNameStatusZ (stdout : Text) : Except String (List GitNameStatusEntry) :=
  nameStatusEntries (stdout.splitOn 0)

/-- The loop over the fields of status records. -/
def statusEntries : List Text → Except String (List GitStatusPorcelainEntry)
  | [] => .ok []
  | [] :: rest => statusEntries rest
  | (index :: worktree :: 32 :: c :: path) :: rest =>
    if hasSource index || hasSource worktree then
      match rest with
      | [] | [] :: _ => .error "rename status record has no source"
      | originalPath :: rest => followedBy ⟨index, worktree, c :: path, some originalPath⟩ (statusEntries rest)
    else followedBy ⟨index, worktree, c :: path, none⟩ (statusEntries rest)
  | _ => .error "malformed git status porcelain record"

def parseGitStatusPorcelainV1Z (stdout : Text) : Except String (List GitStatusPorcelainEntry) :=
  statusEntries (stdout.splitOn 0)

/-! ## Worktrees -/

def emptyRecord : DiskWorktree := ⟨[], none, none, some false, some false, some false, some false⟩

/-- What stands after a text's beginning. -/
def afterKeyword (keyword : String) (field : Text) : Option Text :=
  if (units keyword).isPrefixOf field then some (field.drop (units keyword).length) else none

def applyPorcelainField (record : DiskWorktree) (field : Text) : DiskWorktree :=
  match afterKeyword "worktree " field, afterKeyword "HEAD " field, afterKeyword "branch refs/heads/" field with
  | some path, _, _ => { record with path := path }
  | none, some headSha, _ => { record with headSha := some headSha }
  | none, none, some branch => { record with branch := some branch }
  | none, none, none =>
    if field = units "detached" then { record with detached := some true }
    else if field = units "bare" then { record with bare := some true }
    else if field = units "locked" || (afterKeyword "locked " field).isSome then { record with locked := some true }
    else if field = units "prunable" || (afterKeyword "prunable " field).isSome then
      { record with prunable := some true }
    else record

def isCompleteRecord (record : DiskWorktree) : Bool := !record.path.isEmpty

/-- `[0-9a-f]` with the flag `i`. -/
def isHexUnit (unit : UInt16) : Bool := isDigit unit || (65 ≤ unit && unit ≤ 70) || (97 ≤ unit && unit ≤ 102)

def isCanonicalRecord (record : DiskWorktree) : Bool :=
  isCompleteRecord record && record.headSha.any fun sha => !sha.isEmpty && sha.all isHexUnit

/-- The worktrees read so far and the record that is being read. -/
structure PorcelainState where
  worktrees : List DiskWorktree
  current : Option DiskWorktree

/-- The record that is being read ends: what `finish` makes of it is a worktree. -/
def PorcelainState.flush (finish : DiskWorktree → Option DiskWorktree) (state : PorcelainState) : PorcelainState :=
  ⟨state.worktrees ++ (state.current.bind finish).toList, none⟩

def porcelainField (finish : DiskWorktree → Option DiskWorktree) (state : PorcelainState) (field : Text) :
    PorcelainState :=
  if field = [] then state.flush finish
  else
    let begun :=
      if (afterKeyword "worktree " field).isSome then { state.flush finish with current := some emptyRecord }
      else state
    { begun with current := begun.current.map fun record => applyPorcelainField record field }

def parseFields (finish : DiskWorktree → Option DiskWorktree) (fields : List Text) : List DiskWorktree :=
  ((fields.foldl (porcelainField finish) ⟨[], none⟩).flush finish).worktrees

def parseNulPorcelain (stdout : Text) : List DiskWorktree :=
  parseFields (fun record => if isCanonicalRecord record then some record else none) (stdout.splitOn 0)

/-- `/\r?\n/` -/
def lineBreak : Pattern UInt16 :=
  .andThen (.many (fun unit => unit = 13) 0 (some 1) true) (.unit fun unit => unit = 10)

/-- The narrow record of the newline format. -/
def legacyRecord (record : DiskWorktree) : Option DiskWorktree :=
  if isCompleteRecord record then
    some ⟨record.path, none, record.branch, none, none, none, if record.prunable = some true then some true else none⟩
  else none

def parseLegacyPorcelain (stdout : Text) : List DiskWorktree := parseFields legacyRecord (lineBreak.cut stdout)

def parseWorktreeListPorcelain (stdout : Text) : List DiskWorktree :=
  if 0 ∈ stdout then parseNulPorcelain stdout else parseLegacyPorcelain stdout

/-! ## What git prints -/

/-- A path: not empty, without a NUL byte. -/
abbrev GitPath := { path : Text // path ≠ [] ∧ 0 ∉ path }

/-- A status entry, with the source of a rename or copy. -/
structure PrintedStatus where
  index : UInt16
  worktree : UInt16
  path : GitPath
  source : Option GitPath
  columns : index ≠ 0 ∧ worktree ≠ 0
  paired : source.isSome = (hasSource index || hasSource worktree)

/-- A name-status entry, with the similarity of a rename or copy. -/
structure PrintedNameStatus where
  status : UInt16
  score : Text
  path : GitPath
  source : Option GitPath
  wellFormed : isNameStatus (status :: score) = true
  paired : source.isSome = hasSource status

/-- A worktree: the object name it is at, its branch, and the reasons of a lock or of pruning. -/
structure PrintedWorktree where
  path : GitPath
  head : Option { sha : Text // sha ≠ [] ∧ sha.all isHexUnit = true }
  branch : Option { ref : Text // 0 ∉ ref }
  detached : Bool
  bare : Bool
  locked : Option { reason : Text // 0 ∉ reason }
  prunable : Option { reason : Text // 0 ∉ reason }

/-- Each field is ended by a NUL byte. -/
def terminated (fields : List Text) : Text := fields.flatMap fun field => field ++ [0]

def PrintedStatus.fields (printed : PrintedStatus) : List Text :=
  (printed.index :: printed.worktree :: 32 :: printed.path.val) :: (printed.source.map Subtype.val).toList

def PrintedNameStatus.fields (printed : PrintedNameStatus) : List Text :=
  (printed.status :: printed.score) :: ((printed.source.map Subtype.val).toList ++ [printed.path.val])

/-- A line with a reason, which stands alone where there is none. -/
def reasonLine (keyword : String) (reason : Text) : Text :=
  if reason = [] then units keyword else units keyword ++ 32 :: reason

def PrintedWorktree.lines (printed : PrintedWorktree) : List Text :=
  (if printed.bare then [units "bare"] else []) ++ ((printed.head.map fun sha => units "HEAD " ++ sha.val).toList ++
      ((if printed.detached then [units "detached"] else []) ++
        ((printed.branch.map fun ref => units "branch " ++ ref.val).toList ++
          ((printed.locked.map fun reason => reasonLine "locked" reason.val).toList ++
            (printed.prunable.map fun reason => reasonLine "prunable" reason.val).toList))))

/-- The fields of a worktree, with the empty one that ends it. -/
def PrintedWorktree.fields (printed : PrintedWorktree) : List Text :=
  (units "worktree " ++ printed.path.val) :: (printed.lines ++ [[]])

/-! ## What should come back -/

def PrintedStatus.entry (printed : PrintedStatus) : GitStatusPorcelainEntry :=
  ⟨printed.index, printed.worktree, printed.path.val, printed.source.map Subtype.val⟩

def PrintedNameStatus.entry (printed : PrintedNameStatus) : GitNameStatusEntry :=
  ⟨printed.status, printed.path.val, printed.source.map Subtype.val⟩

/-- The name of a branch, or the whole of another reference. -/
def branchName (ref : Text) : Text := (afterKeyword "refs/heads/" ref).getD ref

def PrintedWorktree.record (printed : PrintedWorktree) : DiskWorktree where
  path := printed.path.val
  headSha := printed.head.map Subtype.val
  branch := printed.branch.map fun ref => branchName ref.val
  detached := some printed.detached
  bare := some printed.bare
  locked := some printed.locked.isSome
  prunable := some printed.prunable.isSome

/-! ## Fields -/

theorem splitOn_terminated {fields : List Text} (clean : ∀ field ∈ fields, 0 ∉ field) :
    (terminated fields).splitOn 0 = fields ++ [[]] := by
  induction fields with
  | nil => rfl
  | cons field fields ih =>
    have first : terminated (field :: fields) = field ++ 0 :: terminated fields := by simp [terminated]
    rw [first, List.splitOn_append_cons_self, List.splitOn_eq_singleton (clean field List.mem_cons_self),
      ih fun other member => clean other (List.mem_cons_of_mem field member)]
    rfl

theorem PrintedStatus.clean (printed : PrintedStatus) : ∀ field ∈ printed.fields, 0 ∉ field := by
  intro field member
  rcases List.mem_cons.mp member with rfl | member
  · have columns := printed.columns
    have path := printed.path.property.2
    simp [columns.1.symm, columns.2.symm, path]
  · obtain ⟨source, _, rfl⟩ := Option.map_eq_some_iff.mp (Option.mem_toList.mp member)
    exact source.2.2

theorem PrintedNameStatus.clean (printed : PrintedNameStatus) : ∀ field ∈ printed.fields, 0 ∉ field := by
  intro field member
  have wellFormed := printed.wellFormed
  simp only [isNameStatus, Bool.and_eq_true, List.all_eq_true] at wellFormed
  simp only [fields, List.mem_cons, List.mem_append, List.not_mem_nil, or_false] at member
  rcases member with rfl | beforePath | rfl
  · intro nul
    rcases List.mem_cons.mp nul with status | score
    · rw [← status] at wellFormed
      exact absurd wellFormed.1.1 (by decide)
    · exact absurd (wellFormed.2 0 score) (by decide)
  · obtain ⟨source, _, rfl⟩ := Option.map_eq_some_iff.mp (Option.mem_toList.mp beforePath)
    exact source.2.2
  · exact printed.path.property.2

/-! ## Changed paths come back -/

theorem statusEntries_printed (printed : List PrintedStatus) :
    statusEntries (printed.flatMap PrintedStatus.fields ++ [[]]) = .ok (printed.map PrintedStatus.entry) := by
  induction printed with
  | nil => rfl
  | cons first rest ih =>
    obtain ⟨index, worktree, ⟨path, named, _⟩, source, _, paired⟩ := first
    obtain ⟨c, path, rfl⟩ := List.exists_cons_of_ne_nil named
    cases source with
    | none =>
      have plain : (hasSource index || hasSource worktree) = false := paired.symm
      simp only [PrintedStatus.fields, PrintedStatus.entry, List.flatMap_cons, List.map_cons, Option.map_none,
        Option.toList_none, List.cons_append, List.nil_append]
      rw [statusEntries.eq_def]
      simp [plain, ih, followedBy, Except.map]
    | some source =>
      obtain ⟨source, named, _⟩ := source
      obtain ⟨d, source, rfl⟩ := List.exists_cons_of_ne_nil named
      have moved : (hasSource index || hasSource worktree) = true := paired.symm
      simp [PrintedStatus.fields, PrintedStatus.entry, statusEntries, moved, ih, followedBy, Except.map]

theorem nameStatusEntries_printed (printed : List PrintedNameStatus) :
    nameStatusEntries (printed.flatMap PrintedNameStatus.fields ++ [[]]) =
      .ok (printed.map PrintedNameStatus.entry) := by
  induction printed with
  | nil => rfl
  | cons first rest ih =>
    obtain ⟨status, score, ⟨path, named, _⟩, source, wellFormed, paired⟩ := first
    obtain ⟨c, path, rfl⟩ := List.exists_cons_of_ne_nil named
    cases source with
    | none =>
      have plain : hasSource status = false := paired.symm
      simp only [PrintedNameStatus.fields, PrintedNameStatus.entry, List.flatMap_cons, List.map_cons, Option.map_none,
        Option.toList_none, List.cons_append, List.nil_append]
      rw [nameStatusEntries.eq_def]
      simp [wellFormed, plain, ih, followedBy, Except.map]
    | some source =>
      obtain ⟨source, named, _⟩ := source
      obtain ⟨d, source, rfl⟩ := List.exists_cons_of_ne_nil named
      have moved : hasSource status = true := paired.symm
      simp [PrintedNameStatus.fields, PrintedNameStatus.entry, nameStatusEntries, wellFormed, moved, ih, followedBy,
        Except.map]

theorem parseGitStatusPorcelainV1Z_printed (printed : List PrintedStatus) :
    parseGitStatusPorcelainV1Z (terminated (printed.flatMap PrintedStatus.fields)) =
      .ok (printed.map PrintedStatus.entry) := by
  unfold parseGitStatusPorcelainV1Z
  rw [splitOn_terminated fun field member => ?_, statusEntries_printed]
  obtain ⟨entry, _, member⟩ := List.mem_flatMap.mp member
  exact entry.clean field member

theorem parseGitNameStatusZ_printed (printed : List PrintedNameStatus) :
    parseGitNameStatusZ (terminated (printed.flatMap PrintedNameStatus.fields)) =
      .ok (printed.map PrintedNameStatus.entry) := by
  unfold parseGitNameStatusZ
  rw [splitOn_terminated fun field member => ?_, nameStatusEntries_printed]
  obtain ⟨entry, _, member⟩ := List.mem_flatMap.mp member
  exact entry.clean field member

/-! ## Keywords -/

theorem afterKeyword_append (keyword : String) (rest : Text) :
    afterKeyword keyword (units keyword ++ rest) = some rest := by
  unfold afterKeyword
  rw [if_pos (List.isPrefixOf_iff_prefix.mpr (List.prefix_append _ _)), List.drop_left]

theorem firstLetters :
    (units "worktree ").head? = some 119 ∧ (units "HEAD ").head? = some 72 ∧ (units "bare").head? = some 98 ∧
      (units "branch ").head? = some 98 ∧ (units "branch refs/heads/").head? = some 98 ∧
      (units "detached").head? = some 100 ∧ (units "locked").head? = some 108 ∧
      (units "locked ").head? = some 108 ∧ (units "prunable").head? = some 112 ∧
      (units "prunable ").head? = some 112 := by
  decide

theorem head?_extended {beginning : Text} {c : UInt16} (first : beginning.head? = some c) (rest : Text) :
    (beginning ++ rest).head? = some c := by
  simp [List.head?_append, first]

theorem unlike {keyword : String} {field : Text} {c d : UInt16} (spelled : (units keyword).head? = some c)
    (begins : field.head? = some d) (differs : c ≠ d) :
    afterKeyword keyword field = none ∧ field ≠ units keyword := by
  constructor
  · unfold afterKeyword
    refine if_neg fun isPrefix => differs ?_
    obtain ⟨rest, rfl⟩ := List.isPrefixOf_iff_prefix.mp isPrefix
    exact Option.some.inj ((head?_extended spelled rest).symm.trans begins)
  · rintro rfl
    exact differs (Option.some.inj (spelled.symm.trans begins))

section

variable (record : DiskWorktree)

theorem apply_worktree (path : Text) :
    applyPorcelainField record (units "worktree " ++ path) = { record with path := path } := by
  simp only [applyPorcelainField, afterKeyword_append]

theorem apply_head (sha : Text) :
    applyPorcelainField record (units "HEAD " ++ sha) = { record with headSha := some sha } := by
  obtain ⟨worktree, head, _⟩ := firstLetters
  have begins := head?_extended head sha
  simp only [applyPorcelainField, (unlike worktree begins (by decide)).1, afterKeyword_append]

theorem apply_flag {field : Text} {c : UInt16} (begins : field.head? = some c) (notWorktree : c ≠ 119)
    (notHead : c ≠ 72) (notBranch : afterKeyword "branch refs/heads/" field = none) :
    applyPorcelainField record field =
      if field = units "detached" then { record with detached := some true }
      else if field = units "bare" then { record with bare := some true }
      else if field = units "locked" || (afterKeyword "locked " field).isSome then
        { record with locked := some true }
      else if field = units "prunable" || (afterKeyword "prunable " field).isSome then
        { record with prunable := some true }
      else record := by
  obtain ⟨worktree, head, _⟩ := firstLetters
  simp only [applyPorcelainField, (unlike worktree begins notWorktree.symm).1, (unlike head begins notHead.symm).1,
    notBranch]

theorem apply_detached : applyPorcelainField record (units "detached") = { record with detached := some true } := by
  obtain ⟨_, _, _, _, branch, detached, _⟩ := firstLetters
  rw [apply_flag record detached (by decide) (by decide) (unlike branch detached (by decide)).1, if_pos rfl]

theorem apply_bare : applyPorcelainField record (units "bare") = { record with bare := some true } := by
  obtain ⟨_, _, bare, _, _, detached, _⟩ := firstLetters
  rw [apply_flag record bare (by decide) (by decide) (by rfl),
    if_neg (unlike detached bare (by decide)).2, if_pos rfl]

theorem apply_branch (ref : Text) : applyPorcelainField record (units "branch " ++ ref) =
      { record with branch := (afterKeyword "refs/heads/" ref).or record.branch } := by
  obtain ⟨worktree, head, bare, branch, _, detached, locked, lockedReason, prunable, prunableReason⟩ := firstLetters
  have begins := head?_extended branch ref
  have whole : units "branch refs/heads/" = units "branch " ++ units "refs/heads/" := by rfl
  have inner : afterKeyword "branch refs/heads/" (units "branch " ++ ref) = afterKeyword "refs/heads/" ref := by
    have tested : (units "branch refs/heads/").isPrefixOf (units "branch " ++ ref) =
        (units "refs/heads/").isPrefixOf ref := by
      rw [Bool.eq_iff_iff, List.isPrefixOf_iff_prefix, List.isPrefixOf_iff_prefix, whole]
      exact List.prefix_append_right_inj _
    unfold afterKeyword
    rw [tested, whole, List.length_append, ← List.drop_drop, List.drop_left]
  cases read : afterKeyword "refs/heads/" ref with
  | some name =>
    simp only [applyPorcelainField, (unlike worktree begins (by decide)).1, (unlike head begins (by decide)).1,
      inner, read, Option.some_or]
  | none =>
    -- the second letter tells it from a bare line
    have notBare : units "branch " ++ ref ≠ units "bare" := by
      intro same
      have second := congrArg (fun field => field[1]?) same
      exact absurd second (by simp [show units "branch " = [98, 114, 97, 110, 99, 104, 32] by rfl,
        show units "bare" = [98, 97, 114, 101] by rfl])
    rw [apply_flag record begins (by decide) (by decide) (inner.trans read),
      if_neg (unlike detached begins (by decide)).2, if_neg notBare]
    simp [(unlike locked begins (by decide)).2, (unlike lockedReason begins (by decide)).1,
      (unlike prunable begins (by decide)).2, (unlike prunableReason begins (by decide)).1]

theorem reasonLine_begins {keyword : String} {c : UInt16} (first : (units keyword).head? = some c) (reason : Text) :
    (reasonLine keyword reason).head? = some c := by
  unfold reasonLine
  split
  next => exact first
  next => exact head?_extended first _

theorem reasonLine_taken {keyword spaced : String} (whole : units spaced = units keyword ++ [32]) (reason : Text) :
    (reasonLine keyword reason = units keyword || (afterKeyword spaced (reasonLine keyword reason)).isSome) = true := by
  unfold reasonLine
  split
  next => simp
  next =>
    have field : units keyword ++ 32 :: reason = units spaced ++ reason := by simp [whole]
    rw [field, afterKeyword_append]
    simp

theorem apply_locked (reason : Text) :
    applyPorcelainField record (reasonLine "locked" reason) = { record with locked := some true } := by
  obtain ⟨_, _, bare, _, branch, detached, locked, _⟩ := firstLetters
  have begins := reasonLine_begins locked reason
  rw [apply_flag record begins (by decide) (by decide) (unlike branch begins (by decide)).1,
    if_neg (unlike detached begins (by decide)).2, if_neg (unlike bare begins (by decide)).2,
    if_pos (reasonLine_taken (by rfl) reason)]

theorem apply_prunable (reason : Text) :
    applyPorcelainField record (reasonLine "prunable" reason) = { record with prunable := some true } := by
  obtain ⟨_, _, bare, _, branch, detached, locked, lockedReason, prunable, _⟩ := firstLetters
  have begins := reasonLine_begins prunable reason
  have unlocked := unlike locked begins (by decide)
  have noReason := unlike lockedReason begins (by decide)
  rw [apply_flag record begins (by decide) (by decide) (unlike branch begins (by decide)).1,
    if_neg (unlike detached begins (by decide)).2, if_neg (unlike bare begins (by decide)).2,
    if_neg (by simp [unlocked.2, noReason.1]), if_pos (reasonLine_taken (by rfl) reason)]

end

/-! ## Worktrees come back -/

/-- The record the parser makes of a worktree: of the references it keeps the local branches. -/
def PrintedWorktree.parsed (printed : PrintedWorktree) : DiskWorktree :=
  { printed.record with branch := printed.branch.bind fun ref => afterKeyword "refs/heads/" ref.val }

theorem lines_applied (printed : PrintedWorktree) :
    printed.lines.foldl applyPorcelainField { emptyRecord with path := printed.path.val } = printed.parsed := by
  obtain ⟨path, head, branch, detached, bare, locked, prunable⟩ := printed
  simp only [PrintedWorktree.lines, PrintedWorktree.parsed, PrintedWorktree.record, List.foldl_append]
  -- the kinds of lines come in their order, and each sets its own field
  cases bare <;> cases head <;> cases detached <;> cases branch <;> cases locked <;> cases prunable <;>
    simp [emptyRecord, apply_bare, apply_head, apply_detached, apply_branch, apply_locked, apply_prunable]

theorem lines_plain (printed : PrintedWorktree) :
    ∀ line ∈ printed.lines, line ≠ [] ∧ afterKeyword "worktree " line = none := by
  obtain ⟨worktree, head, bare, branch, _, detached, locked, _, prunable, _⟩ := firstLetters
  have plain : ∀ line : Text, ∀ c : UInt16, line.head? = some c → (119 : UInt16) ≠ c →
      line ≠ [] ∧ afterKeyword "worktree " line = none := by
    intro line c begins differs
    refine ⟨?_, (unlike worktree begins differs).1⟩
    rintro rfl
    cases begins
  intro line member
  simp only [PrintedWorktree.lines, List.mem_append, Option.mem_toList, Option.map_eq_some_iff] at member
  rcases member with isBare | ⟨sha, -, rfl⟩ | isDetached | ⟨ref, -, rfl⟩ | ⟨reason, -, rfl⟩ | ⟨reason, -, rfl⟩
  · have same : line = units "bare" := by
      cases printed.bare <;> simp_all
    exact plain line 98 (same ▸ bare) (by decide)
  · exact plain _ 72 (head?_extended head _) (by decide)
  · have same : line = units "detached" := by
      cases printed.detached <;> simp_all
    exact plain line 100 (same ▸ detached) (by decide)
  · exact plain _ 98 (head?_extended branch _) (by decide)
  · exact plain _ 108 (reasonLine_begins locked _) (by decide)
  · exact plain _ 112 (reasonLine_begins prunable _) (by decide)

section

variable (finish : DiskWorktree → Option DiskWorktree)

theorem fold_lines {lines : List Text} (plain : ∀ line ∈ lines, line ≠ [] ∧ afterKeyword "worktree " line = none)
    (worktrees : List DiskWorktree) (record : DiskWorktree) :
    lines.foldl (porcelainField finish) ⟨worktrees, some record⟩ =
      ⟨worktrees, some (lines.foldl applyPorcelainField record)⟩ := by
  induction lines generalizing record with
  | nil => rfl
  | cons line lines ih =>
    obtain ⟨filled, follows⟩ := plain line List.mem_cons_self
    rw [List.foldl_cons, List.foldl_cons, ← ih fun other member => plain other (List.mem_cons_of_mem line member)]
    simp [porcelainField, filled, follows]

theorem fold_worktree (printed : PrintedWorktree) (worktrees : List DiskWorktree) :
    printed.fields.foldl (porcelainField finish) ⟨worktrees, none⟩ =
      ⟨worktrees ++ (finish printed.parsed).toList, none⟩ := by
  have begun : porcelainField finish ⟨worktrees, none⟩ (units "worktree " ++ printed.path.val) =
      ⟨worktrees, some { emptyRecord with path := printed.path.val }⟩ := by
    have filled : units "worktree " ++ printed.path.val ≠ [] := by simp [printed.path.property.1]
    simp [porcelainField, filled, afterKeyword_append, PorcelainState.flush, apply_worktree]
  rw [PrintedWorktree.fields, List.foldl_cons, begun, List.foldl_append, fold_lines finish (lines_plain printed),
    lines_applied]
  simp [porcelainField, PorcelainState.flush]

theorem fold_worktrees (printed : List PrintedWorktree) (worktrees : List DiskWorktree) :
    (printed.flatMap PrintedWorktree.fields).foldl (porcelainField finish) ⟨worktrees, none⟩ =
      ⟨worktrees ++ printed.filterMap fun worktree => finish worktree.parsed, none⟩ := by
  induction printed generalizing worktrees with
  | nil => simp
  | cons first rest ih =>
    rw [List.flatMap_cons, List.foldl_append, fold_worktree, ih, List.append_assoc, List.filterMap_cons]
    cases finish first.parsed <;> simp

end

theorem PrintedWorktree.clean (printed : PrintedWorktree) : ∀ field ∈ printed.fields, 0 ∉ field := by
  have keywords : ∀ keyword ∈ ["worktree ", "bare", "HEAD ", "detached", "branch ", "locked", "prunable"],
      (0 : UInt16) ∉ units keyword := by decide
  have reasons : ∀ keyword ∈ ["locked", "prunable"], ∀ reason : Text, 0 ∉ reason → 0 ∉ reasonLine keyword reason := by
    intro keyword member reason clean
    have free : (0 : UInt16) ∉ units keyword := keywords keyword (by
      simp only [List.mem_cons, List.not_mem_nil, or_false] at member ⊢
      tauto)
    unfold reasonLine
    split
    next => exact free
    next => simp [free, clean]
  intro field member
  simp only [fields, lines, List.mem_cons, List.mem_append, Option.mem_toList, Option.map_eq_some_iff,
    List.not_mem_nil, or_false] at member
  rcases member with
    rfl | (isBare | ⟨sha, -, rfl⟩ | isDetached | ⟨ref, -, rfl⟩ | ⟨reason, -, rfl⟩ | ⟨reason, -, rfl⟩) | rfl
  · simp [keywords "worktree " (by simp), printed.path.property.2]
  · have same : field = units "bare" := by
      cases printed.bare <;> simp_all
    exact same ▸ keywords "bare" (by simp)
  · have hex : (0 : UInt16) ∉ sha.val := fun nul => absurd (List.all_eq_true.mp sha.2.2 0 nul) (by decide)
    simp [keywords "HEAD " (by simp), hex]
  · have same : field = units "detached" := by
      cases printed.detached <;> simp_all
    exact same ▸ keywords "detached" (by simp)
  · simp [keywords "branch " (by simp), ref.2]
  · exact reasons "locked" (by simp) _ reason.2
  · exact reasons "prunable" (by simp) _ reason.2
  · exact List.not_mem_nil

theorem parsed_canonical (printed : PrintedWorktree) : isCanonicalRecord printed.parsed = printed.head.isSome := by
  have named : (printed.path.val).isEmpty = false := by simp [printed.path.property.1]
  cases head : printed.head with
  | none => simp [isCanonicalRecord, PrintedWorktree.parsed, PrintedWorktree.record, head]
  | some sha =>
    have given : sha.val.isEmpty = false := by simp [sha.2.1]
    simp only [isCanonicalRecord, isCompleteRecord, PrintedWorktree.parsed, PrintedWorktree.record, head, named,
      Option.map_some, Option.any_some, given, sha.2.2, Option.isSome_some, Bool.not_false, Bool.and_self]

/-- Only worktrees with a `HEAD` line come back. -/
theorem parseWorktreeListPorcelain_printed (printed : List PrintedWorktree) :
    parseWorktreeListPorcelain (terminated (printed.flatMap PrintedWorktree.fields)) =
      (printed.filter fun worktree => worktree.head.isSome).map PrintedWorktree.parsed := by
  cases printed with
  | nil => rfl
  | cons first rest =>
    have separated : (0 : UInt16) ∈ terminated ((first :: rest).flatMap PrintedWorktree.fields) := by
      simp [terminated, PrintedWorktree.fields]
    have clean : ∀ field ∈ (first :: rest).flatMap PrintedWorktree.fields, 0 ∉ field := by
      intro field member
      obtain ⟨worktree, _, member⟩ := List.mem_flatMap.mp member
      exact worktree.clean field member
    rw [parseWorktreeListPorcelain, if_pos separated, parseNulPorcelain, splitOn_terminated clean, parseFields,
      List.foldl_append, fold_worktrees]
    simp only [List.nil_append, List.foldl_cons, List.foldl_nil, porcelainField, if_pos, PorcelainState.flush,
      Option.bind_none, Option.toList_none, List.append_nil, parsed_canonical]
    rw [← List.filterMap_eq_filter, List.map_filterMap]
    refine List.filterMap_congr fun worktree _ => ?_
    cases head : worktree.head <;> simp [Option.guard, head]

/-! ## When everything comes back -/

/-- The three parsers give back the entries and worktrees that were printed, all of them and in their order. -/
def ComesBack (statuses : List PrintedStatus) (names : List PrintedNameStatus) (worktrees : List PrintedWorktree) :
    Prop :=
  parseGitStatusPorcelainV1Z (terminated (statuses.flatMap PrintedStatus.fields)) =
      .ok (statuses.map PrintedStatus.entry) ∧
    parseGitNameStatusZ (terminated (names.flatMap PrintedNameStatus.fields)) =
      .ok (names.map PrintedNameStatus.entry) ∧
    parseWorktreeListPorcelain (terminated (worktrees.flatMap PrintedWorktree.fields)) =
      worktrees.map PrintedWorktree.record

/-- A worktree has a `HEAD` line, and the reference of its branch line is a local branch. -/
def PrintedWorktree.Checkout (printed : PrintedWorktree) : Prop :=
  printed.head.isSome = true ∧ ∀ ref ∈ printed.branch, (units "refs/heads/").isPrefixOf ref.val = true

theorem parsed_eq_record (printed : PrintedWorktree) :
    printed.parsed = printed.record ↔ ∀ ref ∈ printed.branch, (units "refs/heads/").isPrefixOf ref.val = true := by
  have branches : printed.parsed = printed.record ↔
      (printed.branch.bind fun ref => afterKeyword "refs/heads/" ref.val) = printed.record.branch := by
    unfold PrintedWorktree.parsed
    cases printed.record
    simp
  rw [branches]
  cases branch : printed.branch with
  | none => simp [PrintedWorktree.record, branch]
  | some ref =>
    simp only [PrintedWorktree.record, branch, branchName, afterKeyword, Option.bind_some, Option.map_some,
      Option.mem_def, Option.some.injEq, forall_eq']
    by_cases isLocal : (units "refs/heads/").isPrefixOf ref.val = true <;> simp [isLocal]

/-- Status and name-status entries always come back; worktrees do where each has a `HEAD` line and each branch
    line names a local branch. -/
theorem printed_comesBack_iff (statuses : List PrintedStatus) (names : List PrintedNameStatus)
    (worktrees : List PrintedWorktree) :
    ComesBack statuses names worktrees ↔ ∀ worktree ∈ worktrees, worktree.Checkout := by
  unfold ComesBack
  rw [parseGitStatusPorcelainV1Z_printed, parseGitNameStatusZ_printed, parseWorktreeListPorcelain_printed]
  simp only [true_and]
  constructor
  · intro same worktree member
    -- nothing is dropped, so all have a head
    have lengths : (worktrees.filter fun worktree => worktree.head.isSome).length = worktrees.length := by
      simpa using congrArg List.length same
    have heads := List.length_filter_eq_length_iff.mp lengths
    rw [List.filter_eq_self.mpr heads] at same
    exact ⟨heads worktree member, (parsed_eq_record worktree).mp (List.map_inj_left.mp same worktree member)⟩
  · intro checkouts
    rw [List.filter_eq_self.mpr fun worktree member => (checkouts worktree member).1]
    exact List.map_inj_left.mpr fun worktree member => (parsed_eq_record worktree).mpr (checkouts worktree member).2

/-! ## Fixed runs -/

def bareWorktree : PrintedWorktree :=
  ⟨⟨units "/srv/repo.git", by decide⟩, none, none, false, true, none, none⟩

/-- A bare repository prints no `HEAD` line, and its worktree does not come back. -/
theorem bare_dropped : ¬ ComesBack [] [] [bareWorktree] := by
  rintro ⟨_, _, worktrees⟩
  exact absurd worktrees (by decide)

end Advance.Tools.Worktree
