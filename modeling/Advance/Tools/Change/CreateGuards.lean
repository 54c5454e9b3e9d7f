import Advance.Storage.ChangeIds

/-! # Creating a change

`adv_change_create` looks for open changes of the same name and of the same issue before it
creates one, and once more for the issue afterwards.
-/

namespace Advance.Tools.Change

open Advance.Storage Advance.Types Advance.Utils

/-! ## The store -/

inductive ChangeOriginKind where
  | roadmap
  | discovery
  | triage
  | adhoc
  deriving DecidableEq

structure ChangeOrigin where
  kind : ChangeOriginKind
  issue_number : Option Int
  source_artifact : Option String
  deriving DecidableEq

structure ChangeRecord where
  id : String
  title : String
  status : ChangeStatus
  lifecycleState : Option ChangeLifecycleState
  created_at : String
  origin : Option ChangeOrigin
  deriving DecidableEq

/-- A directory of `changes/`, with the record it holds where that loads. -/
structure ChangeDirectory where
  name : String
  loaded : Option ChangeRecord
  deriving DecidableEq

structure CreateStore where
  directories : List ChangeDirectory
  archived : List ChangeRecord
  closed : List ChangeRecord
  deriving DecidableEq

def CreateStore.active (store : CreateStore) : List ChangeRecord := store.directories.filterMap ChangeDirectory.loaded

def statusText : ChangeStatus → String
  | .draft => "draft"
  | .archived => "archived"
  | .closed => "closed"

structure ChangeListFilter where
  status : Option String
  includeArchived : Bool
  includeClosed : Bool

/-- An entry of the listing.  `origin` is what a cast to a change reads of it. -/
structure ListedChange where
  id : String
  title : String
  status : ChangeStatus
  lifecycleState : Option ChangeLifecycleState
  created_at : String
  origin : Option ChangeOrigin := none
  deriving DecidableEq

/-- The literal of the listing, which names no origin. -/
def listedChange (change : ChangeRecord) : ListedChange where
  id := change.id
  title := change.title
  status := change.status
  lifecycleState := change.lifecycleState
  created_at := change.created_at

/-- The changes whose id is not there yet. -/
def newRecords (changes more : List ChangeRecord) : List ChangeRecord :=
  more.filter fun change => change.id ∉ changes.map ChangeRecord.id

def ChangeListFilter.keeps (filter : ChangeListFilter) (change : ChangeRecord) : Bool :=
  match filter.status.filter (· ≠ "") with
  | some status => statusText change.status = status
  | none => true

def listChanges (store : CreateStore) (filter : ChangeListFilter) : List ListedChange :=
  let includeArchived := filter.includeArchived || filter.status = some "archived"
  let includeClosed := filter.includeClosed || filter.status = some "closed"
  let withArchived :=
    if includeArchived then store.active ++ newRecords store.active store.archived else store.active
  let withClosed := if includeClosed then withArchived ++ newRecords withArchived store.closed else withArchived
  (((withClosed.filter filter.keeps).filter fun change => includeArchived || change.status ≠ .archived).filter
    fun change => includeClosed || change.status ≠ .closed).map listedChange

/-! ## Calls -/

inductive CreateKind where
  | epic
  | change
  deriving DecidableEq

structure CreateCall where
  summary : String
  proposal : Option String
  problemStatement : Option String
  agreement : Option String
  design : Option String
  executiveSummary : Option String
  epic_id : Option String
  entry_id : Option String
  epic_title : Option String
  origin_kind : Option ChangeOriginKind
  origin_issue_number : Option Int
  origin_source_artifact : Option String
  forceRecreate : Bool
  kind : CreateKind
  parent_epic_id : Option String
  shell : Bool
  now : String

structure ToolError where
  error : String
  code : Option String
  fields : List String
  hint : Option String
  deriving DecidableEq

/-- The checks of a call that look at other things than the guards, and what else can fail. -/
structure OtherChecks where
  /-- An Epic's owner in another project than the change. -/
  ownerRouting : Option ToolError
  dependencies : CreateStore → Option ToolError
  /-- The Epic entry, the parent change and the scope. -/
  late : CreateStore → Option ToolError
  writeFails : CreateStore → Bool
  /-- The created change cannot be read back. -/
  readBack : CreateStore → Option String
  /-- The Epic tool does not link the created change. -/
  linkParent : CreateStore → Option String

structure ClaimConflict where
  error : String
  issue_number : Int
  existing_change_id : String
  existing_change_status : String
  hint : String
  deriving DecidableEq

structure DuplicateActiveChange where
  error : String
  existing_change_id : String
  existing_change_title : String
  hint : String
  deriving DecidableEq

structure ClaimRace where
  race_change_ids : List String
  race_hint : String
  deriving DecidableEq

structure CreatedOutput where
  changeId : String
  duplicateWarning : Option String
  origin : Option ChangeOrigin
  /-- `warning: "CLAIM_RACE_DETECTED"` and what goes with it. -/
  race : Option ClaimRace
  deriving DecidableEq

inductive CreateResponse where
  | epicTool (name : String)
  | refused (error : ToolError)
  | claimConflict (conflict : ClaimConflict)
  | duplicate (existing : DuplicateActiveChange)
  | threw
  | unread (changeId error : String)
  | notLinked (changeId error : String)
  | created (output : CreatedOutput)
  deriving DecidableEq

/-! ## Checks of the arguments -/

def syntheticDraftError (summary : String) : ToolError where
  error := "Synthetic validation draft summary \"" ++ summary ++
    "\" is reserved for parity/validation flows. Use isolated temp/test storage instead of live ADV state."
  code := none
  fields := []
  hint := none

def isBlank (text : Option String) : Bool := text.any fun text => (trim text.toList).isEmpty

def collectBlankCreateArtifactOrLinkageFields (call : CreateCall) : List String :=
  ([("proposal", call.proposal), ("problemStatement", call.problemStatement), ("agreement", call.agreement),
    ("design", call.design), ("executiveSummary", call.executiveSummary),
    ("origin_source_artifact", call.origin_source_artifact)].filter fun field => isBlank field.2).map Prod.fst

def linkageFields (call : CreateCall) : List String :=
  (if call.origin_issue_number.isSome then ["origin_issue_number"] else []) ++
    if call.origin_source_artifact.isSome then ["origin_source_artifact"] else []

def linkageError (error : String) (fields : List String) (hint : String) : Option ToolError :=
  some { error, code := none, fields, hint := some hint }

def validateCreateOriginLinkage (call : CreateCall) : Option ToolError :=
  match call.origin_kind with
  | none =>
    if linkageFields call ≠ [] then
      linkageError "origin_issue_number / origin_source_artifact require origin_kind to be set" (linkageFields call)
        ("Pass origin_kind ('discovery' | 'triage' | 'adhoc') alongside allowed linkage fields, or omit linkage " ++
          "fields for an unlinked change. ('roadmap' is readable legacy only — retired for new writes.)")
    else none
  | some .roadmap =>
    linkageError "ORIGIN_KIND_ROADMAP_RETIRED: origin_kind 'roadmap' is retired for new writes." ["origin_kind"]
      ("Use origin_kind 'triage' for issue-linked changes, or 'discovery' / 'adhoc' for non-issue-driven changes. " ++
        "(The 'roadmap' kind remains readable on archived changes for backward compatibility.)")
  | some .discovery =>
    if call.origin_issue_number.isSome then
      linkageError "origin_issue_number is only allowed for triage origins." ["origin_issue_number"]
        ("Use origin_kind 'triage' for issue-linked changes, or omit origin_issue_number for discovery origins.")
    else none
  | some .adhoc =>
    if linkageFields call ≠ [] then
      linkageError "origin linkage fields are not allowed for adhoc origins." (linkageFields call)
        "Omit origin_issue_number and origin_source_artifact for adhoc origins."
    else none
  | some .triage => none

def CreateCall.origin (call : CreateCall) : Option ChangeOrigin :=
  call.origin_kind.map fun kind =>
    ⟨kind, call.origin_issue_number, call.origin_source_artifact.filter (· ≠ "")⟩

/-- The error of `buildEpicMembershipFromSeed`: some of the seed fields are there, others not. -/
def epicSeedError (call : CreateCall) : Option ToolError :=
  let seedFields := [("epic_id", call.epic_id), ("entry_id", call.entry_id), ("epic_title", call.epic_title)]
  let missing := (seedFields.filter fun field => field.2.isNone).map Prod.fst
  if seedFields.any (fun field => field.2.isSome) && missing ≠ [] then
    some {
      error := "Complete create-time Epic membership requires epic_id, entry_id, and epic_title; omit all Epic fields " ++
        "when no Epic membership is intended."
      code := some "INVALID_EPIC_MEMBERSHIP_SEED"
      fields := missing
      hint := none }
  else none

/-- What comes before the guards and does not look at the store. -/
def argumentsResponse (checks : OtherChecks) (call : CreateCall) : Option CreateResponse :=
  if call.kind = .epic then some (.epicTool "adv_epic_create")
  else if call.shell then
    if call.parent_epic_id.all (· = "") then
      some (.refused ⟨"parent_epic_id is required when shell is true", some "EPIC_PARENT_REQUIRED", [], none⟩)
    else some (.epicTool "adv_epic_add_shell")
  else if isSyntheticValidationDraftPattern call.summary then some (.refused (syntheticDraftError call.summary))
  else if checks.ownerRouting.isSome then checks.ownerRouting.map .refused
  else if collectBlankCreateArtifactOrLinkageFields call ≠ [] then
    some (.refused
      { error := "Blank artifact or linkage fields are not allowed."
        code := none
        fields := collectBlankCreateArtifactOrLinkageFields call
        hint := some
          ("Provide non-blank strings for fields you intend to set, or omit fields you do not intend to set.") })
  else ((validateCreateOriginLinkage call).or (epicSeedError call)).map .refused

/-! ## The guards -/

structure IssueClaim where
  changeId : String
  status : String
  deriving DecidableEq

def activeFilter : ChangeListFilter := ⟨some "active", false, false⟩

/-- The default claim checker. -/
def listIssueClaims (store : CreateStore) (issueNumber : Int) : List IssueClaim :=
  ((listChanges store activeFilter).filter fun change =>
    (change.origin.bind ChangeOrigin.issue_number) = some issueNumber).map fun change =>
      ⟨change.id, statusText change.status⟩

def CreateCall.claimedIssue (call : CreateCall) : Option Int :=
  (call.origin.bind ChangeOrigin.issue_number).filter (0 < ·)

def claimConflict (issueNumber : Int) (first : IssueClaim) : ClaimConflict where
  error := s!"Issue #{issueNumber} is already claimed by change {first.changeId} (status: {first.status})"
  issue_number := issueNumber
  existing_change_id := first.changeId
  existing_change_status := first.status
  hint := s!"Resume that change with /adv-apply {first.changeId}, or omit origin_issue_number to create an unlinked " ++
    "change."

/-- Nothing where the id of the summary cannot be made. -/
def checkActiveDuplicateChange (store : CreateStore) (summary : String) (forceRecreate : Bool) :
    Option (Option DuplicateActiveChange) :=
  (generateChangeId summary).map fun candidateChangeId =>
    ((listChanges store activeFilter).find? fun change => change.id = candidateChangeId || change.title = summary).map
      fun existing =>
        let baseHint := s!"Resume the existing change with /adv-apply {existing.id}, or archive it before creating a " ++
          "new one."
        { error := s!"An active change already exists for \"{summary}\""
          existing_change_id := existing.id
          existing_change_title := existing.title
          hint := if forceRecreate then baseHint ++ " forceRecreate is not supported by disk-only persistence."
            else baseHint }

/-! ## Creation -/

def claimStep (checks : OtherChecks) (call : CreateCall) (store : CreateStore) : Option CreateResponse :=
  (argumentsResponse checks call).or (((checks.dependencies store).map .refused).or
    (call.claimedIssue.bind fun issueNumber =>
      (listIssueClaims store issueNumber).head?.map fun first => .claimConflict (claimConflict issueNumber first)))

def duplicateStep (checks : OtherChecks) (call : CreateCall) (store : CreateStore) : Option CreateResponse :=
  ((checks.late store).map CreateResponse.refused).or
    (match checkActiveDuplicateChange store call.summary call.forceRecreate with
    | none => some .threw
    | some duplicate => duplicate.map .duplicate)

def newRecord (call : CreateCall) (changeId : String) : ChangeRecord where
  id := changeId
  title := call.summary
  status := .draft
  lifecycleState := none
  created_at := call.now
  origin := call.origin

def duplicateWarning (baseId changeId : String) : Option String :=
  if changeId ≠ baseId then
    some (s!"WARNING: Change ID \"{baseId}\" already exists. Created \"{changeId}\" instead. This may indicate a " ++
      s!"duplicate change — verify that \"{baseId}\" is not the same work before proceeding.")
  else none

/-- `changes.create`, with the id and the warning it returns. -/
def createStep (call : CreateCall) (baseId : String) (store : CreateStore) : String × CreateStore :=
  let changeId := freeId (store.directories.map ChangeDirectory.name) baseId
  (changeId, { store with directories := store.directories ++ [⟨changeId, some (newRecord call changeId)⟩] })

def claimRace (issueNumber : Int) (racers : List IssueClaim) : ClaimRace where
  race_change_ids := racers.map IssueClaim.changeId
  race_hint := s!"Concurrent change-create detected for issue #{issueNumber}. Changes: [" ++
    ", ".intercalate (racers.map IssueClaim.changeId) ++ "]. Resolve by archiving duplicates."

def raceCheck (call : CreateCall) (store : CreateStore) : Option ClaimRace :=
  call.claimedIssue.bind fun issueNumber =>
    let racers := listIssueClaims store issueNumber
    if 1 < racers.length then some (claimRace issueNumber racers) else none

/-- What is left to do after the creation. -/
def afterStep (checks : OtherChecks) (call : CreateCall) (baseId changeId : String) (store : CreateStore) :
    CreateResponse :=
  match checks.readBack store with
  | some error => .unread changeId error
  | none =>
    match if call.parent_epic_id.all (· = "") then none else checks.linkParent store with
    | some error => .notLinked changeId error
    | none =>
      .created
        { changeId
          duplicateWarning := duplicateWarning baseId changeId
          origin := call.origin
          race := raceCheck call store }

/-- A call without `target_path`, alone at the store, with the default claim checker. -/
def advChangeCreateHandler (checks : OtherChecks) (call : CreateCall) (store : CreateStore) :
    CreateResponse × CreateStore :=
  match claimStep checks call store with
  | some response => (response, store)
  | none =>
    match duplicateStep checks call store, generateChangeId call.summary with
    | some response, _ => (response, store)
    | none, none => (.threw, store)
    | none, some baseId =>
      if checks.writeFails store then (.threw, store)
      else
        let created := createStep call baseId store
        (afterStep checks call baseId created.1 created.2, created.2)

end Advance.Tools.Change
