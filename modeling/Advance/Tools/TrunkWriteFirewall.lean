import Advance.Foundation.Pattern
import Advance.Storage.StoreResidueScan

/-! # The trunk write firewall

`classifyDestructiveBash` reads the targets of known destructive commands off the text of a shell
command, and `checkTrunkWriteBash` blocks the command when one of them is in a trunk checkout on
its default branch. The warnings that are logged on the way are left out.
-/

namespace Advance.Tools

open Advance.Foundation Advance.JavaScript
open Advance.Storage (dirname isAbsolute relative)
open Advance.Utils (isJsWhitespace trim)
open Pattern

inductive TrunkWriteDecision where
  | ALLOW
  | BLOCK
  deriving DecidableEq

structure TrunkWriteResult where
  decision : TrunkWriteDecision
  reason : Option String
  targetPath : Option String
  deriving DecidableEq

inductive RepoState where
  | ok
  | detached
  | merging
  | rebasing
  | cherryPicking
  | reverting
  | notGit
  deriving DecidableEq

structure WorktreeTopologyEntry where
  path : String
  isMain : Bool
  prunable : Bool
  deriving DecidableEq

/-- What the firewall asks for; nothing stands for a call that fails. -/
structure TrunkWriteFirewallDeps where
  getDefaultBranch : String → Option String
  execGit : List String → String → Option String
  worktreePaths : List String
  projectRoot : String
  getRepoState : String → RepoState
  existsSync : String → Bool
  homedir : String
  workingDirectory : String

structure TrunkContext where
  targetPath : String
  gitRoot : Option String
  mainCheckoutRoot : Option String
  branch : String
  defaultBranchKnown : Bool
  isDefaultBranch : Bool
  isEligibleWorktree : Bool
  repoState : RepoState
  deriving DecidableEq

/-! ## The list of worktrees -/

/-- The units of a text as they are. -/
def literal (text : String) : Pattern Char := word (fun own other => own = other) text.toList

structure DiskWorktree where
  path : List Char
  headSha : Option (List Char)
  prunable : Bool
  deriving DecidableEq

def emptyRecord : DiskWorktree := ⟨[], none, false⟩

/-- What stands after a text's beginning. -/
def afterPrefix (beginning : String) (field : List Char) : Option (List Char) :=
  if beginning.toList.isPrefixOf field then some (field.drop beginning.toList.length) else none

def applyPorcelainField (record : DiskWorktree) (field : List Char) : DiskWorktree :=
  match afterPrefix "worktree " field, afterPrefix "HEAD " field with
  | some path, _ => { record with path := path }
  | none, some headSha => { record with headSha := some headSha }
  | none, none =>
    if field = "prunable".toList || (afterPrefix "prunable " field).isSome then { record with prunable := true }
    else record

def isHexDigit (c : Char) : Bool :=
  c.isDigit || ('a' ≤ c && c ≤ 'f') || ('A' ≤ c && c ≤ 'F')

def isCompleteRecord (record : DiskWorktree) : Bool := !record.path.isEmpty

def isCanonicalRecord (record : DiskWorktree) : Bool :=
  isCompleteRecord record && record.headSha.any fun sha => !sha.isEmpty && sha.all isHexDigit

structure PorcelainState where
  worktrees : List DiskWorktree
  current : Option DiskWorktree

def PorcelainState.flush (accepts : DiskWorktree → Bool) (state : PorcelainState) : PorcelainState :=
  ⟨state.worktrees ++ (state.current.filter accepts).toList, none⟩

def porcelainField (accepts : DiskWorktree → Bool) (state : PorcelainState) (field : List Char) : PorcelainState :=
  if field = [] then state.flush accepts
  else
    let begun :=
      if (afterPrefix "worktree " field).isSome then { state.flush accepts with current := some emptyRecord }
      else state
    { begun with current := begun.current.map fun record => applyPorcelainField record field }

/-- `/\r?\n/` -/
def lineEnd : Pattern Char :=
  andThen (many (fun c => c = '\r') 0 (some 1) true) (unit fun c => c = '\n')

def parseWorktreeListPorcelain (stdout : List Char) : List DiskWorktree :=
  if '\x00' ∈ stdout then
    ((((unit fun c => c = '\x00').cut stdout).foldl (porcelainField isCanonicalRecord) ⟨[], none⟩).flush
      isCanonicalRecord).worktrees
  else
    (((lineEnd.cut stdout).foldl (porcelainField isCompleteRecord) ⟨[], none⟩).flush isCompleteRecord).worktrees

def parseWorktreeTopology (porcelain : String) : List WorktreeTopologyEntry :=
  (parseWorktreeListPorcelain porcelain.toList).mapIdx fun index entry =>
    ⟨String.ofList entry.path, index = 0, entry.prunable⟩

/-! ## Paths -/

def stripTrailingSlashes (path : String) : List Char := path.toList.rdropWhile (· = '/')

/-- `candidate` equals `root` or is under it. -/
def isSameOrChildPath (workingDirectory candidate root : String) : Bool :=
  let normalizedCandidate := stripTrailingSlashes (resolve workingDirectory candidate)
  let normalizedRoot := stripTrailingSlashes (resolve workingDirectory root)
  normalizedCandidate = normalizedRoot || (normalizedRoot ++ ['/']).isPrefixOf normalizedCandidate

def isSamePath (left right : String) : Bool := stripTrailingSlashes left = stripTrailingSlashes right

def normalizeTargetPath (workingDirectory targetPath basePath : String) : String :=
  if isAbsolute targetPath then targetPath else resolve (resolve workingDirectory basePath) targetPath

def MAX_ANCESTOR_HOPS : Nat := 64

def ancestorWalk (existsSync : String → Bool) (startPath : String) : Nat → String → String
  | 0, _ => startPath
  | hops + 1, current =>
    if existsSync current then current
    else if dirname current = current then current
    else ancestorWalk existsSync startPath hops (dirname current)

def nearestExistingAncestor (existsSync : String → Bool) (startPath : String) : String :=
  ancestorWalk existsSync startPath MAX_ANCESTOR_HOPS startPath

def TRUNK_GENERATED_ARTIFACTS : List String := ["CHANGELOG.md", ".adv/github-project.json"]

def isAllowlistedTrunkArtifact (workingDirectory targetPath projectRoot : String) : Bool :=
  let rel := relative workingDirectory projectRoot targetPath
  if rel = "" || "..".toList.isPrefixOf rel.toList then false else TRUNK_GENERATED_ARTIFACTS.contains rel

/-! ## The context of a target -/

def IN_PROGRESS_STATES : List RepoState := [.merging, .rebasing, .cherryPicking, .reverting]

def trimmedText (text : String) : String := String.ofList (trim text.toList)

abbrev TopologyMemo := List (String × List WorktreeTopologyEntry)

variable (deps : TrunkWriteFirewallDeps)

/-- The topology of a repository; without one its root is its own main checkout. -/
def lookUpTopology (gitRoot : String) : List WorktreeTopologyEntry :=
  match deps.execGit ["worktree", "list", "--porcelain"] gitRoot with
  | some porcelain =>
    let entries := parseWorktreeTopology porcelain
    if entries = [] then [⟨gitRoot, true, false⟩] else entries
  | none => [⟨gitRoot, true, false⟩]

def getWorktreeTopology (gitRoot : String) (memo : TopologyMemo) : List WorktreeTopologyEntry × TopologyMemo :=
  match mapGet memo gitRoot with
  | some cached => (cached, memo)
  | none => (lookUpTopology deps gitRoot, mapSet memo gitRoot (lookUpTopology deps gitRoot))

def probeCwd (normalizedTarget : String) : String :=
  let containingWorktree :=
    deps.worktreePaths.find? (isSameOrChildPath deps.workingDirectory normalizedTarget)
  match containingWorktree.filter (· ≠ "") with
  | some worktreePath => worktreePath
  | none =>
    if isSameOrChildPath deps.workingDirectory normalizedTarget deps.projectRoot then deps.projectRoot
    else nearestExistingAncestor deps.existsSync (dirname normalizedTarget)

/-- The context of a target whose repository is not found. -/
def unresolvedContext (normalizedTarget : String) : TrunkContext :=
  if isSameOrChildPath deps.workingDirectory normalizedTarget deps.projectRoot then
    ⟨normalizedTarget, some deps.projectRoot, some deps.projectRoot, "HEAD", false, false, false, .ok⟩
  else ⟨normalizedTarget, none, none, "HEAD", false, false, false, .notGit⟩

def contextIn (normalizedTarget gitRoot : String) (topology : List WorktreeTopologyEntry) : TrunkContext :=
  let mainEntry := (topology.find? fun entry => entry.isMain).getD ⟨gitRoot, true, false⟩
  let containingEntry :=
    (topology.find? fun entry => isSameOrChildPath deps.workingDirectory normalizedTarget entry.path) <|>
      (topology.find? fun entry =>
        isSamePath gitRoot entry.path || isSameOrChildPath deps.workingDirectory gitRoot entry.path)
  let branch := ((deps.execGit ["rev-parse", "--abbrev-ref", "HEAD"] gitRoot).map trimmedText).getD "HEAD"
  let defaultBranch := (deps.getDefaultBranch gitRoot).getD ""
  { targetPath := normalizedTarget
    gitRoot := some gitRoot
    mainCheckoutRoot := some (if containingEntry.any fun entry => entry.prunable then gitRoot else mainEntry.path)
    branch := branch
    defaultBranchKnown := defaultBranch ≠ ""
    isDefaultBranch := defaultBranch ≠ "" && branch = defaultBranch
    isEligibleWorktree := containingEntry.any fun entry => !entry.isMain && !entry.prunable
    repoState := deps.getRepoState gitRoot }

def resolveTrunkContext (targetPath : String) (memo : TopologyMemo) : TrunkContext × TopologyMemo :=
  let normalizedTarget := normalizeTargetPath deps.workingDirectory targetPath deps.projectRoot
  match deps.execGit ["rev-parse", "--show-toplevel"] (probeCwd deps normalizedTarget) with
  | none => (unresolvedContext deps normalizedTarget, memo)
  | some toplevel =>
    let gitRoot := trimmedText toplevel
    let found := getWorktreeTopology deps gitRoot memo
    (contextIn deps normalizedTarget gitRoot found.1, found.2)

/-! ## The decision -/

def blocked (cause targetPath : String) : TrunkWriteResult :=
  ⟨.BLOCK, some ("Trunk write firewall: direct file write to trunk checkout " ++ cause ++ " (" ++ targetPath ++
    "). Create or use an ADV worktree instead."), some targetPath⟩

def allowed (targetPath : String) : TrunkWriteResult := ⟨.ALLOW, none, some targetPath⟩

def evaluateTarget (context : TrunkContext) : TrunkWriteResult :=
  let isSessionCheckout := isSameOrChildPath deps.workingDirectory context.targetPath deps.projectRoot
  if context.gitRoot = none || context.repoState = .notGit then
    if isSessionCheckout then blocked "is blocked because git state could not be verified" context.targetPath
    else allowed context.targetPath
  else
    let mainRoot := context.mainCheckoutRoot.getD deps.projectRoot
    let isTrunkCheckout := isSameOrChildPath deps.workingDirectory context.targetPath mainRoot
    if !context.defaultBranchKnown && isTrunkCheckout then
      blocked "is blocked because the default branch could not be verified" context.targetPath
    else if context.isEligibleWorktree then allowed context.targetPath
    else if !context.isDefaultBranch then allowed context.targetPath
    else if IN_PROGRESS_STATES.contains context.repoState then allowed context.targetPath
    else if !isTrunkCheckout then allowed context.targetPath
    else if isAllowlistedTrunkArtifact deps.workingDirectory context.targetPath mainRoot then
      allowed context.targetPath
    else blocked "on default branch is blocked" context.targetPath

def checkTrunkWrite (targetPath : String) : TrunkWriteResult :=
  evaluateTarget deps (resolveTrunkContext deps targetPath []).1

/-! ## Commands -/

/-- The beginning of a here-document, up to the end of its line. -/
def heredocStart : Pattern Char :=
  inTurn [literal "<<", many (fun c => c = '-') 0 (some 1) true,
    many (fun c => c = '\'' || c = '"') 0 (some 1) true,
    captured (andThen (unit fun c => c.isAlpha || c = '_') (many (fun c => c.isAlphanum || c = '_') 0 none true)),
    many (fun c => c = '\'' || c = '"') 0 (some 1) true, literal "\n"]

/-- What follows the first place where a text begins a line. -/
def afterLine (name : List Char) : List Char → Option (List Char)
  | [] => none
  | c :: rest =>
    if c = '\n' && name.isPrefixOf rest then some (rest.drop name.length) else afterLine name rest

/-- What follows a here-document at the start of a text. -/
def afterHeredoc (text : List Char) : Option (List Char) :=
  (heredocStart.ways false text).findSome? fun way => afterLine (way.group 0) way.rest

def stripHeredocsFrom : Nat → List Char → List Char
  | 0, text => text
  | _ + 1, [] => []
  | fuel + 1, c :: rest =>
    match afterHeredoc (c :: rest) with
    | some after => stripHeredocsFrom fuel after
    | none => c :: stripHeredocsFrom fuel rest

/-- `/<<-?['"]?([A-Za-z_][A-Za-z0-9_]*)['"]?\n[\s\S]*?\n\1/g`, cut out. -/
def stripHeredocs (command : List Char) : List Char := stripHeredocsFrom command.length command

/-- `/&&|\|\||;|\|/` -/
def separators : Pattern Char := anyOf [literal "&&", literal "||", literal ";", literal "|"]

def splitShellSegments (command : List Char) : List (List Char) :=
  ((separators.cut (stripHeredocs command)).map trim).filter fun segment => !segment.isEmpty

def isQuote (c : Char) : Bool := c = '\'' || c = '"'

/-- `/^['"]|['"]$/g`, cut out. -/
def unquote (value : List Char) : List Char :=
  (either (andThen atStart (unit isQuote)) (andThen (unit isQuote) atEnd)).replaceAll [] value

/-- A quoted text with the redirection that it may follow without a space. -/
def quotedToken (quote : Char) : Pattern Char :=
  inTurn [either (either (literal ">>") (literal ">")) nothing, unit fun c => c = quote,
    many (fun c => c ≠ quote) 0 none true, unit fun c => c = quote]

/-- `/(?:>>|>)?"[^"]*"|(?:>>|>)?'[^']*'|\S+/g` -/
def tokenPattern : Pattern Char :=
  anyOf [quotedToken '"', quotedToken '\'', many (fun c => !isJsWhitespace c) 1 none true]

def tokenize (segment : List Char) : List (List Char) := (tokenPattern.takenAll segment).map unquote

/-- The targets of the redirections among some tokens. -/
def extractRedirectTargets : List (List Char) → List (List Char)
  | [] => []
  | [token] =>
    if token = ['>'] || token = ['>', '>'] then []
    else if ['>', '>'].isPrefixOf token then [token.drop 2]
    else if ['>'].isPrefixOf token then [token.drop 1]
    else []
  | token :: next :: rest =>
    if token = ['>'] || token = ['>', '>'] then
      (if next = [] then [] else [next]) ++ extractRedirectTargets rest
    else if ['>', '>'].isPrefixOf token then token.drop 2 :: extractRedirectTargets (next :: rest)
    else if ['>'].isPrefixOf token then token.drop 1 :: extractRedirectTargets (next :: rest)
    else extractRedirectTargets (next :: rest)

def resolveCommandPath (pathValue : List Char) (workdir : String) : Option String :=
  let raw := unquote pathValue
  if raw.any fun c => c = '$' || c.toNat = 96 then none
  else if raw = ['~'] then some deps.homedir
  else
    let expanded :=
      if ['~', '/'].isPrefixOf raw then
        resolve (resolve deps.workingDirectory deps.homedir) (String.ofList (raw.drop 2))
      else String.ofList raw
    some (normalizeTargetPath deps.workingDirectory expanded workdir)

/-- The tokens that a command does not take for options. -/
def positionalTokens (tokens : List (List Char)) : List (List Char) :=
  tokens.tail.filter fun token => !(['-'].isPrefixOf token)

def commandTargets (tokens : List (List Char)) : List (List Char) :=
  match tokens with
  | [] => []
  | name :: _ =>
    if name = "tee".toList || name = "rm".toList then positionalTokens tokens
    else if name = "cp".toList || name = "mv".toList ||
        (name = "sed".toList && tokens.any fun token => "-i".toList.isPrefixOf token) then
      (positionalTokens tokens).getLast?.toList.filter fun token => !token.isEmpty
    else []

/-- What `pushResolved` adds to the targets. -/
def pushResolved (workdir : String) (pathValue : List Char) : Option String :=
  (resolveCommandPath deps pathValue workdir).filter (· ≠ "")

def segmentTargets (workdir : String) (segment : List Char) : List String :=
  let tokens := tokenize segment
  (extractRedirectTargets tokens ++ commandTargets tokens).filterMap (pushResolved deps workdir)

def classifyDestructiveBash (command : List Char) (workdir : String) : List String :=
  (splitShellSegments command).flatMap (segmentTargets deps workdir)

/-- The loop over the targets, with what is remembered of the repositories. -/
def checkTargets : List String → TopologyMemo → TrunkWriteResult
  | [], _ => ⟨.ALLOW, none, none⟩
  | target :: targets, memo =>
    let found := resolveTrunkContext deps target memo
    let result := evaluateTarget deps found.1
    if result.decision = .BLOCK then result else checkTargets targets found.2

def checkTrunkWriteBash (command : List Char) (argsWorkdir : Option String) : TrunkWriteResult :=
  let workdir := argsWorkdir.getD deps.projectRoot
  checkTargets deps (classifyDestructiveBash deps command workdir) []

/-! ## Blocking -/

variable {deps}

/-- What is remembered of a repository is what would be looked up. -/
def Remembers (deps : TrunkWriteFirewallDeps) (memo : TopologyMemo) : Prop :=
  ∀ gitRoot entries, mapGet memo gitRoot = some entries → entries = lookUpTopology deps gitRoot

variable {memo : TopologyMemo}

theorem getWorktreeTopology_known (remembers : Remembers deps memo) (gitRoot : String) :
    (getWorktreeTopology deps gitRoot memo).1 = lookUpTopology deps gitRoot ∧
      Remembers deps (getWorktreeTopology deps gitRoot memo).2 := by
  unfold getWorktreeTopology
  cases cached : mapGet memo gitRoot with
  | some entries => exact ⟨remembers gitRoot entries cached, remembers⟩
  | none =>
    refine ⟨rfl, fun asked entries found => ?_⟩
    rw [mapGet_mapSet] at found
    split at found
    next same =>
      rw [same]
      exact (Option.some.inj found).symm
    next => exact remembers asked entries found

theorem resolveTrunkContext_known (remembers : Remembers deps memo) (targetPath : String) :
    (resolveTrunkContext deps targetPath memo).1 = (resolveTrunkContext deps targetPath []).1 ∧
      Remembers deps (resolveTrunkContext deps targetPath memo).2 := by
  unfold resolveTrunkContext
  simp only
  split
  · exact ⟨rfl, remembers⟩
  next toplevel _ =>
    have known := getWorktreeTopology_known remembers (trimmedText toplevel)
    have fresh := @getWorktreeTopology_known deps [] nofun (trimmedText toplevel)
    exact ⟨by rw [known.1, fresh.1], known.2⟩

theorem checkTargets_blocks_iff {targets : List String} (remembers : Remembers deps memo) :
    (checkTargets deps targets memo).decision = .BLOCK ↔
      ∃ target ∈ targets, (checkTrunkWrite deps target).decision = .BLOCK := by
  induction targets generalizing memo with
  | nil => simp [checkTargets]
  | cons target targets ih =>
    obtain ⟨same, still⟩ := resolveTrunkContext_known remembers target
    have own : evaluateTarget deps (resolveTrunkContext deps target memo).1 = checkTrunkWrite deps target := by
      rw [same]
      rfl
    rw [checkTargets, own, List.exists_mem_cons_iff]
    by_cases blocks : (checkTrunkWrite deps target).decision = .BLOCK
    · simp [blocks]
    · simp only [blocks, if_false, false_or]
      exact ih still

theorem checkTrunkWriteBash_blocks_iff (deps : TrunkWriteFirewallDeps) (command : List Char)
    (argsWorkdir : Option String) : (checkTrunkWriteBash deps command argsWorkdir).decision = .BLOCK ↔
      ∃ target ∈ classifyDestructiveBash deps command (argsWorkdir.getD deps.projectRoot),
        (checkTrunkWrite deps target).decision = .BLOCK :=
  checkTargets_blocks_iff nofun

end Advance.Tools
