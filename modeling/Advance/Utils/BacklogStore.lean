import Advance.Foundation.CriticalSection
import Advance.JavaScript.LatestByKey
import Advance.Types.Backlog
import Advance.Utils.SyntheticFixtureDetector
import Mathlib.Data.List.TakeWhile

/-! # Backlog store

The backlog is a file of lines: a header, then one document for each version of an item.
Adding, promoting and archiving read it and append one line, under a file lock.
-/

namespace Advance.Utils

open Advance.Foundation Advance.JavaScript Advance.Types

def LARGE_FILE_THRESHOLD_BYTES : Nat := 1024 * 1024

def DEFAULT_TAIL_LIMIT : Nat := 1000

/-- The file's text, where there is a file. -/
abbrev BacklogFile := Option (List Char)

inductive BacklogErrorCode where
  | notFound
  | archived
  | schemaVersion
  deriving DecidableEq

/-! ## Reading -/

def byteSize (text : List Char) : Nat := (text.map Char.utf8Size).sum

/-- The lines `readline` gives: the last one need not be ended. -/
def splitLines : List Char → List (List Char)
  | [] => []
  | '\r' :: '\n' :: rest => [] :: splitLines rest
  | '\n' :: rest => [] :: splitLines rest
  | '\r' :: rest => [] :: splitLines rest
  | c :: rest =>
    match splitLines rest with
    | [] => [[c]]
    | line :: lines => (c :: line) :: lines

/-- The characters in the first bytes; one that is cut through is read as a replacement. -/
def takeBytes : Nat → List Char → List Char
  | _, [] => []
  | bytes, c :: rest =>
    if c.utf8Size ≤ bytes then c :: takeBytes (bytes - c.utf8Size) rest
    else if bytes = 0 then []
    else ['\uFFFD']

def readFirstLine (text : List Char) : Option (List Char) := (splitLines (takeBytes 4096 text)).head?

/-- A line that is not an item; the message of its error is left out. -/
structure BacklogMalformedLine where
  line : Nat
  raw : List Char
  deriving DecidableEq

def parseHeader (raw : List Char) : BacklogHeader × Option BacklogMalformedLine :=
  match (Json.parse raw).bind BacklogHeader.ofJson with
  | some header => (header, none)
  | none => ({ schemaVersion := CURRENT_SCHEMA_VERSION }, some { line := 1, raw })

inductive LineEntry where
  | blank
  | item (item : BacklogItem)
  | malformed (line : BacklogMalformedLine)

def validateItem (line : Nat) (raw : List Char) : LineEntry :=
  if (trim raw).isEmpty then .blank
  else
    match (Json.parse raw).bind BacklogItem.ofJson with
    | some item => .item item
    | none => .malformed { line, raw }

def LineEntry.item? : LineEntry → Option BacklogItem
  | .item read => some read
  | _ => none

def LineEntry.malformed? : LineEntry → Option BacklogMalformedLine
  | .malformed read => some read
  | _ => none

structure BacklogReadOptions where
  tailLimit : Option Nat
  includeArchived : Bool

structure BacklogReadResult where
  header : BacklogHeader
  items : List BacklogItem
  latestItems : List BacklogItem
  malformed : List BacklogMalformedLine

/-- The latest records are told apart by the object they are, which is their place here. -/
def buildReadResult (header : BacklogHeader) (entries : List LineEntry) (includeArchived : Bool) :
    BacklogReadResult :=
  let allItems := (entries.filterMap LineEntry.item?).zipIdx
  let latestMap := fromEntries (allItems.map fun record => (record.1.id, record))
  let filtered := allItems.filter fun record =>
    includeArchived || (mapGet latestMap record.1.id).any fun latest => latest.1.status = .active
  { header := header
    items := filtered.map Prod.fst
    latestItems := (filtered.filter fun record => mapGet latestMap record.1.id = some record).map Prod.fst
    malformed := entries.filterMap LineEntry.malformed? }

def readBacklogLines (text : List Char) (tailLimit : Nat) : List (List Char × Nat) :=
  let lines := (splitLines text).zipIdx 1
  if byteSize text > LARGE_FILE_THRESHOLD_BYTES then lines.drop (lines.length - tailLimit) else lines

/-- The first line is the header's also where it is among the lines read. -/
def readEntries (text : List Char) (tailLimit : Nat) : List LineEntry :=
  ((readBacklogLines text tailLimit).filter fun line => line.2 ≠ 1).map fun line => validateItem line.2 line.1

def readHeader (text : List Char) : BacklogHeader × Option BacklogMalformedLine :=
  match readFirstLine text with
  | none | some [] => ({ schemaVersion := CURRENT_SCHEMA_VERSION }, none)
  | some firstLine => parseHeader firstLine

def readBacklog (file : BacklogFile) (options : BacklogReadOptions) : BacklogReadResult :=
  match file with
  | none => ⟨{ schemaVersion := CURRENT_SCHEMA_VERSION }, [], [], []⟩
  | some text =>
    let (header, headerMalformed) := readHeader text
    let entries := readEntries text (options.tailLimit.getD DEFAULT_TAIL_LIMIT)
    buildReadResult header ((headerMalformed.map LineEntry.malformed).toList ++ entries) options.includeArchived

def findItem (id : String) (result : BacklogReadResult) : Option BacklogItem :=
  result.latestItems.find? fun item => item.id = id

/-! ## Mutations -/

inductive BacklogOutcome where
  | item (item : BacklogItem)
  | missing
  | failed (code : BacklogErrorCode) (message : String)
  | lockTimeout
  deriving DecidableEq

abbrev BacklogProgram := Program BacklogFile BacklogOutcome

def line (value : Json) : List Char := value.print ++ ['\n']

def ensureBacklogFile (header : BacklogHeader) : BacklogFile → BacklogFile
  | some text => some text
  | none => some (line header.toJson)

def appendFile (text : List Char) (file : BacklogFile) : BacklogFile := some (file.getD [] ++ text)

def appendItem (header : BacklogHeader) (item : BacklogItem) : BacklogProgram :=
  .act (ensureBacklogFile header) fun _ =>
    .act (appendFile (line item.toJson)) fun _ => .finish (.item item)

def schemaVersionMessage (header : BacklogHeader) : String :=
  s!"Backlog schema version {header.schemaVersion} is not supported. Run migration or pass explicit consent."

/-- What a mutation does with what it reads, where the schema version can be written. -/
def withBacklog (mutate : BacklogReadResult → BacklogProgram) : BacklogProgram :=
  .look fun file =>
    let existing := readBacklog file { tailLimit := none, includeArchived := true }
    if existing.header.schemaVersion ≠ CURRENT_SCHEMA_VERSION then
      .finish (.failed .schemaVersion (schemaVersionMessage existing.header))
    else mutate existing

structure AddBacklogItemInput where
  id : Option String
  title : String
  success_hint : String
  context_packet : Option FutureWorkContextPacket

/-- `nanoid` is what the generator gives where the input has no id. -/
def addBacklogItem (input : AddBacklogItemInput) (nanoid now : String) : BacklogProgram :=
  withBacklog fun existing =>
    let id := input.id.getD s!"bl-{nanoid}"
    let previous := findItem id existing
    appendItem existing.header
      { id := id
        title := input.title
        success_hint := input.success_hint
        status := .active
        created_at := (previous.map BacklogItem.created_at).getD now
        updated_at := now
        archived_at := none
        promoted_to := none
        context_packet := input.context_packet }

structure PromoteBacklogItemInput where
  id : String
  kind : BacklogPromotionKind
  targetId : String

def promoteBacklogItem (input : PromoteBacklogItemInput) (now : String) : BacklogProgram :=
  withBacklog fun existing =>
    match findItem input.id existing with
    | none => .finish (.failed .notFound s!"Backlog item not found: {input.id}")
    | some latest =>
      if latest.status = .archived then
        .finish (.failed .archived s!"Cannot promote archived backlog item: {input.id}")
      else if (latest.promoted_to.any fun target => target.kind = input.kind && target.id = input.targetId) then
        .finish (.item latest)
      else
        appendItem existing.header
          { latest with
            updated_at := now
            promoted_to := some { kind := input.kind, id := input.targetId, promoted_at := now } }

def archiveBacklogItem (id now : String) : BacklogProgram :=
  withBacklog fun existing =>
    match findItem id existing with
    | none => .finish .missing
    | some latest =>
      if latest.status = .archived then .finish (.item latest)
      else
        appendItem existing.header { latest with status := .archived, updated_at := now, archived_at := some now }

inductive BacklogCall where
  | add (input : AddBacklogItemInput) (nanoid now : String)
  | promote (input : PromoteBacklogItemInput) (now : String)
  | archive (id now : String)

def BacklogCall.id : BacklogCall → String
  | add input nanoid _ => input.id.getD s!"bl-{nanoid}"
  | promote input _ => input.id
  | archive id _ => id

def BacklogCall.program : BacklogCall → BacklogProgram
  | add input nanoid now => addBacklogItem input nanoid now
  | promote input now => promoteBacklogItem input now
  | archive id now => archiveBacklogItem id now

def BacklogCall.client (call : BacklogCall) : LockClient BacklogFile BacklogOutcome :=
  { check := fun _ => none, timeout := .lockTimeout, program := call.program }

/-! ## What the store writes -/

def lastRecord (id : String) (items : List BacklogItem) : Option BacklogItem :=
  items.reverse.find? fun item => item.id = id

def currentHeader : BacklogHeader := { schemaVersion := CURRENT_SCHEMA_VERSION }

/-- The file that holds the given records. -/
def render (records : List BacklogItem) : List Char :=
  line currentHeader.toJson ++ records.flatMap fun item => line item.toJson

/-- The records of a file that are among its last lines, where it is long. -/
def window (tailLimit : Nat) (records : List BacklogItem) : List BacklogItem :=
  if byteSize (render records) > LARGE_FILE_THRESHOLD_BYTES then records.drop (records.length - tailLimit)
  else records

theorem splitLines_cons {c : Char} (notFeed : c ≠ '\n') (notReturn : c ≠ '\r') {rest line : List Char}
    {lines : List (List Char)} (later : splitLines rest = line :: lines) :
    splitLines (c :: rest) = (c :: line) :: lines := by
  rw [splitLines.eq_def]
  split
  next none => cases none
  next both => exact absurd (List.cons.inj both).1 notReturn
  next feed => exact absurd (List.cons.inj feed).1 notFeed
  next returns => exact absurd (List.cons.inj returns).1 notReturn
  next begins =>
    obtain ⟨rfl, rfl⟩ := List.cons.inj begins
    rw [later]

theorem splitLines_line {text rest : List Char} (printable : Json.Printable text) :
    splitLines (text ++ '\n' :: rest) = text :: splitLines rest := by
  induction text with
  | nil => rfl
  | cons c text ih =>
    have solid : 32 ≤ c.toNat := printable c List.mem_cons_self
    refine splitLines_cons ?_ ?_ (ih fun c member => printable c (List.mem_cons_of_mem _ member))
    · rintro rfl
      exact absurd solid (by decide)
    · rintro rfl
      exact absurd solid (by decide)

theorem splitLines_written (value : Json) (rest : List Char) :
    splitLines (line value ++ rest) = value.print :: splitLines rest := by
  rw [line, List.append_assoc]
  exact splitLines_line (Json.print_printable value)

theorem lines_render (records : List BacklogItem) :
    splitLines (render records) = currentHeader.toJson.print :: records.map fun item => item.toJson.print := by
  rw [render, splitLines_written]
  congr 1
  induction records with
  | nil => rfl
  | cons item records ih => rw [List.flatMap_cons, splitLines_written, ih, List.map_cons]

theorem takeBytes_append {front : List Char} {bytes : Nat} (fits : byteSize front ≤ bytes) (back : List Char) :
    takeBytes bytes (front ++ back) = front ++ takeBytes (bytes - byteSize front) back := by
  induction front generalizing bytes with
  | nil => rfl
  | cons c front ih =>
    have size : byteSize (c :: front) = c.utf8Size + byteSize front := rfl
    have first : c.utf8Size ≤ bytes := by omega
    rw [List.cons_append, takeBytes, if_pos first, ih (by omega), size, Nat.sub_sub, List.cons_append]

theorem readHeader_render (records : List BacklogItem) : readHeader (render records) = (currentHeader, none) := by
  have first : readFirstLine (render records) = some currentHeader.toJson.print := by
    rw [readFirstLine, render, takeBytes_append (by decide), splitLines_written]
    rfl
  have parsed : parseHeader currentHeader.toJson.print = (currentHeader, none) := by
    rw [parseHeader, Json.parse_print]
    rfl
  unfold readHeader
  rw [first]
  exact parsed

theorem trim_solid {c : Char} (solid : isJsWhitespace c = false) (rest : List Char) :
    (trim (c :: rest)).isEmpty = false := by
  have kept : (c :: rest).dropWhile isJsWhitespace = c :: rest := by rw [List.dropWhile_cons_of_neg (by simp [solid])]
  rw [trim, kept, List.isEmpty_eq_false_iff, ne_eq, List.reverse_eq_nil_iff]
  intro empty
  have blank := List.dropWhile_eq_nil_iff.mp empty c (by simp)
  exact Bool.false_ne_true (solid.symm.trans blank)

theorem validateItem_written {item : BacklogItem} (valid : item.valid = true) (number : Nat) :
    validateItem number item.toJson.print = .item item := by
  have begins : ∃ rest, item.toJson.print = '\x7b' :: rest := ⟨_, rfl⟩
  obtain ⟨rest, begins⟩ := begins
  have solid : (trim item.toJson.print).isEmpty = false := by
    rw [begins]
    exact trim_solid (by decide) rest
  rw [validateItem, solid, Json.parse_print, Option.bind_some, BacklogItem.ofJson_toJson valid]
  rfl

variable {records : List BacklogItem}

theorem validated_lines (valid : ∀ item ∈ records, item.valid = true) (start : Nat) :
    ((records.map fun item => item.toJson.print).zipIdx start).map (fun line => validateItem line.2 line.1) =
      records.map LineEntry.item := by
  induction records generalizing start with
  | nil => rfl
  | cons item records ih =>
    simp only [List.map_cons, List.zipIdx_cons]
    rw [validateItem_written (valid item List.mem_cons_self),
      ih fun item member => valid item (List.mem_cons_of_mem _ member)]

theorem readEntries_render (valid : ∀ item ∈ records, item.valid = true) (tailLimit : Nat) :
    readEntries (render records) tailLimit = (window tailLimit records).map LineEntry.item := by
  have later : ∀ skipped, (((records.map fun item => item.toJson.print).zipIdx 2).drop skipped).filter
      (fun line => line.2 ≠ 1) = ((records.map fun item => item.toJson.print).zipIdx 2).drop skipped := by
    intro skipped
    refine List.filter_eq_self.mpr fun line member => ?_
    have number := List.le_snd_of_mem_zipIdx (List.mem_of_mem_drop member)
    have notFirst : line.2 ≠ 1 := by omega
    simpa using notFirst
  have all := later 0
  rw [List.drop_zero] at all
  unfold readEntries readBacklogLines window
  simp only [lines_render, List.zipIdx_cons, List.length_cons, List.length_zipIdx, List.length_map]
  split
  next =>
    rcases Nat.lt_or_ge records.length tailLimit with short | long
    · rw [show records.length + 1 - tailLimit = 0 by omega, show records.length - tailLimit = 0 by omega,
        List.drop_zero, List.drop_zero, List.filter_cons_of_neg (by simp), all, validated_lines valid]
    · rw [show records.length + 1 - tailLimit = (records.length - tailLimit) + 1 by omega, List.drop_succ_cons,
        later, List.map_drop, validated_lines valid, List.map_drop]
  next => rw [List.filter_cons_of_neg (by simp), all, validated_lines valid]

theorem find?_only {α : Type*} {values : List α} {p : α → Bool} {value : α} (member : value ∈ values)
    (asked : p value = true) (only : ∀ other ∈ values, p other = true → other = value) :
    values.find? p = some value := by
  cases found : values.find? p with
  | none => exact absurd asked (List.find?_eq_none.mp found value member)
  | some other => exact congrArg some (only other (List.mem_of_find?_eq_some found) (List.find?_some found))

/-- What a reader of the given options sees of a record. -/
def visible (includeArchived : Bool) (record : BacklogItem) : Bool :=
  includeArchived || record.status = .active

theorem findItem_buildReadResult (header : BacklogHeader) (entries : List LineEntry) (includeArchived : Bool)
    (id : String) : findItem id (buildReadResult header entries includeArchived) =
      (lastRecord id (entries.filterMap LineEntry.item?)).filter (visible includeArchived) := by
  let items := entries.filterMap LineEntry.item?
  let latestMap := fromEntries (items.zipIdx.map fun record => (record.1.id, record))
  have latest : ∀ id, mapGet latestMap id = items.zipIdx.reverse.find? fun record => record.1.id = id := by
    intro id
    rw [mapGet_fromEntries_last, ← List.map_reverse, mapGet, List.find?_map, Option.map_map]
    exact Option.map_id'
  have last : lastRecord id items = (mapGet latestMap id).map Prod.fst := by
    have places : items.reverse = items.zipIdx.reverse.map Prod.fst := by
      rw [List.map_reverse, List.zipIdx_map_fst]
    rw [latest, lastRecord, places, List.find?_map]
    rfl
  have shown : findItem id (buildReadResult header entries includeArchived) = (((items.zipIdx.filter fun record =>
          includeArchived || (mapGet latestMap record.1.id).any fun latest => latest.1.status = .active).filter
        fun record => mapGet latestMap record.1.id = some record).find? fun record => record.1.id = id).map
          Prod.fst := by
    rw [findItem, buildReadResult, List.find?_map]
    rfl
  rw [shown, last]
  cases found : mapGet latestMap id with
  | none =>
    rw [Option.map_none, Option.filter_none, Option.map_eq_none_iff, List.find?_eq_none]
    intro record member same
    have isLatest := (List.mem_filter.mp member).2
    rw [of_decide_eq_true same, found] at isLatest
    cases of_decide_eq_true isLatest
  | some record =>
    have stands := (latest id).symm.trans found
    have sameId : record.1.id = id := by simpa using List.find?_some stands
    have place : record ∈ items.zipIdx := List.mem_reverse.mp (List.mem_of_find?_eq_some stands)
    -- a record of this id that is the latest one is this record
    have only : ∀ other, mapGet latestMap other.1.id = some other → other.1.id = id → other = record := by
      intro other isLatest same
      rw [same, found] at isLatest
      exact (Option.some.inj isLatest).symm
    rw [Option.map_some, List.filter_filter]
    cases seen : visible includeArchived record.1 with
    | true =>
      have passes : record ∈ items.zipIdx.filter fun record =>
          decide (mapGet latestMap record.1.id = some record) &&
            (includeArchived || (mapGet latestMap record.1.id).any fun latest => latest.1.status = .active) := by
        refine List.mem_filter.mpr ⟨place, ?_⟩
        rw [sameId, found, decide_eq_true rfl]
        exact seen
      rw [find?_only passes (by simpa using sameId), Option.filter_some_pos seen, Option.map_some]
      intro other member same
      have conditions := (List.mem_filter.mp member).2
      rw [Bool.and_eq_true] at conditions
      exact only other (of_decide_eq_true conditions.1) (of_decide_eq_true same)
    | false =>
      rw [Option.filter_some_neg (by simp [seen]), Option.map_eq_none_iff, List.find?_eq_none]
      intro other member same
      have conditions := (List.mem_filter.mp member).2
      rw [Bool.and_eq_true] at conditions
      have sameRecord := only other (of_decide_eq_true conditions.1) (of_decide_eq_true same)
      have shows := conditions.2
      rw [sameRecord, sameId, found] at shows
      exact Bool.false_ne_true (seen.symm.trans shows)

theorem findItem_render (valid : ∀ item ∈ records, item.valid = true) (options : BacklogReadOptions) (id : String) :
    findItem id (readBacklog (some (render records)) options) =
      (lastRecord id (window (options.tailLimit.getD DEFAULT_TAIL_LIMIT) records)).filter
        (visible options.includeArchived) := by
  have items : ∀ records : List BacklogItem, (records.map LineEntry.item).filterMap LineEntry.item? = records := by
    intro records
    rw [List.filterMap_map]
    exact List.filterMap_some
  simp only [readBacklog, readHeader_render, readEntries_render valid, Option.map_none, Option.toList_none,
    List.nil_append, findItem_buildReadResult, items]

theorem header_render (options : BacklogReadOptions) :
    (readBacklog (some (render records)) options).header = currentHeader := by
  simp only [readBacklog, readHeader_render, buildReadResult]

end Advance.Utils
