import Advance.JavaScript.CodeUnits
import Advance.Utils.BacklogStore
import Mathlib.Data.List.Sort
import Mathlib.Order.Defs.Unbundled

/-! # Project wisdom

The wisdom of a project is a file of lines, one entry each.  Adding appends a line, compacting
rewrites the file with the entries it keeps; both hold the file's lock.
-/

namespace Advance.Storage

open Advance.Foundation Advance.JavaScript Advance.Types Advance.Utils

inductive WisdomType where
  | pattern
  | success
  | failure
  | gotcha
  | convention
  deriving DecidableEq

def WisdomType.name : WisdomType → String
  | pattern => "pattern"
  | success => "success"
  | failure => "failure"
  | gotcha => "gotcha"
  | convention => "convention"

/-- `WisdomTypeSchema.safeParse` -/
def WisdomType.ofName (name : String) : Option WisdomType :=
  [pattern, success, failure, gotcha, convention].find? fun type => type.name = name

structure ProjectWisdomEntry where
  id : String
  type : WisdomType
  content : String
  source_change : Option String
  source_task : Option String
  promoted_at : String
  tags : Option (List String)
  invalidated_by : Option String
  product_id : Option String
  origin_repo_id : Option String
  origin_repo_project_id : Option String
  origin_repo_path : Option String
  deriving DecidableEq

/-- What is not in this repository: the check of `datetime` and the comparison of texts. -/
structure WisdomRuntime where
  isDatetime : String → Bool
  localeCompare : String → String → Ordering

def DEFAULT_MAX_ENTRIES : Nat := 50

def MAX_CONTENT : Nat := 2000

/-! ## Documents -/

def WisdomType.toJson (type : WisdomType) : Json := .text type.name

def WisdomType.ofJson : Json → Option WisdomType
  | .text name => ofName name
  | _ => none

def ProjectWisdomEntry.fields (entry : ProjectWisdomEntry) : List (String × Option Json) :=
  [("id", some (.text entry.id)), ("type", some entry.type.toJson), ("content", some (.text entry.content)),
    ("source_change", entry.source_change.map .text), ("source_task", entry.source_task.map .text),
    ("promoted_at", some (.text entry.promoted_at)), ("tags", entry.tags.map textList),
    ("invalidated_by", entry.invalidated_by.map .text), ("product_id", entry.product_id.map .text),
    ("origin_repo_id", entry.origin_repo_id.map .text),
    ("origin_repo_project_id", entry.origin_repo_project_id.map .text),
    ("origin_repo_path", entry.origin_repo_path.map .text)]

def ProjectWisdomEntry.toJson (entry : ProjectWisdomEntry) : Json := .record entry.fields

def ProjectWisdomEntry.shape (value : Json) : Option ProjectWisdomEntry := do
  let id ← required readText "id" value
  let type ← required WisdomType.ofJson "type" value
  let content ← required readText "content" value
  let source_change ← Types.optional readText "source_change" value
  let source_task ← Types.optional readText "source_task" value
  let promoted_at ← required readText "promoted_at" value
  let tags ← Types.optional (readList readText) "tags" value
  let invalidated_by ← Types.optional readText "invalidated_by" value
  let product_id ← Types.optional readText "product_id" value
  let origin_repo_id ← Types.optional readText "origin_repo_id" value
  let origin_repo_project_id ← Types.optional readText "origin_repo_project_id" value
  let origin_repo_path ← Types.optional readText "origin_repo_path" value
  pure { id, type, content, source_change, source_task, promoted_at, tags, invalidated_by, product_id,
         origin_repo_id, origin_repo_project_id, origin_repo_path }

section

variable (runtime : WisdomRuntime)

def ProjectWisdomEntry.valid (entry : ProjectWisdomEntry) : Bool :=
  "pw-".toList.isPrefixOf entry.id.toList && entry.content ≠ "" && (units entry.content).length ≤ MAX_CONTENT &&
    runtime.isDatetime entry.promoted_at

/-- `ProjectWisdomEntrySchema.safeParse`, which leaves out what it does not name. -/
def ProjectWisdomEntry.ofJson (value : Json) : Option ProjectWisdomEntry :=
  (shape value).filter (valid runtime)

/-! ## The calls -/

/-- The file's text, where there is a file. -/
abbrev WisdomFile := Option (List Char)

def parseWisdomLine (line : List Char) : Option ProjectWisdomEntry :=
  if (trim line).isEmpty then none
  else (Json.parse (trim line)).bind (ProjectWisdomEntry.ofJson runtime)

/-- The entries of a text in the order of its lines. -/
def wisdomEntriesOf (text : List Char) : List ProjectWisdomEntry :=
  (text.splitOn '\n').filterMap (parseWisdomLine runtime)

/-- The sort's comparison: the newest first. -/
def newestFirst (left right : ProjectWisdomEntry) : Prop :=
  (runtime.localeCompare right.promoted_at left.promoted_at).isLE = true

instance : DecidableRel (newestFirst runtime) := fun _ _ => inferInstanceAs (Decidable (_ = true))

def sortWisdom (entries : List ProjectWisdomEntry) : List ProjectWisdomEntry :=
  entries.insertionSort (newestFirst runtime)

def parseWisdomEntries (content : List Char) : List ProjectWisdomEntry :=
  sortWisdom runtime (wisdomEntriesOf runtime content)

/-- A file that is not there has no entries. -/
def listProjectWisdom (file : WisdomFile) : List ProjectWisdomEntry :=
  parseWisdomEntries runtime (file.getD [])

def limited (maxEntries : Option Nat) (entries : List ProjectWisdomEntry) : List ProjectWisdomEntry :=
  match maxEntries with
  | none => entries
  | some maxEntries => if entries.length > maxEntries then entries.take maxEntries else entries

structure AddProjectWisdomInput where
  type : String
  content : String
  sourceChange : Option String := none
  sourceTask : Option String := none
  tags : Option (List String) := none
  invalidated_by : Option String := none
  product_id : Option String := none
  origin_repo_id : Option String := none
  origin_repo_project_id : Option String := none
  origin_repo_path : Option String := none

/-- The entry an add appends, or the message it throws. -/
def wisdomEntry (input : AddProjectWisdomInput) (nanoid now : String) : Except String ProjectWisdomEntry :=
  match WisdomType.ofName input.type with
  | none => .error (s!"Invalid wisdom type: {input.type}. " ++
      "Must be one of: pattern, success, failure, gotcha, convention")
  | some type =>
    if (trim input.content.toList).isEmpty then .error "Wisdom content cannot be empty"
    else if (units input.content).length > MAX_CONTENT then .error "Wisdom content exceeds 2000 character limit"
    else .ok
      { id := "pw-" ++ nanoid
        type := type
        content := input.content
        source_change := input.sourceChange
        source_task := input.sourceTask
        promoted_at := now
        tags := input.tags
        invalidated_by := input.invalidated_by
        product_id := input.product_id
        origin_repo_id := input.origin_repo_id
        origin_repo_project_id := input.origin_repo_project_id
        origin_repo_path := input.origin_repo_path }

def isPriority (entry : ProjectWisdomEntry) : Bool := entry.type = .convention || entry.type = .pattern

/-- The entries a compaction keeps of those listed. -/
def keptEntries (maxEntries : Nat) (entries : List ProjectWisdomEntry) : List ProjectWisdomEntry :=
  let priority := entries.filter isPriority
  let others := entries.filter fun entry => !isPriority entry
  if priority.length ≥ maxEntries then priority.take maxEntries
  else priority ++ others.take (maxEntries - priority.length)

def wisdomLines (entries : List ProjectWisdomEntry) : List Char :=
  List.intercalate ['\n'] (entries.map fun entry => entry.toJson.print) ++ ['\n']

def compactProjectWisdom (maxEntries : Option Nat) (file : WisdomFile) : WisdomFile :=
  let entries := listProjectWisdom runtime file
  let cap := maxEntries.getD DEFAULT_MAX_ENTRIES
  if file = none ∨ entries.length ≤ cap then file
  else some (wisdomLines (sortWisdom runtime (keptEntries cap entries)).reverse)

inductive WisdomCall where
  /-- `cut` is how many bytes were written where the append did not come to its end. -/
  | add (input : AddProjectWisdomInput) (nanoid now : String) (cut : Option Nat)
  | compact (maxEntries : Option Nat)
  | list (maxEntries : Option Nat)

inductive WisdomResponse where
  | added (entry : ProjectWisdomEntry)
  | thrown (message : String)
  | cutShort
  | compacted
  | listed (entries : List ProjectWisdomEntry)

/-- The lock is held from a call's read to its write, so that calls take effect one after the other. -/
def serveWisdom : WisdomCall → WisdomFile → WisdomResponse × WisdomFile
  | .add input nanoid now cut, file =>
    match wisdomEntry input nanoid now, cut with
    | .error message, _ => (.thrown message, file)
    | .ok entry, none => (.added entry, appendFile (line entry.toJson) file)
    | .ok entry, some bytes => (.cutShort, appendFile (takeBytes bytes (line entry.toJson)) file)
  | .compact maxEntries, file => (.compacted, compactProjectWisdom runtime maxEntries file)
  | .list maxEntries, file => (.listed (limited maxEntries (listProjectWisdom runtime file)), file)

abbrev WisdomRecord := Record WisdomFile WisdomCall WisdomResponse

end

/-! ## Documents are read back -/

section

variable {runtime : WisdomRuntime} {entry : ProjectWisdomEntry} {file : WisdomFile} {front back : List Char}

theorem ProjectWisdomEntry.ofJson_toJson (valid : entry.valid runtime = true) :
    ofJson runtime entry.toJson = some entry := by
  have distinct : (entry.fields.map Prod.fst).Nodup := by simp [fields]
  have texts : ∀ values, readList readText (textList values) = some values := readList_map readText_text
  have types : ∀ type : WisdomType, WisdomType.ofJson type.toJson = some type := by
    intro type
    cases type <;> rfl
  have shaped : shape entry.toJson = some entry := by
    unfold shape toJson
    rw [required_record readText_text distinct entry.id (by simp [fields]),
      required_record types distinct entry.type (by simp [fields]),
      required_record readText_text distinct entry.content (by simp [fields]),
      optional_record readText_text distinct entry.source_change (by simp [fields]),
      optional_record readText_text distinct entry.source_task (by simp [fields]),
      required_record readText_text distinct entry.promoted_at (by simp [fields]),
      optional_record texts distinct entry.tags (by simp [fields]),
      optional_record readText_text distinct entry.invalidated_by (by simp [fields]),
      optional_record readText_text distinct entry.product_id (by simp [fields]),
      optional_record readText_text distinct entry.origin_repo_id (by simp [fields]),
      optional_record readText_text distinct entry.origin_repo_project_id (by simp [fields]),
      optional_record readText_text distinct entry.origin_repo_path (by simp [fields])]
    rfl
  rw [ofJson, shaped]
  exact Option.filter_some_pos valid

theorem printMembers_ends (members : List (String × Json)) :
    ∃ inside, Json.printMembers members = inside ++ ['\x7d'] := by
  induction members with
  | nil => exact ⟨[], rfl⟩
  | cons member members ih =>
    obtain ⟨inside, ends⟩ := ih
    rw [Json.printMembers, ends]
    exact ⟨',' :: (Json.quote member.1 ++ ':' :: (member.2.print ++ inside)), by simp⟩

theorem trim_object (inside : List Char) : trim ('\x7b' :: (inside ++ ['\x7d'])) = '\x7b' :: (inside ++ ['\x7d']) := by
  rw [trim, List.dropWhile_cons_of_neg (by decide), ← List.cons_append, List.reverse_append, List.reverse_singleton,
    List.singleton_append, List.dropWhile_cons_of_neg (by decide), List.reverse_cons, List.reverse_reverse]

theorem print_object (entry : ProjectWisdomEntry) :
    ∃ inside, entry.toJson.print = '\x7b' :: (inside ++ ['\x7d']) := by
  obtain ⟨inside, ends⟩ := printMembers_ends (entry.fields.tail.filterMap fun field => field.2.map (field.1, ·))
  refine ⟨Json.quote "id" ++ ':' :: (Json.print (.text entry.id) ++ inside), ?_⟩
  have written : entry.toJson.print = '\x7b' :: (Json.quote "id" ++ ':' :: (Json.print (.text entry.id) ++
    Json.printMembers (entry.fields.tail.filterMap fun field => field.2.map (field.1, ·)))) := rfl
  rw [written, ends]
  simp

theorem parseWisdomLine_print (valid : entry.valid runtime = true) :
    parseWisdomLine runtime entry.toJson.print = some entry := by
  obtain ⟨inside, ends⟩ := print_object entry
  have whole : trim entry.toJson.print = entry.toJson.print := by rw [ends, trim_object]
  rw [parseWisdomLine, whole, Json.parse_print, Option.bind_some, ProjectWisdomEntry.ofJson_toJson valid, if_neg]
  simp [ends]

/-! ## Lines -/

/-- The text stops where a line does. -/
def LineEnded (text : List Char) : Prop := text = [] ∨ ∃ front, text = front ++ ['\n']

/-- What follows a line's end is read apart from what stands before it. -/
theorem wisdomEntriesOf_append (ended : LineEnded front) (back : List Char) :
    wisdomEntriesOf runtime (front ++ back) = wisdomEntriesOf runtime front ++ wisdomEntriesOf runtime back := by
  obtain rfl | ⟨front, rfl⟩ := ended
  · rfl
  · have blank : parseWisdomLine runtime [] = none := rfl
    simp only [wisdomEntriesOf, List.append_assoc, List.singleton_append, List.splitOn_append_cons_self,
      List.filterMap_append, List.splitOn_nil, List.filterMap_cons, blank, List.filterMap_nil, List.append_nil]

theorem line_ended (text : List Char) (value : Json) : LineEnded (text ++ line value) :=
  .inr ⟨text ++ value.print, by simp [line]⟩

theorem wisdomEntriesOf_line (valid : entry.valid runtime = true) :
    wisdomEntriesOf runtime (line entry.toJson) = [entry] := by
  have oneLine : '\n' ∉ entry.toJson.print := fun member => absurd (Json.print_printable _ _ member) (by decide)
  have blank : parseWisdomLine runtime [] = none := rfl
  rw [wisdomEntriesOf, line, List.splitOn_append_cons_self_of_not_mem oneLine, List.splitOn_nil, List.filterMap_cons,
    parseWisdomLine_print valid, List.filterMap_cons, blank, List.filterMap_nil]

theorem valid_of_listed {text : List Char} (listed : entry ∈ wisdomEntriesOf runtime text) :
    entry.valid runtime = true := by
  obtain ⟨_, _, parsed⟩ := List.mem_filterMap.mp listed
  unfold parseWisdomLine at parsed
  split at parsed
  · cases parsed
  · obtain ⟨_, _, read⟩ := Option.bind_eq_some_iff.mp parsed
    exact (Option.filter_eq_some_iff.mp read).2

variable {entries : List ProjectWisdomEntry}

/-- What a compaction writes is read back. -/
theorem wisdomEntriesOf_wisdomLines
    (valid : ∀ entry ∈ entries, entry.valid runtime = true) :
    LineEnded (wisdomLines entries) ∧ wisdomEntriesOf runtime (wisdomLines entries) = entries := by
  refine ⟨.inr ⟨_, rfl⟩, ?_⟩
  induction entries with
  | nil => rfl
  | cons entry entries ih =>
    have first := wisdomEntriesOf_line (valid entry List.mem_cons_self)
    cases entries with
    | nil =>
      have one : wisdomLines [entry] = line entry.toJson := by simp [wisdomLines, line]
      rw [one, first]
    | cons second later =>
      have split : wisdomLines (entry :: second :: later) =
          ([] ++ line entry.toJson) ++ wisdomLines (second :: later) := by
        simp [wisdomLines, line, List.intercalate_cons_cons]
      rw [split, wisdomEntriesOf_append (line_ended [] _), List.nil_append, first,
        ih fun entry member => valid entry (.tail _ member)]
      rfl

/-! ## Compactions -/

variable (runtime) in
/-- The entry was promoted after the other one, as the sort compares them. -/
def Newer (entry other : ProjectWisdomEntry) : Prop :=
  runtime.localeCompare entry.promoted_at other.promoted_at = .gt

variable (runtime) in
/-- A compaction of what is listed before leaves what is listed after. -/
structure FairCompaction (cap : Nat) (before after : List ProjectWisdomEntry) : Prop where
  short : before.length ≤ cap → after = before
  long : cap < before.length → after.length = cap ∧ ∃ dropped, (after ++ dropped).Perm before ∧
    ∀ gone ∈ dropped, ∀ kept ∈ after, (isPriority gone = true → isPriority kept = true) ∧
      (isPriority gone = isPriority kept → ¬Newer runtime gone kept)

/-- Of sorted entries, those past some number are no newer than the ones before. -/
theorem not_newer_of_cut (sorted : entries.Pairwise (newestFirst runtime)) (n : Nat)
    {gone kept : ProjectWisdomEntry} (dropped : gone ∈ entries.drop n) (taken : kept ∈ entries.take n) :
    ¬Newer runtime gone kept := by
  rw [← List.take_append_drop n entries, List.pairwise_append] at sorted
  have order := sorted.2.2 kept taken gone dropped
  intro newer
  rw [newestFirst, newer] at order
  cases order

theorem keptEntries_fair {cap : Nat}
    (sorted : entries.Pairwise (newestFirst runtime)) (many : cap < entries.length) :
    (keptEntries cap entries).length = cap ∧ ∃ dropped, (keptEntries cap entries ++ dropped).Perm entries ∧
      ∀ gone ∈ dropped, ∀ kept ∈ keptEntries cap entries, (isPriority gone = true → isPriority kept = true) ∧
        (isPriority gone = isPriority kept → ¬Newer runtime gone kept) := by
  let priority := entries.filter isPriority
  let others := entries.filter fun entry => !isPriority entry
  have all : (priority ++ others).Perm entries := List.filter_append_perm _ _
  have count : priority.length + others.length = entries.length := by rw [← List.length_append, all.length_eq]
  have isOne : ∀ entry ∈ priority, isPriority entry = true := fun _ member => (List.mem_filter.mp member).2
  have isOther : ∀ entry ∈ others, isPriority entry = false := fun _ member => by
    simpa using (List.mem_filter.mp member).2
  by_cases enough : priority.length ≥ cap
  · have kept : keptEntries cap entries = priority.take cap := if_pos enough
    rw [kept]
    refine ⟨by simpa using enough, priority.drop cap ++ others, ?_, ?_⟩
    · rwa [← List.append_assoc, List.take_append_drop]
    · intro gone dropped held taken
      refine ⟨fun _ => isOne held (List.mem_of_mem_take taken), fun same => ?_⟩
      rcases List.mem_append.mp dropped with late | other
      · exact not_newer_of_cut (sorted.filter _) cap late taken
      · rw [isOther gone other, isOne held (List.mem_of_mem_take taken)] at same
        cases same
  · have kept : keptEntries cap entries = priority ++ others.take (cap - priority.length) := if_neg enough
    rw [kept]
    refine ⟨?_, others.drop (cap - priority.length), ?_, ?_⟩
    · rw [List.length_append, List.length_take]
      omega
    · rwa [List.append_assoc, List.take_append_drop]
    · intro gone dropped held taken
      have other := isOther gone (List.mem_of_mem_drop dropped)
      refine ⟨fun one => absurd (one.symm.trans other) (by decide), fun same => ?_⟩
      rcases List.mem_append.mp taken with one | early
      · rw [other, isOne held one] at same
        cases same
      · exact not_newer_of_cut (sorted.filter _) _ dropped early

/-! ## Runs -/

variable (runtime) in
/-- A compaction takes the entry out of the list. -/
def Prunes (entry : ProjectWisdomEntry) (step : WisdomRecord) : Prop :=
  (∃ maxEntries, step.request = .compact maxEntries) ∧ entry ∈ listProjectWisdom runtime step.before ∧
    entry ∉ listProjectWisdom runtime step.after

variable (runtime) in
/-- An entry whose add returned is listed by every later read, until a compaction prunes it; compactions are fair. -/
structure WisdomKept (steps : List WisdomRecord) : Prop where
  durable : ∀ front middle back adding reading entry, steps = front ++ adding :: (middle ++ reading :: back) →
    adding.response = .added entry → reading.request = .list none → (∀ step ∈ middle, ¬Prunes runtime entry step) →
    ∃ entries, reading.response = .listed entries ∧ entry ∈ entries
  fair : ∀ step ∈ steps, ∀ maxEntries, step.request = .compact maxEntries →
    FairCompaction runtime (maxEntries.getD DEFAULT_MAX_ENTRIES) (listProjectWisdom runtime step.before)
      (listProjectWisdom runtime step.after)

/-- An add that returns finds the file at the end of a line. -/
def AddsToLines (step : WisdomRecord) : Prop :=
  (∃ entry, step.response = .added entry) → LineEnded (step.before.getD [])

variable (runtime) in
/-- The clock gives a time that the schema takes. -/
def WisdomCall.Timed : WisdomCall → Prop
  | .add _ _ now _ => runtime.isDatetime now = true
  | _ => True

variable (runtime) in
/-- The entry stands on a line that has come to its end. -/
def OnWholeLine (entry : ProjectWisdomEntry) (file : WisdomFile) : Prop :=
  ∃ front back, file.getD [] = front ++ back ∧ LineEnded front ∧ entry ∈ wisdomEntriesOf runtime front

theorem OnWholeLine.listed (holds : OnWholeLine runtime entry file) : entry ∈ listProjectWisdom runtime file := by
  obtain ⟨front, back, whole, ended, member⟩ := holds
  refine (List.mem_insertionSort _).mpr ?_
  rw [whole, wisdomEntriesOf_append ended]
  exact List.mem_append_left _ member

theorem OnWholeLine.append (holds : OnWholeLine runtime entry file) (text : List Char) :
    OnWholeLine runtime entry (appendFile text file) := by
  obtain ⟨front, back, whole, ended, member⟩ := holds
  exact ⟨front, back ++ text, by simp [appendFile, whole], ended, member⟩

theorem wisdomEntry_valid {input : AddProjectWisdomInput} {nanoid now : String}
    (made : wisdomEntry input nanoid now = .ok entry) (timed : runtime.isDatetime now = true) :
    entry.valid runtime = true := by
  unfold wisdomEntry at made
  split at made
  · cases made
  · split_ifs at made with blank long
    cases made
    have filled : input.content ≠ "" := by
      rintro empty
      rw [empty] at blank
      exact blank rfl
    simp [ProjectWisdomEntry.valid, timed, filled, Nat.le_of_not_lt long]

theorem holds_of_added {call : WisdomCall} (timed : call.Timed runtime)
    (added : (serveWisdom runtime call file).1 = .added entry) (ended : LineEnded (file.getD [])) :
    OnWholeLine runtime entry (serveWisdom runtime call file).2 := by
  cases call with
  | add input nanoid now cut =>
    simp only [serveWisdom] at added ⊢
    split at added
    · cases added
    · rename_i made
      cases added
      refine ⟨file.getD [] ++ line entry.toJson, [], (List.append_nil _).symm, line_ended _ _, ?_⟩
      rw [wisdomEntriesOf_append ended, wisdomEntriesOf_line (wisdomEntry_valid made timed)]
      exact List.mem_append_right _ (List.mem_singleton_self _)
    · cases added
  | compact maxEntries => cases added
  | list maxEntries => cases added

variable [Std.TransCmp runtime.localeCompare]

theorem sortWisdom_sorted (entries : List ProjectWisdomEntry) :
    (sortWisdom runtime entries).Pairwise (newestFirst runtime) := by
  have total : Std.Total (newestFirst runtime) :=
    ⟨fun _ _ => or_iff_not_imp_left.mpr fun later => Ordering.isLE_of_eq_lt (Std.OrientedCmp.lt_of_not_isLE later)⟩
  have trans : IsTrans ProjectWisdomEntry (newestFirst runtime) :=
    ⟨fun _ _ _ first second => Std.TransCmp.isLE_trans second first⟩
  exact List.pairwise_insertionSort _ _

theorem compacted_cases (maxEntries : Option Nat) (file : WisdomFile) :
    let entries := listProjectWisdom runtime file
    let cap := maxEntries.getD DEFAULT_MAX_ENTRIES
    (entries.length ≤ cap ∧ compactProjectWisdom runtime maxEntries file = file) ∨
      (cap < entries.length ∧ ∃ text, compactProjectWisdom runtime maxEntries file = some text ∧ LineEnded text ∧
        (wisdomEntriesOf runtime text).Perm (keptEntries cap entries)) := by
  intro entries cap
  by_cases stays : file = none ∨ entries.length ≤ cap
  · refine .inl ⟨?_, if_pos stays⟩
    rcases stays with rfl | few
    · exact Nat.zero_le cap
    · exact few
  · have many := Nat.lt_of_not_le (not_or.mp stays).2
    have listed : ∀ entry ∈ keptEntries cap entries, entry ∈ entries := by
      obtain ⟨_, _, all, _⟩ := keptEntries_fair (sortWisdom_sorted _) many
      exact fun entry member => all.subset (List.mem_append_left _ member)
    have perm : (sortWisdom runtime (keptEntries cap entries)).reverse.Perm (keptEntries cap entries) :=
      (List.reverse_perm _).trans (List.perm_insertionSort _ _)
    obtain ⟨ended, read⟩ := @wisdomEntriesOf_wisdomLines runtime _ fun entry member =>
      valid_of_listed ((List.mem_insertionSort _).mp (listed entry (perm.subset member)))
    exact .inr ⟨many, _, if_neg stays, ended, by rwa [read]⟩

theorem compacted_fair (maxEntries : Option Nat) (file : WisdomFile) :
    FairCompaction runtime (maxEntries.getD DEFAULT_MAX_ENTRIES) (listProjectWisdom runtime file)
      (listProjectWisdom runtime (compactProjectWisdom runtime maxEntries file)) := by
  rcases @compacted_cases runtime _ maxEntries file with ⟨few, same⟩ | ⟨many, text, written, _, read⟩
  · exact ⟨fun _ => by rw [same], fun many => absurd few (Nat.not_le_of_lt many)⟩
  · have after : (listProjectWisdom runtime (some text)).Perm _ := (List.perm_insertionSort _ _).trans read
    obtain ⟨count, dropped, all, fair⟩ := keptEntries_fair (sortWisdom_sorted _) many
    rw [written]
    refine ⟨fun few => absurd few (Nat.not_le_of_lt many), fun _ => ⟨after.length_eq.trans count, dropped,
      (after.append_right dropped).trans all, fun gone lost kept held => fair gone lost kept (after.subset held)⟩⟩

/-- Appends, whole or cut, leave the lines before them, and a compaction ends every line it writes. -/
theorem OnWholeLine.serve (holds : OnWholeLine runtime entry file) {call : WisdomCall}
    (kept : ¬Prunes runtime entry (recordOf (serveWisdom runtime) call file)) :
    OnWholeLine runtime entry (serveWisdom runtime call file).2 := by
  cases call with
  | add input nanoid now cut =>
    simp only [serveWisdom]
    split
    · exact holds
    · exact holds.append _
    · exact holds.append _
  | compact maxEntries =>
    change OnWholeLine runtime entry (compactProjectWisdom runtime maxEntries file)
    rcases @compacted_cases runtime _ maxEntries file with ⟨_, same⟩ | ⟨_, text, written, ended, _⟩
    · rwa [same]
    · have stays : entry ∈ listProjectWisdom runtime (compactProjectWisdom runtime maxEntries file) := by
        by_contra gone
        exact kept ⟨⟨maxEntries, rfl⟩, holds.listed, gone⟩
      rw [written] at stays ⊢
      exact ⟨text, [], (List.append_nil _).symm, ended, (List.mem_insertionSort _).mp stays⟩
  | list maxEntries => exact holds

end

/-- In every run from a file that is not there, where each add that returns finds the file at the end of a line, an
    entry is listed until a compaction prunes it, and compactions are fair. -/
theorem wisdom_durable (runtime : WisdomRuntime) [Std.TransCmp runtime.localeCompare] (calls : List WisdomCall)
    (timed : ∀ call ∈ calls, call.Timed runtime)
    (atLines : ∀ step ∈ trace (serveWisdom runtime) calls none, AddsToLines step) :
    WisdomKept runtime (trace (serveWisdom runtime) calls none) where
  durable front middle back adding reading entry split added asked unpruned := by
    have inTrace : ∀ step ∈ front ++ adding :: (middle ++ reading :: back),
        step = recordOf (serveWisdom runtime) step.request step.before ∧ step.request ∈ calls ∧ AddsToLines step := by
      intro step member
      rw [← split] at member
      exact ⟨trace_step member, request_mem member, atLines step member⟩
    have first : OnWholeLine runtime entry adding.after := by
      obtain ⟨served, called, ended⟩ := inTrace adding (by simp)
      rw [served] at added ⊢
      exact holds_of_added (timed _ called) added (ended ⟨entry, by rw [served]; exact added⟩)
    have holds : OnWholeLine runtime entry reading.before := by
      refine trace_between split (fun step member before => ?_) first
      have served := (inTrace step (by simp [member])).1
      have kept := unpruned step member
      rw [served] at kept ⊢
      exact before.serve kept
    have served := (inTrace reading (by simp)).1
    refine ⟨listProjectWisdom runtime reading.before, ?_, holds.listed⟩
    rw [served, asked]
    rfl
  fair step member maxEntries asked := by
    have served := trace_step member
    rw [served, asked]
    exact compacted_fair maxEntries step.before

/-! ## Fixed runs -/

def newYear : String := "2026-01-01T00:00:00.000Z"

def newYearRuntime : WisdomRuntime where
  isDatetime text := text = newYear
  localeCompare := compare

def learning : AddProjectWisdomInput := { type := "pattern", content := "x" }

def tornRun : List WisdomCall := [.add learning "a" newYear (some 1), .add learning "b" newYear none, .list none]

theorem wisdom_durable_once : WisdomKept newYearRuntime
    (trace (serveWisdom newYearRuntime) [.add learning "b" newYear none, .list none] none) := by
  have ordered : Std.TransCmp newYearRuntime.localeCompare := inferInstanceAs (Std.TransCmp (compare (α := String)))
  refine wisdom_durable newYearRuntime _ (by simp [WisdomCall.Timed, newYearRuntime]) fun step member _ => ?_
  simp only [trace, List.mem_cons, List.not_mem_nil, or_false] at member
  rcases member with rfl | rfl
  · exact .inl rfl
  · exact line_ended [] _

theorem wisdomEntriesOf_opened (entry : ProjectWisdomEntry) :
    wisdomEntriesOf newYearRuntime ('\x7b' :: line entry.toJson) = [] := by
  obtain ⟨inside, ends⟩ := print_object entry
  have oneLine : '\n' ∉ '\x7b' :: entry.toJson.print := by
    simp only [List.mem_cons, not_or]
    exact ⟨by decide, fun member => absurd (Json.print_printable _ _ member) (by decide)⟩
  have whole : trim ('\x7b' :: entry.toJson.print) = '\x7b' :: entry.toJson.print := by
    rw [ends, ← List.cons_append, trim_object]
  have blank : parseWisdomLine newYearRuntime [] = none := rfl
  have unread : parseWisdomLine newYearRuntime ('\x7b' :: entry.toJson.print) = none := by
    rw [parseWisdomLine, whole, if_neg (by simp), ends]
    simp [Json.parse, Json.parseValue, Json.parseMembers, Json.skipBlanks, Json.isBlank]
  rw [wisdomEntriesOf, line, ← List.cons_append, List.splitOn_append_cons_self_of_not_mem oneLine, List.splitOn_nil,
    List.filterMap_cons, unread, List.filterMap_cons, blank, List.filterMap_nil]

theorem torn_line_loses : ¬WisdomKept newYearRuntime (trace (serveWisdom newYearRuntime) tornRun none) := by
  intro kept
  obtain ⟨entries, listed, member⟩ := kept.durable [_] [] [] _ _ _ rfl rfl rfl (fun _ none => nomatch none)
  have asked := WisdomResponse.listed.inj listed
  rw [← asked] at member
  have read := (List.mem_insertionSort _).mp member
  exact absurd (wisdomEntriesOf_opened _ ▸ read) (List.not_mem_nil)

end Advance.Storage
