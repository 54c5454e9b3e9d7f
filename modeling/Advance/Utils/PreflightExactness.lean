import Mathlib
import Advance.Utils.ToolArgPreflight

/-! # What the preflight accepts -/

namespace Advance.Utils

open Advance.JavaScript

/-! ## What is claimed -/

def Rejects (policy : PlaceholderFieldPolicy) (value : JsVal) : Prop :=
  (isBlankProvidedString value = true ∧ policy.blank = some .reject) ∨
    (isOmissionSentinel value = true ∧ policy.sentinels = some .reject) ∨
    (isEmptyArray value = true ∧ policy.emptyArray = some .reject) ∨
    (isZero value = true ∧ policy.zero = some .reject) ∨
    (policy.recordValuesBlank = some .reject ∧
      ∃ entries, value = .obj entries ∧ ∃ member ∈ entries, isBlankProvidedString member.2 = true)

section

variable (policies : FieldPolicyMap) (crossField : CrossFieldValidator) (argsSchema : ToolArgsSchema) (args : ToolArgs)

def normalizedArgs : ToolArgs := (applyFieldPolicies policies args).normalizedArgs

/-- A required field is not there. -/
def MissingField : Prop :=
  ∃ entry ∈ argsSchema, (normalizedArgs policies args).has entry.1 = false ∧
    (entry.2.safeParse (.own .undefined)).isSome = true

def RejectedField (entry : String × FieldSchema) (issues : List ZodIssue) : Prop :=
  entry ∈ argsSchema ∧ (normalizedArgs policies args).has entry.1 = true ∧
    ∃ filled, entry.2.safeParse ((normalizedArgs policies args).read entry.1) = some ⟨issues, filled⟩

def PolicyRejected : Prop :=
  ∃ entry ∈ policies, args.has entry.1 = true ∧ ∃ value, args.read entry.1 = .own value ∧ Rejects entry.2 value

structure Accepted : Prop where
  required : ¬MissingField policies argsSchema args
  parsed : ∀ entry issues, ¬RejectedField policies argsSchema args entry issues
  allowed : ¬PolicyRejected policies args
  consistent : crossField (normalizedArgs policies args) = []

/-- The preflight accepts exactly the accepted calls, and normalising again changes nothing. -/
structure PreflightExact : Prop where
  ok : (preflight policies crossField argsSchema (.obj args)).ok = true ↔ Accepted policies crossField argsSchema args
  stable : normalizedArgs policies (normalizedArgs policies args) = normalizedArgs policies args

end

mutual
def ZodIssue.silent : ZodIssue → Bool
  | .union errors => silentBranches errors
  | .single _ _ => false

def silentBranch : List ZodIssue → Bool
  | [] => true
  | nested :: rest => nested.silent && silentBranch rest

def silentBranches : List (List ZodIssue) → Bool
  | [] => true
  | branch :: rest => silentBranch branch && silentBranches rest
end

/-- Something that rejects the call is more than a union without an issue. -/
def Heard (policies : FieldPolicyMap) (crossField : CrossFieldValidator) (argsSchema : ToolArgsSchema)
    (args : ToolArgs) : Prop :=
  MissingField policies argsSchema args ∨ PolicyRejected policies args ∨
    crossField (normalizedArgs policies args) ≠ [] ∨
    ∃ entry issues, RejectedField policies argsSchema args entry issues ∧ ∃ issue ∈ issues, issue.silent = false

/-! ## Issues -/

mutual
theorem projectZodIssues_eq_nil (issue : ZodIssue) (field : String) :
    projectZodIssues issue field = [] ↔ issue.silent = true := by
  cases issue with
  | union errors =>
    rw [projectZodIssues, ZodIssue.silent]
    exact projectBranches_eq_nil errors field
  | single path message => simp [projectZodIssues, ZodIssue.silent]

theorem projectBranch_eq_nil (branch : List ZodIssue) (field : String) :
    projectBranch branch field = [] ↔ silentBranch branch = true := by
  cases branch with
  | nil => simp [projectBranch, silentBranch]
  | cons nested rest =>
    rw [projectBranch, silentBranch, List.append_eq_nil_iff, Bool.and_eq_true,
      projectZodIssues_eq_nil nested field, projectBranch_eq_nil rest field]

theorem projectBranches_eq_nil (errors : List (List ZodIssue)) (field : String) :
    projectBranches errors field = [] ↔ silentBranches errors = true := by
  cases errors with
  | nil => simp [projectBranches, silentBranches]
  | cons branch rest =>
    rw [projectBranches, silentBranches, List.append_eq_nil_iff, Bool.and_eq_true,
      projectBranch_eq_nil branch field, projectBranches_eq_nil rest field]
end

theorem addIssues_eq_nil (field : String) (invalid : List ToolArgPreflightIssue) (issues : List ZodIssue) :
    addIssues field invalid issues = [] ↔ invalid = [] ∧ ∀ issue ∈ issues, issue.silent = true := by
  induction issues generalizing invalid with
  | nil => simp [addIssues]
  | cons issue rest ih =>
    rw [addIssues, List.forall_mem_cons, ← projectZodIssues_eq_nil issue field]
    split
    next full =>
      -- A full report has an issue.
      have some : invalid ++ projectZodIssues issue field ≠ [] := by
        intro none
        rw [none] at full
        exact absurd full (by decide)
      refine iff_of_false some ?_
      rintro ⟨none, noIssue, -⟩
      exact some (by rw [none, noIssue]; rfl)
    next => rw [ih, List.append_eq_nil_iff, and_assoc]

theorem mapSet_ne_nil {α : Type*} (entries : List (String × α)) (key : String) (value : α) :
    mapSet entries key value ≠ [] := by
  unfold mapSet
  split
  next found =>
    intro none
    rw [List.map_eq_nil_iff.mp none] at found
    cases found
  next => exact List.append_ne_nil_of_right_ne_nil _ (List.cons_ne_nil _ _)

theorem dedupeIssues_eq_nil (invalid : List ToolArgPreflightIssue) : dedupeIssues invalid = [] ↔ invalid = [] := by
  constructor
  · intro none
    by_contra some
    obtain ⟨front, last, rfl⟩ := (List.eq_nil_or_concat' invalid).resolve_left some
    unfold dedupeIssues fromEntries at none
    rw [List.map_append, List.foldl_append, List.map_cons, List.map_nil, List.foldl_cons, List.foldl_nil,
      List.take_eq_nil_iff, List.map_eq_nil_iff] at none
    exact none.elim (by decide) (mapSet_ne_nil _ _ _)
  · rintro rfl
    rfl

/-! ## Normalisation -/

def omits (policy : PlaceholderFieldPolicy) (value : JsVal) : Bool :=
  (isBlankProvidedString value && policy.blank = some .omit) ||
    (isOmissionSentinel value && policy.sentinels = some .omit) ||
    (isEmptyArray value && policy.emptyArray = some .omit) || (isZero value && policy.zero = some .omit)

def omittedBy (args : ToolArgs) (entry : String × PlaceholderFieldPolicy) : Bool :=
  match args.read entry.1 with
  | .own value => args.has entry.1 && omits entry.2 value
  | .inherited _ => false

def omitted (policies : FieldPolicyMap) (args : ToolArgs) (field : String) : Bool :=
  policies.any fun entry => entry.1 = field && omittedBy args entry

section

variable {field message : String} {result : PolicyResult} {policies : FieldPolicyMap} {args : ToolArgs}

theorem placeholder_normalized (found : Bool) (action : Option PlaceholderPolicyAction) :
    (result.placeholder field found action message).normalizedArgs =
      result.normalizedArgs.filter fun entry => !(entry.1 = field && (found && action = some .omit)) := by
  unfold PolicyResult.placeholder
  cases found with
  | false => simp
  | true => rcases action with _ | _ | _ | _ <;> simp [ToolArgs.delete]

theorem placeholder_invalid (found : Bool) (action : Option PlaceholderPolicyAction) :
    (result.placeholder field found action message).invalid = [] ↔
      result.invalid = [] ∧ ¬(found = true ∧ action = some .reject) := by
  unfold PolicyResult.placeholder
  cases found with
  | false => simp
  | true => rcases action with _ | _ | _ | _ <;> simp

theorem applyOwn_placed (result : PolicyResult) (field : String) (policy : PlaceholderFieldPolicy) (value : JsVal) :
    ∃ first second third fourth placed,
      placed = (((result.placeholder field (isBlankProvidedString value) policy.blank first).placeholder field
        (isOmissionSentinel value) policy.sentinels second).placeholder field (isEmptyArray value) policy.emptyArray
        third).placeholder field (isZero value) policy.zero fourth ∧
      (result.applyOwn field policy value).normalizedArgs = placed.normalizedArgs ∧
      (result.applyOwn field policy value).invalid =
        placed.invalid ++ if policy.recordValuesBlank = some .reject then blankRecordValues field value else [] := by
  refine ⟨field ++ " must be a non-blank string.",
    field ++ " must reference a real change ID; omit it when there is no parent change.",
    field ++ " must not be an empty array; omit it when there are no entries.",
    field ++ " must be a positive number; omit it when there is no value.", _, rfl, ?_, ?_⟩
  · unfold PolicyResult.applyOwn
    dsimp only
    split <;> rfl
  · unfold PolicyResult.applyOwn
    dsimp only
    split
    · rfl
    · exact (List.append_nil _).symm

theorem applyOwn_normalized (policy : PlaceholderFieldPolicy) (value : JsVal) :
    (result.applyOwn field policy value).normalizedArgs =
      result.normalizedArgs.filter fun entry => !(entry.1 = field && omits policy value) := by
  obtain ⟨_, _, _, _, _, rfl, same, -⟩ := applyOwn_placed result field policy value
  rw [same, placeholder_normalized, placeholder_normalized, placeholder_normalized, placeholder_normalized,
    List.filter_filter, List.filter_filter, List.filter_filter]
  refine List.filter_congr fun entry _ => ?_
  unfold omits
  generalize (isBlankProvidedString value && decide (policy.blank = some .omit)) = blank
  generalize (isOmissionSentinel value && decide (policy.sentinels = some .omit)) = sentinel
  generalize (isEmptyArray value && decide (policy.emptyArray = some .omit)) = empty
  generalize (isZero value && decide (policy.zero = some .omit)) = zero
  cases decide (entry.1 = field) <;> cases blank <;> cases sentinel <;> cases empty <;> cases zero <;> rfl

theorem blankRecordValues_eq_nil (value : JsVal) : blankRecordValues field value = [] ↔
      ¬∃ entries, value = .obj entries ∧ ∃ member ∈ entries, isBlankProvidedString member.2 = true := by
  cases value with
  | obj entries => simp [blankRecordValues]
  | _ => simp [blankRecordValues]

theorem applyOwn_invalid (policy : PlaceholderFieldPolicy) (value : JsVal) :
    (result.applyOwn field policy value).invalid = [] ↔ result.invalid = [] ∧ ¬Rejects policy value := by
  obtain ⟨_, _, _, _, _, rfl, -, same⟩ := applyOwn_placed result field policy value
  rw [same, List.append_eq_nil_iff, placeholder_invalid, placeholder_invalid, placeholder_invalid,
    placeholder_invalid]
  have last : (if policy.recordValuesBlank = some .reject then blankRecordValues field value else []) = [] ↔
      ¬(policy.recordValuesBlank = some .reject ∧
        ∃ entries, value = .obj entries ∧ ∃ member ∈ entries, isBlankProvidedString member.2 = true) := by
    split
    next rejects => rw [blankRecordValues_eq_nil, and_iff_right rejects]
    next allows => exact iff_of_true rfl fun both => allows both.1
  rw [last]
  unfold Rejects
  rw [not_or, not_or, not_or, not_or, and_assoc, and_assoc, and_assoc, and_assoc]

theorem apply_normalized (entry : String × PlaceholderFieldPolicy) : (result.apply args entry).normalizedArgs =
      result.normalizedArgs.filter fun member => !(entry.1 = member.1 && omittedBy args entry) := by
  unfold PolicyResult.apply omittedBy
  split
  next here =>
    cases args.read entry.1 with
    | inherited name => simp
    | own value =>
      dsimp only
      rw [applyOwn_normalized, here]
      refine List.filter_congr fun member _ => ?_
      rw [Bool.true_and, decide_eq_decide.mpr (eq_comm (a := member.1) (b := entry.1))]
  next absent =>
    have gone : args.has entry.1 = false := Bool.eq_false_iff.mpr absent
    cases args.read entry.1 with
    | inherited name => simp
    | own value => simp [gone]

/-- Normalisation drops the members that a policy omits, and no others. -/
theorem normalizedArgs_eq (policies : FieldPolicyMap) (args : ToolArgs) :
    normalizedArgs policies args = args.filter fun member => !omitted policies args member.1 := by
  have folded : ∀ (policies : FieldPolicyMap) (result : PolicyResult),
      (policies.foldl (PolicyResult.apply args) result).normalizedArgs =
        result.normalizedArgs.filter fun member => !omitted policies args member.1 := by
    intro policies
    induction policies with
    | nil => simp [omitted]
    | cons entry policies ih =>
      intro result
      rw [List.foldl_cons, ih, apply_normalized, List.filter_filter]
      refine List.filter_congr fun member _ => ?_
      simp only [omitted, List.any_cons, Bool.not_or, Bool.and_comm]
  exact folded policies ⟨[], args⟩

theorem read_normalized (kept : omitted policies args field = false) :
    (normalizedArgs policies args).read field = args.read field := by
  have same : mapGet (normalizedArgs policies args) field = mapGet args field := by
    unfold mapGet
    rw [normalizedArgs_eq, List.find?_filter]
    congr 1
    congr 1
    funext member
    by_cases named : member.1 = field
    · simp [named, kept]
    · simp [named]
  unfold ToolArgs.read
  rw [same]

theorem has_normalized (kept : omitted policies args field = false) :
    (normalizedArgs policies args).has field = args.has field := by
  unfold ToolArgs.has
  rw [normalizedArgs_eq, List.any_filter]
  congr 2
  funext member
  by_cases named : member.1 = field
  · simp [named, kept]
  · simp [named]

theorem policies_invalid (policies : FieldPolicyMap) (args : ToolArgs) :
    (applyFieldPolicies policies args).invalid = [] ↔ ¬PolicyRejected policies args := by
  have step : ∀ (result : PolicyResult) (entry : String × PlaceholderFieldPolicy),
      (result.apply args entry).invalid = [] ↔ result.invalid = [] ∧
        ¬(args.has entry.1 = true ∧ ∃ value, args.read entry.1 = .own value ∧ Rejects entry.2 value) := by
    intro result entry
    unfold PolicyResult.apply
    split
    next here =>
      cases args.read entry.1 with
      | inherited name => simp
      | own value =>
        dsimp only
        rw [applyOwn_invalid]
        simp [here]
    next absent => simp [absent]
  have folded : ∀ (policies : FieldPolicyMap) (result : PolicyResult),
      (policies.foldl (PolicyResult.apply args) result).invalid = [] ↔
        result.invalid = [] ∧ ¬PolicyRejected policies args := by
    intro policies
    induction policies with
    | nil => simp [PolicyRejected]
    | cons entry policies ih =>
      intro result
      rw [List.foldl_cons, ih, step, and_assoc]
      unfold PolicyRejected
      rw [List.exists_mem_cons_iff, not_or]
  have whole := folded policies ⟨[], args⟩
  rwa [and_iff_right rfl] at whole

theorem normalizedArgs_stable (policies : FieldPolicyMap) (args : ToolArgs) :
    normalizedArgs policies (normalizedArgs policies args) = normalizedArgs policies args := by
  rw [normalizedArgs_eq policies (normalizedArgs policies args), List.filter_eq_self]
  intro member inside
  rw [normalizedArgs_eq] at inside
  have kept : omitted policies args member.1 = false := by simpa using (List.mem_filter.mp inside).2
  have again : omitted policies (normalizedArgs policies args) member.1 = omitted policies args member.1 := by
    unfold omitted
    refine List.any_congr rfl fun entry => ?_
    by_cases named : entry.1 = member.1
    · unfold omittedBy
      rw [named, read_normalized kept, has_normalized kept]
    · simp [named]
  rw [again, kept]
  rfl

end

/-! ## The decision -/

section

variable {policies : FieldPolicyMap} {crossField : CrossFieldValidator} {argsSchema : ToolArgsSchema} {args : ToolArgs}

theorem checkField_spec (normalized : ToolArgs) (report : FieldReport) (entry : String × FieldSchema) :
    ((report.checkField normalized entry).missing = [] ↔ report.missing = [] ∧
      ¬(normalized.has entry.1 = false ∧ (entry.2.safeParse (.own .undefined)).isSome = true)) ∧
    ((report.checkField normalized entry).invalid = [] ↔ report.invalid = [] ∧
      ¬∃ issues, (normalized.has entry.1 = true ∧ ∃ filled, entry.2.safeParse (normalized.read entry.1) =
        some ⟨issues, filled⟩) ∧ ∃ issue ∈ issues, issue.silent = false) := by
  unfold FieldReport.checkField
  cases here : normalized.has entry.1 with
  | false =>
    cases required : (entry.2.safeParse (.own .undefined)).isSome with
    | false => simp
    | true => simp
  | true =>
    cases parsed : entry.2.safeParse (normalized.read entry.1) with
    | none => simp
    | some issues =>
      refine ⟨by simp, ?_⟩
      simp only [Bool.not_true, Bool.false_eq_true, if_false, addIssues_eq_nil]
      refine and_congr_right fun _ => ?_
      constructor
      · rintro silent ⟨listed, ⟨-, filled, same⟩, issue, member, heard⟩
        rw [Option.some.inj same] at silent
        rw [silent issue member] at heard
        cases heard
      · intro none issue member
        by_contra heard
        exact none ⟨issues.1, ⟨trivial, issues.2, rfl⟩, issue, member, Bool.eq_false_iff.mpr heard⟩

theorem checkFields_spec (normalized : ToolArgs) (argsSchema : ToolArgsSchema) (report : FieldReport) :
    ((argsSchema.foldl (FieldReport.checkField normalized) report).missing = [] ↔ report.missing = [] ∧
      ¬∃ entry ∈ argsSchema, normalized.has entry.1 = false ∧ (entry.2.safeParse (.own .undefined)).isSome = true) ∧
    ((argsSchema.foldl (FieldReport.checkField normalized) report).invalid = [] ↔ report.invalid = [] ∧
      ¬∃ entry ∈ argsSchema, ∃ issues, (normalized.has entry.1 = true ∧ ∃ filled,
        entry.2.safeParse (normalized.read entry.1) = some ⟨issues, filled⟩) ∧
          ∃ issue ∈ issues, issue.silent = false) := by
  induction argsSchema generalizing report with
  | nil => simp
  | cons entry argsSchema ih =>
    obtain ⟨missing, invalid⟩ := ih (report.checkField normalized entry)
    obtain ⟨missingHere, invalidHere⟩ := checkField_spec normalized report entry
    rw [List.foldl_cons]
    constructor
    · rw [missing, missingHere, and_assoc, List.exists_mem_cons_iff, not_or]
    · rw [invalid, invalidHere, and_assoc, List.exists_mem_cons_iff, not_or]

/-- The preflight says no where something that rejects is heard. -/
theorem preflight_ok :
    (preflight policies crossField argsSchema (.obj args)).ok = true ↔ ¬Heard policies crossField argsSchema args := by
  have fields := checkFields_spec (normalizedArgs policies args) argsSchema
    ⟨[], (applyFieldPolicies policies args).invalid⟩
  have decided : (preflight policies crossField argsSchema (.obj args)).ok = true ↔
      (argsSchema.foldl (FieldReport.checkField (normalizedArgs policies args))
        ⟨[], (applyFieldPolicies policies args).invalid⟩).missing = [] ∧
      (argsSchema.foldl (FieldReport.checkField (normalizedArgs policies args))
        ⟨[], (applyFieldPolicies policies args).invalid⟩).invalid = [] ∧
      crossField (normalizedArgs policies args) = [] := by
    simp only [preflight, Bool.and_eq_true, List.isEmpty_iff, dedupeIssues_eq_nil, List.append_eq_nil_iff]
    rfl
  rw [decided, fields.1, fields.2, policies_invalid]
  unfold Heard MissingField RejectedField
  constructor
  · rintro ⟨⟨-, present⟩, ⟨allowed, silent⟩, consistent⟩
    rintro (missing | rejected | crossed | ⟨entry, issues, ⟨member, here, parsed⟩, heard⟩)
    · exact present missing
    · exact allowed rejected
    · exact crossed consistent
    · exact silent ⟨entry, member, issues, ⟨here, parsed⟩, heard⟩
  · intro unheard
    refine ⟨⟨rfl, fun missing => unheard (.inl missing)⟩, ⟨fun rejected => unheard (.inr (.inl rejected)), ?_⟩, ?_⟩
    · rintro ⟨entry, member, issues, ⟨here, parsed⟩, heard⟩
      exact unheard (.inr (.inr (.inr ⟨entry, issues, ⟨member, here, parsed⟩, heard⟩)))
    · by_contra crossed
      exact unheard (.inr (.inr (.inl crossed)))

theorem Accepted.unheard (accepted : Accepted policies crossField argsSchema args) :
    ¬Heard policies crossField argsSchema args := by
  rintro (missing | rejected | crossed | ⟨entry, issues, parsed, -⟩)
  · exact accepted.required missing
  · exact accepted.allowed rejected
  · exact crossed accepted.consistent
  · exact accepted.parsed entry issues parsed

end

/-- The preflight accepts exactly the accepted calls where a rejected field is rejected with an issue that is more than
    a union without one, or something else rejects the call too. -/
theorem preflight_exact_iff (policies : FieldPolicyMap) (crossField : CrossFieldValidator)
    (argsSchema : ToolArgsSchema) (args : ToolArgs) : PreflightExact policies crossField argsSchema args ↔
      ((∃ entry issues, RejectedField policies argsSchema args entry issues) →
        Heard policies crossField argsSchema args) := by
  constructor
  · rintro ⟨ok, -⟩ ⟨entry, issues, rejected⟩
    by_contra unheard
    exact (ok.mp (preflight_ok.mpr unheard)).parsed entry issues rejected
  · intro heard
    refine ⟨⟨fun ok => ?_, fun accepted => preflight_ok.mpr accepted.unheard⟩, normalizedArgs_stable policies args⟩
    have unheard := preflight_ok.mp ok
    refine ⟨fun missing => unheard (.inl missing), ?_, fun rejected => unheard (.inr (.inl rejected)), ?_⟩
    · exact fun entry issues rejected => unheard (heard ⟨entry, issues, rejected⟩)
    · by_contra crossed
      exact unheard (.inr (.inr (.inl crossed)))

/-! ## Fixed runs -/

def artifactRefSchema : FieldSchema where
  safeParse value :=
    match value with
    | .own (.obj entries) =>
      let text := fun key => match JsVal.lookup key entries with
        | .str "" => some ⟨[.single [key] "Too small: expected string to have >=1 characters"], List.cons_ne_nil _ _⟩
        | .str _ => none
        | _ => some ⟨[.single [key] "Invalid input: expected string"], List.cons_ne_nil _ _⟩
      match JsVal.lookup "kind" entries with
      | .str "pointer" => text "uri"
      | .str "none" => text "rationale"
      | _ => some ⟨[.union []], List.cons_ne_nil _ _⟩
    | _ => some ⟨[.single [] "Invalid input: expected object"], List.cons_ne_nil _ _⟩

/-- An artifact of no kind passes the preflight. -/
theorem unknown_kind_passes : ¬PreflightExact [] (fun _ => []) [("artifact", artifactRefSchema)]
      [("artifact", .obj [("kind", .str "link")])] := by
  rintro ⟨ok, -⟩
  have passes : (preflight [] (fun _ => []) [("artifact", artifactRefSchema)]
      (.obj [("artifact", .obj [("kind", .str "link")])])).ok = true := by rfl
  exact (ok.mp passes).parsed ("artifact", artifactRefSchema) [.union []]
    ⟨List.mem_cons_self, rfl, List.cons_ne_nil _ _, rfl⟩

end Advance.Utils
