import Advance.Storage.ChangeIds

/-! # The ids that summaries give

`changes.create` makes an id of the words of a summary and numbers it where a directory has it.
-/

namespace Advance.Storage

open Advance.Utils

/-! ## Valid ids -/

/-- `CHANGE_ID_PATTERN` -/
def matchesChangeIdPattern : List Char → Bool
  | [] => false
  | first :: rest => ('a' ≤ first && first ≤ 'z') && !rest.isEmpty && rest.all isWordCharacter

def MAX_CHANGE_ID_LENGTH : Nat := 64

def isValidChangeId (id : String) : Bool :=
  0 < id.length && id.length ≤ MAX_CHANGE_ID_LENGTH && matchesChangeIdPattern id.toList

/-- What a listing returns: an array has fewer than `2 ^ 32` elements. -/
structure DirectoryNames where
  names : List String
  bounded : names.length < 2 ^ 32

/-- The id of a summary is accepted, and so is what `changes.create` makes of it. -/
def GeneratesValid (summary : String) : Prop :=
  ∃ id, generateChangeId summary = some id ∧ isValidChangeId id = true ∧
    ∀ existing : DirectoryNames, isValidChangeId (freeId existing.names id) = true

/-! ## Words -/

/-- The words of an id: those that carry meaning, after the alias of the leading one. -/
def keptWords (first : List Char) (rest : List (List Char)) : List (List Char) :=
  match VERB_ALIASES.find? fun entry => entry.1.toList = lowerWord first with
  | some entry => effectiveWords true entry.2.toList rest
  | none => effectiveWords (ACTION_VERBS.any fun verb => verb.toList = lowerWord first) first rest

/-- The first word begins with a letter, and it is longer or the next one fits. -/
def leadsId : List (List Char) → Bool
  | (letter :: tail) :: rest =>
    letter.isAlpha && (!tail.isEmpty || (rest.head?.any fun next => next.length < MAX_ID_LENGTH))
  | _ => false

/-- A word is not empty and has letters and digits only. -/
structure Spelled (word : List Char) : Prop where
  nonempty : word ≠ []
  characters : ∀ c ∈ word, isWordCharacter c = true

theorem splitOnP_pieces {p : Char → Bool} {text piece : List Char} (member : piece ∈ text.splitOnP p) :
    ∀ c ∈ piece, p c = false := by
  induction text generalizing piece with
  | nil =>
    rw [List.splitOnP_nil, List.mem_singleton] at member
    subst member
    simp
  | cons first rest ih =>
    rw [List.splitOnP_cons_eq_if_modifyHead] at member
    split at member
    next =>
      rcases List.mem_cons.mp member with rfl | later
      · simp
      · exact ih later
    next kept =>
      cases pieces : rest.splitOnP p with
      | nil => exact absurd pieces (List.splitOnP_ne_nil p rest)
      | cons head tail =>
        rw [pieces, List.modifyHead_cons] at member
        rcases List.mem_cons.mp member with rfl | later
        · intro c inside
          rcases List.mem_cons.mp inside with rfl | further
          · exact Bool.eq_false_iff.mpr kept
          · exact ih (pieces ▸ List.mem_cons_self) c further
        · exact ih (pieces ▸ List.mem_cons_of_mem _ later)

variable {word : List Char}

theorem summaryWords_spelled {summary : String} (member : word ∈ summaryWords summary) : Spelled word := by
  obtain ⟨piece, filled⟩ := List.mem_filter.mp member
  refine ⟨by simpa using filled, fun c inside => ?_⟩
  have kept := splitOnP_pieces piece c inside
  simpa using kept

theorem effectiveWords_eq (keepFirst : Bool) (first : List Char) (rest : List (List Char)) :
    effectiveWords keepFirst first rest = first :: rest ∨
      effectiveWords keepFirst first rest ≠ [] ∧ effectiveWords keepFirst first rest =
        (if keepFirst || !isStopWord first then [first] else []) ++ rest.filter fun word => !isStopWord word := by
  unfold effectiveWords
  generalize (if keepFirst || !isStopWord first then [first] else []) ++
    rest.filter (fun word => !isStopWord word) = filtered
  cases filtered with
  | nil => exact .inl rfl
  | cons word words => exact .inr ⟨List.cons_ne_nil word words, rfl⟩

theorem effectiveWords_mem {keepFirst : Bool} {first word : List Char} {rest : List (List Char)}
    (member : word ∈ effectiveWords keepFirst first rest) : word ∈ first :: rest := by
  rcases effectiveWords_eq keepFirst first rest with all | ⟨-, some⟩
  · rw [all] at member
    exact member
  · rw [some] at member
    rcases List.mem_append.mp member with leading | later
    · split at leading
      next =>
        rw [List.mem_singleton.mp leading]
        exact List.mem_cons_self
      next => simp at leading
    · exact List.mem_cons_of_mem _ (List.mem_filter.mp later).1

theorem effectiveWords_ne_nil (keepFirst : Bool) (first : List Char) (rest : List (List Char)) :
    effectiveWords keepFirst first rest ≠ [] := by
  rcases effectiveWords_eq keepFirst first rest with all | ⟨some, -⟩
  · rw [all]
    exact List.cons_ne_nil first rest
  · exact some

theorem alias_spelled {entry : String × String} (member : entry ∈ VERB_ALIASES) : Spelled entry.2.toList := by
  have aliases : ∀ listed ∈ VERB_ALIASES, listed.2 = "add" := by simp [VERB_ALIASES]
  have spelling : "add".toList = ['a', 'd', 'd'] := rfl
  rw [aliases entry member, spelling]
  refine ⟨List.cons_ne_nil _ _, fun c inside => ?_⟩
  simp only [List.mem_cons, List.not_mem_nil, or_false] at inside
  rcases inside with rfl | rfl | rfl <;> rfl

section

variable {first word : List Char} {rest : List (List Char)}

theorem keptWords_spelled (words : ∀ word ∈ first :: rest, Spelled word) (member : word ∈ keptWords first rest) :
    Spelled word := by
  unfold keptWords at member
  split at member
  next entry found =>
    rcases List.mem_cons.mp (effectiveWords_mem member) with rfl | later
    · exact alias_spelled (List.mem_of_find?_eq_some found)
    · exact words word (List.mem_cons_of_mem _ later)
  next => exact words word (effectiveWords_mem member)

theorem keptWords_ne_nil (first : List Char) (rest : List (List Char)) : keptWords first rest ≠ [] := by
  unfold keptWords
  split <;> exact effectiveWords_ne_nil _ _ _

theorem generateChangeId_words {summary : String} (words : summaryWords summary = first :: rest)
    (named : lowerWord first ≠ "constructor".toList) :
    generateChangeId summary = some (String.ofList (camelCase (keptWords first rest))) := by
  unfold generateChangeId keptWords
  rw [words]
  simp only [if_neg named]
  cases VERB_ALIASES.find? fun entry => entry.1.toList = lowerWord first with
  | none => rfl
  | some entry => rfl

end

/-! ## Letters -/

variable {c : Char}

theorem wordCharacter_ascii (spelled : isWordCharacter c = true) : c.toNat < 128 := by
  simp only [isWordCharacter, Bool.or_eq_true, Bool.and_eq_true, decide_eq_true_eq, Char.le_def,
    UInt32.le_iff_toNat_le] at spelled
  have small : ∀ last : Char, last.toNat < 128 → c.val.toNat ≤ last.val.toNat → c.toNat < 128 :=
    fun last below within => Nat.lt_of_le_of_lt within below
  rcases spelled with (⟨-, within⟩ | ⟨-, within⟩) | ⟨-, within⟩
  · exact small 'z' (by decide) within
  · exact small 'Z' (by decide) within
  · exact small '9' (by decide) within

theorem wordCharacter_checked {p : Char → Prop} (spelled : isWordCharacter c = true)
    (checked : ∀ n < 128, isWordCharacter (Char.ofNat n) = true → p (Char.ofNat n)) : p c := by
  have checkedHere := checked c.toNat (wordCharacter_ascii spelled)
  rw [Char.ofNat_toNat] at checkedHere
  exact checkedHere spelled

theorem isAlpha_lower (spelled : isWordCharacter c = true) :
    (decide ('a' ≤ c.toLower) && decide (c.toLower ≤ 'z')) = c.isAlpha :=
  wordCharacter_checked (p := fun c => (decide ('a' ≤ c.toLower) && decide (c.toLower ≤ 'z')) = c.isAlpha)
    spelled (by decide)

theorem toLower_spelled (spelled : isWordCharacter c = true) : isWordCharacter c.toLower = true :=
  wordCharacter_checked (p := fun c => isWordCharacter c.toLower = true) spelled (by decide)

theorem toUpper_spelled (spelled : isWordCharacter c = true) : isWordCharacter c.toUpper = true :=
  wordCharacter_checked (p := fun c => isWordCharacter c.toUpper = true) spelled (by decide)

theorem lowerWord_spelled (spelled : ∀ c ∈ word, isWordCharacter c = true) :
    ∀ c ∈ lowerWord word, isWordCharacter c = true := by
  intro c inside
  obtain ⟨origin, member, rfl⟩ := List.mem_map.mp inside
  exact toLower_spelled (spelled origin member)

theorem capitalWord_spelled (spelled : ∀ c ∈ word, isWordCharacter c = true) :
    ∀ c ∈ capitalWord word, isWordCharacter c = true := by
  intro c inside
  cases word with
  | nil => simp [capitalWord] at inside
  | cons first rest =>
    rcases List.mem_cons.mp inside with rfl | later
    · exact toUpper_spelled (spelled first List.mem_cons_self)
    · exact lowerWord_spelled (fun other member => spelled other (List.mem_cons_of_mem _ member)) c later

@[simp] theorem lowerWord_length (word : List Char) : (lowerWord word).length = word.length :=
  List.length_map _

@[simp] theorem capitalWord_length (word : List Char) : (capitalWord word).length = word.length := by
  cases word with
  | nil => rfl
  | cons first rest => simp [capitalWord]

/-! ## The id of the words -/

section

variable {first : List Char} {rest : List (List Char)}

theorem appendWords_extends {result : List Char} {words : List (List Char)} (fits : result.length ≤ MAX_ID_LENGTH)
    (spelled : ∀ word ∈ words, ∀ c ∈ word, isWordCharacter c = true) :
    ∃ more, appendWords result words = result ++ more ∧ (result ++ more).length ≤ MAX_ID_LENGTH ∧
      ∀ c ∈ more, isWordCharacter c = true := by
  induction words generalizing result with
  | nil => exact ⟨[], (List.append_nil result).symm, by simpa using fits, by simp⟩
  | cons word words ih =>
    unfold appendWords
    split
    next => exact ⟨[], (List.append_nil result).symm, by simpa using fits, by simp⟩
    next within =>
      have longer : (result ++ word).length ≤ MAX_ID_LENGTH := by
        rw [List.length_append]
        exact Nat.le_of_not_lt within
      obtain ⟨more, same, short, letters⟩ := ih longer fun next member => spelled next (List.mem_cons_of_mem _ member)
      refine ⟨word ++ more, by rw [same, List.append_assoc], by rw [← List.append_assoc]; exact short, ?_⟩
      intro c inside
      rcases List.mem_append.mp inside with here | later
      · exact spelled word List.mem_cons_self c here
      · exact letters c later

theorem camelCase_long (long : MAX_ID_LENGTH < first.length) :
    camelCase (first :: rest) = (lowerWord first).take MAX_ID_LENGTH := by
  have stops : appendWords [] (lowerWord first :: rest.map capitalWord) = [] := by
    simp [appendWords, long]
  simp [camelCase, stops]

theorem camelCase_short (filled : first ≠ []) (short : first.length ≤ MAX_ID_LENGTH)
    (spelled : ∀ word ∈ rest, ∀ c ∈ word, isWordCharacter c = true) :
    camelCase (first :: rest) = appendWords (lowerWord first) (rest.map capitalWord) := by
  have starts : appendWords [] (lowerWord first :: rest.map capitalWord) =
      appendWords (lowerWord first) (rest.map capitalWord) := by
    simp [appendWords, Nat.not_lt.mpr short]
  have capitals : ∀ word ∈ rest.map capitalWord, ∀ c ∈ word, isWordCharacter c = true := by
    intro word member
    obtain ⟨origin, inside, rfl⟩ := List.mem_map.mp member
    exact capitalWord_spelled (spelled origin inside)
  obtain ⟨more, same, -, -⟩ := appendWords_extends ((lowerWord_length first).trans_le short) capitals
  have some : (lowerWord first ++ more).isEmpty = false := by
    cases first with
    | nil => exact absurd rfl filled
    | cons letter tail => rfl
  simp only [camelCase, starts, same, some, Bool.false_eq_true, if_false]

theorem camelCase_letter {letter : Char} (spelled : ∀ word ∈ rest, Spelled word) :
    ∃ more, camelCase ([letter] :: rest) = letter.toLower :: more ∧ more.length < MAX_ID_LENGTH ∧
      (∀ c ∈ more, isWordCharacter c = true) ∧
      (more ≠ [] ↔ rest.head?.any (fun next => next.length < MAX_ID_LENGTH) = true) := by
  have letters : ∀ word ∈ rest, ∀ c ∈ word, isWordCharacter c = true :=
    fun word member => (spelled word member).characters
  have single : [letter].length ≤ MAX_ID_LENGTH := Nat.le_add_left 1 29
  rw [camelCase_short (List.cons_ne_nil letter []) single letters]
  cases rest with
  | nil => exact ⟨[], rfl, by decide, by simp, by simp⟩
  | cons next others =>
    by_cases fits : next.length < MAX_ID_LENGTH
    · have longer : ([letter.toLower] ++ capitalWord next).length ≤ MAX_ID_LENGTH := by
        simp only [List.length_append, List.length_singleton, capitalWord_length]
        omega
      have capitals : ∀ word ∈ others.map capitalWord, ∀ c ∈ word, isWordCharacter c = true := by
        intro word member
        obtain ⟨origin, inside, rfl⟩ := List.mem_map.mp member
        exact capitalWord_spelled (letters origin (List.mem_cons_of_mem _ inside))
      obtain ⟨more, same, short, spelledMore⟩ := appendWords_extends longer capitals
      have step : appendWords (lowerWord [letter]) ((next :: others).map capitalWord) =
          letter.toLower :: (capitalWord next ++ more) := by
        have within : ¬MAX_ID_LENGTH < (lowerWord [letter]).length + (capitalWord next).length := by
          simp only [lowerWord_length, capitalWord_length, List.length_singleton]
          omega
        rw [List.map_cons, appendWords, if_neg within]
        exact same.trans (by simp)
      refine ⟨capitalWord next ++ more, step, ?_, ?_, ?_⟩
      · simp only [List.length_append, List.length_singleton] at short ⊢
        omega
      · intro c inside
        rcases List.mem_append.mp inside with here | later
        · exact capitalWord_spelled (letters next List.mem_cons_self) c here
        · exact spelledMore c later
      · have filled : capitalWord next ≠ [] := by
          rw [← List.length_pos_iff_ne_nil, capitalWord_length, List.length_pos_iff_ne_nil]
          exact (spelled next List.mem_cons_self).nonempty
        simp [filled, fits]
    · have stops : appendWords (lowerWord [letter]) ((next :: others).map capitalWord) = [letter.toLower] := by
        have beyond : MAX_ID_LENGTH < (lowerWord [letter]).length + (capitalWord next).length := by
          simp only [lowerWord_length, capitalWord_length, List.length_singleton]
          omega
        rw [List.map_cons, appendWords, if_pos beyond]
        rfl
      exact ⟨[], stops, by decide, by simp, by simp [fits]⟩

theorem camelCase_longer {letter second : Char} {tail : List Char}
    (spelled : ∀ word ∈ (letter :: second :: tail) :: rest, Spelled word) :
    ∃ more, camelCase ((letter :: second :: tail) :: rest) = letter.toLower :: second.toLower :: more ∧
      more.length + 1 < MAX_ID_LENGTH ∧ (∀ c ∈ second.toLower :: more, isWordCharacter c = true) := by
  have lowered := lowerWord_spelled (spelled _ List.mem_cons_self).characters
  by_cases long : MAX_ID_LENGTH < (letter :: second :: tail).length
  · refine ⟨(lowerWord tail).take 28, camelCase_long long, ?_, ?_⟩
    · rw [List.length_take]
      exact Nat.lt_of_le_of_lt (Nat.add_le_add_right (Nat.min_le_left _ _) 1) (by decide)
    · intro c inside
      refine lowered c (List.mem_cons_of_mem _ ?_)
      rcases List.mem_cons.mp inside with rfl | later
      · exact List.mem_cons_self
      · exact List.mem_cons_of_mem _ (List.mem_of_mem_take later)
  · have letters : ∀ word ∈ rest, ∀ c ∈ word, isWordCharacter c = true :=
      fun word member => (spelled word (List.mem_cons_of_mem _ member)).characters
    have capitals : ∀ word ∈ rest.map capitalWord, ∀ c ∈ word, isWordCharacter c = true := by
      intro word member
      obtain ⟨origin, inside, rfl⟩ := List.mem_map.mp member
      exact capitalWord_spelled (letters origin inside)
    obtain ⟨more, same, short, spelledMore⟩ :=
      appendWords_extends ((lowerWord_length (letter :: second :: tail)).trans_le (Nat.le_of_not_lt long)) capitals
    refine ⟨lowerWord tail ++ more, ?_, ?_, ?_⟩
    · rw [camelCase_short (List.cons_ne_nil _ _) (Nat.le_of_not_lt long) letters, same]
      rfl
    · simp only [List.length_append, lowerWord_length, List.length_cons] at short ⊢
      omega
    · intro c inside
      rw [← List.cons_append] at inside
      rcases List.mem_append.mp inside with here | later
      · exact lowered c (List.mem_cons_of_mem _ here)
      · exact spelledMore c later

end

/-! ## Which ids are accepted -/

theorem isValidChangeId_ofList {text : List Char} (short : text.length ≤ MAX_CHANGE_ID_LENGTH) :
    isValidChangeId (String.ofList text) = matchesChangeIdPattern text := by
  unfold isValidChangeId
  rw [String.length_ofList, String.toList_ofList]
  cases text with
  | nil => rfl
  | cons first rest =>
    rw [decide_eq_true short, decide_eq_true (List.length_pos_of_ne_nil (List.cons_ne_nil first rest))]
    rfl

theorem camelCase_valid {words : List (List Char)} (spelled : ∀ word ∈ words, Spelled word) (some : words ≠ []) :
    isValidChangeId (String.ofList (camelCase words)) = leadsId words ∧ (camelCase words).length ≤ MAX_ID_LENGTH := by
  rcases words with _ | ⟨_ | ⟨letter, _ | ⟨second, tail⟩⟩, rest⟩
  · exact absurd rfl some
  · exact absurd rfl (spelled [] List.mem_cons_self).nonempty
  · obtain ⟨more, same, short, letters, further⟩ :=
      camelCase_letter fun word member => spelled word (List.mem_cons_of_mem _ member)
    have alpha := isAlpha_lower ((spelled [letter] List.mem_cons_self).characters letter List.mem_cons_self)
    have length : (letter.toLower :: more).length ≤ MAX_ID_LENGTH := short
    rw [same, isValidChangeId_ofList (length.trans (by decide))]
    refine ⟨?_, length⟩
    have every : more.all isWordCharacter = true := List.all_eq_true.mpr letters
    have next : (!more.isEmpty) = rest.head?.any fun next => decide (next.length < MAX_ID_LENGTH) := by
      rw [Bool.eq_iff_iff, ← further]
      simp
    simp only [matchesChangeIdPattern, leadsId, alpha, every, next, List.isEmpty_nil, Bool.not_true, Bool.false_or,
      Bool.and_true]
  · obtain ⟨more, same, short, letters⟩ := camelCase_longer spelled
    have alpha := isAlpha_lower
      ((spelled (letter :: second :: tail) List.mem_cons_self).characters letter List.mem_cons_self)
    have length : (letter.toLower :: second.toLower :: more).length ≤ MAX_ID_LENGTH := short
    rw [same, isValidChangeId_ofList (length.trans (by decide))]
    refine ⟨?_, length⟩
    have every : (second.toLower :: more).all isWordCharacter = true := List.all_eq_true.mpr letters
    simp only [matchesChangeIdPattern, leadsId, alpha, every, List.isEmpty_cons, Bool.not_false, Bool.true_or,
      Bool.and_true]

/-! ## Numbered ids -/

theorem firstFree_candidate (existing : List String) (baseId : String) (fuel tries : Nat) :
    ∃ number ≤ tries + fuel, firstFree existing baseId fuel tries = idCandidate baseId number := by
  induction fuel generalizing tries with
  | zero => exact ⟨tries, Nat.le_refl _, rfl⟩
  | succ fuel ih =>
    unfold firstFree
    split
    next =>
      obtain ⟨number, within, same⟩ := ih (tries + 1)
      exact ⟨number, by omega, same⟩
    next => exact ⟨tries, by omega, rfl⟩

theorem numbered_valid {id : String} {number : Nat} (valid : isValidChangeId id = true)
    (short : id.length ≤ MAX_ID_LENGTH) (bounded : number < 2 ^ 32 + 1) :
    isValidChangeId (idCandidate id number) = true := by
  unfold idCandidate
  split
  next => exact valid
  next =>
    have digits : (number + 1).repr.length ≤ 10 :=
      (Nat.length_repr_le_iff (by decide)).mpr (by omega)
    have letters : ∀ c ∈ (number + 1).repr.toList, isWordCharacter c = true := by
      intro c inside
      have digit : c.isDigit = true := by
        rw [Nat.repr_eq_ofList_toDigits, String.toList_ofList] at inside
        exact Nat.isDigit_of_mem_toDigits (by decide) (by decide) inside
      simp only [Char.isDigit, Bool.and_eq_true, decide_eq_true_eq] at digit
      simp only [isWordCharacter, Bool.or_eq_true, Bool.and_eq_true, decide_eq_true_eq]
      exact .inr digit
    unfold isValidChangeId at valid ⊢
    simp only [Bool.and_eq_true, decide_eq_true_eq] at valid ⊢
    obtain ⟨⟨some, -⟩, pattern⟩ := valid
    refine ⟨⟨?_, ?_⟩, ?_⟩
    · rw [String.length_append]
      omega
    · rw [String.length_append]
      simp only [MAX_ID_LENGTH, MAX_CHANGE_ID_LENGTH] at short ⊢
      omega
    · rw [String.toList_append]
      cases text : id.toList with
      | nil =>
        rw [text] at pattern
        simp [matchesChangeIdPattern] at pattern
      | cons first rest =>
        rw [text] at pattern
        simp only [matchesChangeIdPattern, Bool.and_eq_true, List.cons_append] at pattern ⊢
        obtain ⟨⟨lower, filled⟩, every⟩ := pattern
        refine ⟨⟨lower, ?_⟩, ?_⟩
        · cases rest with
          | nil => simp at filled
          | cons second tail => rfl
        · rw [List.all_append, every, Bool.true_and]
          exact List.all_eq_true.mpr letters

theorem freeId_valid {id : String} (valid : isValidChangeId id = true) (short : id.length ≤ MAX_ID_LENGTH)
    (existing : DirectoryNames) : isValidChangeId (freeId existing.names id) = true := by
  obtain ⟨number, within, same⟩ := firstFree_candidate existing.names id existing.names.length 0
  have bounded := existing.bounded
  unfold freeId
  rw [same]
  exact numbered_valid valid short (by omega)

/-! ## What is claimed -/

/-- The id of a summary and what `changes.create` makes of it are accepted, unless the leading word is `constructor` or
    the words kept do not lead an id. -/
theorem generated_valid_iff (summary : String) : GeneratesValid summary ↔
      ∀ first rest, summaryWords summary = first :: rest →
        lowerWord first ≠ "constructor".toList ∧ leadsId (keptWords first rest) = true := by
  cases words : summaryWords summary with
  | nil =>
    have generated : generateChangeId summary = some "change" := by
      unfold generateChangeId
      rw [words]
    refine ⟨fun _ first rest listed => absurd listed (List.cons_ne_nil first rest).symm, fun _ => ?_⟩
    refine ⟨"change", generated, by rfl, ?_⟩
    exact freeId_valid (by rfl) (by decide)
  | cons first rest =>
    have spelled : ∀ word ∈ first :: rest, Spelled word := fun word member =>
      summaryWords_spelled (words ▸ member)
    obtain ⟨accepted, short⟩ :=
      camelCase_valid (fun _ => keptWords_spelled spelled) (keptWords_ne_nil first rest)
    constructor
    · rintro ⟨id, generated, valid, -⟩ first' rest' listed
      obtain ⟨rfl, rfl⟩ := List.cons.inj listed
      have named : lowerWord first ≠ "constructor".toList := by
        intro same
        unfold generateChangeId at generated
        rw [words] at generated
        simp only [if_pos same] at generated
        cases generated
      rw [generateChangeId_words words named] at generated
      rw [← Option.some.inj generated, accepted] at valid
      exact ⟨named, valid⟩
    · intro leads
      obtain ⟨named, leading⟩ := leads first rest rfl
      refine ⟨_, generateChangeId_words words named, accepted.trans leading, ?_⟩
      exact freeId_valid (accepted.trans leading) (by rw [String.length_ofList]; exact short)

/-! ## Fixed runs -/

/-- The id of "2FA login" begins with a digit. -/
theorem digit_refused : ¬GeneratesValid "2FA login" := by
  rintro ⟨id, generated, valid, -⟩
  have same : generateChangeId "2FA login" = some "2faLogin" := by rfl
  rw [same] at generated
  rw [← Option.some.inj generated] at valid
  have refused : isValidChangeId "2faLogin" = false := by rfl
  rw [refused] at valid
  cases valid

end Advance.Storage
