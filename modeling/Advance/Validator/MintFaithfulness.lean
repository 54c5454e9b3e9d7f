import Advance.Validator.ContractMint

/-! # What is minted

The obligations of an agreement, said by the places of its lines, and the items that minting makes
of them.
-/

namespace Advance.Validator

open Advance.Foundation Advance.JavaScript Advance.Types
open Pattern CodeUnit RegExp

/-! ## Obligations -/

/-- An obligation line with the kind of item it states. -/
structure Obligation where
  line : Text
  parsed : ParsedObligation
  mapping : SectionContractMapping

/-- The kind that the label of an obligation names. -/
def ParsedObligation.ownMapping (parsed : ParsedObligation) : Option SectionContractMapping :=
  parsed.label.bind mappingForLabel

/-- The kind of the section below the lines: that of the nearest heading in them. -/
def sectionBelow (above : List Text) : Option SectionContractMapping :=
  (above.reverse.find? isHeading).bind mappingForHeading

/-- The obligation of a line: a list item with the label of a kind, or in the section of one. -/
def obligationOf (above : List Text) (line : Text) : Option Obligation :=
  (parseObligationLine line).bind fun parsed =>
    (parsed.ownMapping <|> sectionBelow above).map fun mapping => ⟨line, parsed, mapping⟩

/-- The obligations of an agreement, in the order of its lines. -/
def obligationsOf (lines : List Text) : List Obligation :=
  (List.range lines.length).filterMap fun place =>
    (lines[place]?).bind (obligationOf (lines.take place))

def kindPrefix : ContractItemKind → String
  | .success_criterion => "SC"
  | .acceptance_criterion => "AC"
  | .constraint => "C"
  | .avoidance => "DONT"
  | .out_of_scope => "OOS"

def ContractItemVariant.clauses : ContractItemVariant → List Text
  | .behavioral context trigger outcome boundaries => context :: trigger :: outcome :: boundaries
  | .evidence subject method source => subject :: (method.toList ++ source.toList)
  | .spec_law spec requirement => [spec, requirement]
  | .constraint obligation scope => obligation :: scope.toList

def IsClauseOf (text clause : Text) : Prop := ∃ part, part <:+: text ∧ clause = normalizeClause part

/-- The item of an obligation. Its text is a part of the agreement where the line declares no
    warrant, and else what is left of the line when the tag is cut out and the spaces are
    collapsed, with every other unit kept. -/
structure StatedBy (agreement : Text) (obligation : Obligation) (item : MintedItem) : Prop where
  kind : item.kind = obligation.mapping.kind
  labelled : obligation.parsed.ownMapping.isSome → obligation.parsed.label = some item.id
  plain : WARRANT_TAG.search true obligation.parsed.text = none →
    item.text = Text.trim obligation.parsed.text ∧ item.text <:+: agreement
  tagged : ∀ before tag, WARRANT_TAG.search true obligation.parsed.text = some (before, tag) →
    before ++ tag.taken ++ tag.rest <:+: agreement ∧ item.text = Text.trim (collapseSpaces (before ++ tag.rest)) ∧
      item.text.filter (fun unit => !isSpace unit) = (before ++ tag.rest).filter fun unit => !isSpace unit

/-! ## Headings and list items -/

variable {line : Text}

theorem isHeading_head (heading : isHeading line = true) : ∃ rest, line = 35 :: rest := by
  obtain ⟨way, leads⟩ := Option.isSome_iff_exists.mp heading
  obtain ⟨front, inFront, back, inBack, rfl⟩ := mem_ways_andThen.mp (mem_of_leading leads)
  obtain ⟨whole, all, least, -, -⟩ := mem_ways_many.mp inFront
  cases taken : front.taken with
  | nil => simp [taken] at least
  | cons c rest =>
    have sign : c = 35 := by simpa using all c (by simp [taken])
    exact ⟨rest ++ front.rest, by rw [← whole, taken, sign]; rfl⟩

theorem not_space_sign : isSpace 35 = false := by decide

theorem not_listMarker_sign {start : Bool} {rest : Text} {way : Way UInt16} :
    way ∉ listMarker.ways start (35 :: rest) := by
  intro member
  rcases mem_ways_either.mp member with bullet | numbered
  · obtain ⟨front, inFront, -⟩ := mem_ways_andThen.mp bullet
    obtain ⟨c, accepted, same, -⟩ := mem_ways_unit.mp inFront
    obtain rfl := (List.cons.inj same).1
    exact absurd accepted (by decide)
  · obtain ⟨front, inFront, -⟩ := mem_ways_andThen.mp numbered
    obtain ⟨whole, all, least, -⟩ := mem_ways_many.mp inFront
    cases taken : front.taken with
    | nil => simp [taken] at least
    | cons c others =>
      rw [taken] at whole
      obtain rfl := (List.cons.inj whole).1
      exact absurd (all 35 (by simp [taken])) (by decide)

theorem parseObligationLine_heading (heading : isHeading line = true) : parseObligationLine line = none := by
  obtain ⟨rest, rfl⟩ := isHeading_head heading
  have noBullet : bulletLine.leading (35 :: rest) = none := by
    rw [Option.eq_none_iff_forall_not_mem]
    intro way leads
    obtain ⟨front, inFront, back, inBack, -⟩ := mem_ways_andThen.mp (mem_of_leading leads)
    obtain ⟨whole, all, -⟩ := mem_ways_many.mp inFront
    -- the spaces before the marker are none, as a heading begins with its sign
    have unspaced : front.taken = [] := by
      cases taken : front.taken with
      | nil => rfl
      | cons c others =>
        rw [taken] at whole
        obtain rfl := (List.cons.inj whole).1
        exact absurd (all 35 (by simp [taken])) (by simp [not_space_sign])
    rw [unspaced, List.nil_append] at whole
    rw [whole] at inBack
    obtain ⟨marker, inMarker, -⟩ := mem_ways_andThen.mp inBack
    exact not_listMarker_sign inMarker
  rw [parseObligationLine, noBullet]

variable {mapping : SectionContractMapping}

theorem isHeading_of_mapping (named : mappingForHeading line = some mapping) : isHeading line = true := by
  unfold mappingForHeading normalizeHeading at named
  cases leads : (inTurn [numberSigns 2 6, someSpaces, bodyToEnd]).leading line with
  | none => simp [leads] at named
  | some way =>
    obtain ⟨front, inFront, back, inBack, -⟩ := mem_ways_andThen.mp (mem_of_leading leads)
    obtain ⟨middle, inMiddle, -⟩ := mem_ways_andThen.mp inBack
    obtain ⟨whole, all, least, most, -⟩ := mem_ways_many.mp inFront
    have signs : front ∈ (numberSigns 1 6).ways true line :=
      mem_ways_many.mpr ⟨whole, all, by omega, most, (mem_ways_many.mp inFront).2.2.2.2⟩
    have both := mem_ways_andThen.mpr ⟨front, signs, middle, inMiddle, rfl⟩
    rw [isHeading, leading, Option.isSome_iff_ne_none, ne_eq, List.head?_eq_none_iff]
    exact List.ne_nil_of_mem both

/-! ## Labels -/

theorem parseObligationLine_some {parsed : ParsedObligation} (read : parseObligationLine line = some parsed) :
    parsed.text <:+: line ∧ ∀ label ∈ parsed.label, label.map upper = label := by
  unfold parseObligationLine at read
  cases leads : bulletLine.leading line with
  | none => simp [leads] at read
  | some bullet =>
    have bodyInfix : Text.trim (bullet.group 0) <:+: line :=
      (Text.trim_infix _).trans (group_within (mem_of_leading leads) 0)
    simp only [leads] at read
    split at read
    · cases read
    split at read
    next labeled labelLeads =>
      obtain rfl := Option.some.inj read
      refine ⟨?_, ?_⟩
      · exact ((Text.trim_infix _).trans (group_within (mem_of_leading labelLeads) 1)).trans bodyInfix
      · rintro label ⟨⟩
        rw [List.map_map]
        exact List.map_congr_left fun unit _ => upper_upper unit
    next =>
      obtain rfl := Option.some.inj read
      exact ⟨bodyInfix, nofun⟩

variable {text : Text}

theorem mappingFor_some {mappings : List (Pattern UInt16 × SectionContractMapping)}
    (found : mappingFor mappings text = some mapping) :
    ∃ pattern, (pattern, mapping) ∈ mappings ∧ ∃ way, way ∈ pattern.ways true text := by
  obtain ⟨⟨pattern, own⟩, first, rfl⟩ := Option.map_eq_some_iff.mp found
  have taken : (pattern.leading text).isSome = true := by simpa using List.find?_some first
  obtain ⟨way, leads⟩ := Option.isSome_iff_exists.mp taken
  exact ⟨pattern, List.mem_of_find?_eq_some first, way, mem_of_leading leads⟩

theorem fallbackPrefix_of_mem {pattern : Pattern UInt16} (member : (pattern, mapping) ∈ SECTION_MAPPINGS) :
    mapping.fallbackPrefix = kindPrefix mapping.kind ∧
      (units mapping.fallbackPrefix).map upper = units mapping.fallbackPrefix := by
  have all : ∀ mapping ∈ SECTION_MAPPINGS.map Prod.snd, mapping.fallbackPrefix = kindPrefix mapping.kind ∧
      (units mapping.fallbackPrefix).map upper = units mapping.fallbackPrefix := by decide
  exact all mapping (List.mem_map_of_mem member)

theorem mappingForHeading_prefix
    (named : mappingForHeading line = some mapping) : mapping.fallbackPrefix = kindPrefix mapping.kind := by
  unfold mappingForHeading at named
  split at named
  · cases named
  split at named
  · cases named
  obtain ⟨pattern, member, -⟩ := mappingFor_some named
  exact (fallbackPrefix_of_mem member).1

theorem eq_of_sameLetter {own other : Text}
    (same : List.Forall₂ (fun own other => sameLetter own other = true) own other)
    (ownUpper : own.map upper = own) (otherUpper : other.map upper = other) : own = other := by
  induction same with
  | nil => rfl
  | cons matched _ ih =>
    obtain ⟨ownHead, ownTail⟩ := List.cons.inj ownUpper
    obtain ⟨otherHead, otherTail⟩ := List.cons.inj otherUpper
    have head : upper _ = upper _ := of_decide_eq_true matched
    rw [← ownHead, ← otherHead, head, ih ownTail otherTail]

theorem mappingForLabel_prefix {label : Text}
    (upperCase : label.map upper = label) (named : mappingForLabel label = some mapping) :
    mapping.fallbackPrefix = kindPrefix mapping.kind ∧ units mapping.fallbackPrefix <+: label := by
  obtain ⟨pattern, member, way, inPattern⟩ := mappingFor_some named
  obtain ⟨⟨heading, own⟩, inSections, same⟩ := List.mem_map.mp member
  obtain ⟨rfl, rfl⟩ := Prod.mk.inj same
  obtain ⟨ofKind, upperPrefix⟩ := fallbackPrefix_of_mem inSections
  obtain ⟨front, inFront, -⟩ := mem_ways_andThen.mp inPattern
  have whole := ways_append inFront
  have upperTaken : front.taken.map upper = front.taken := by
    rw [← whole, List.map_append] at upperCase
    exact (List.append_inj upperCase (List.length_map _)).1
  have taken := eq_of_sameLetter (word_taken inFront) upperPrefix upperTaken
  refine ⟨ofKind, ?_⟩
  rw [taken, ← whole]
  exact List.prefix_append _ _

/-! ## Clauses -/

theorem isClauseOf_normalize {text part : Text} (inside : part <:+: text) :
    IsClauseOf text (normalizeClause part) := ⟨part, inside, rfl⟩

theorem IsClauseOf.mono {text body clause : Text} (clauseOf : IsClauseOf body clause) (inside : body <:+: text) :
    IsClauseOf text clause := by
  obtain ⟨part, inBody, rfl⟩ := clauseOf
  exact ⟨part, inBody.trans inside, rfl⟩

theorem splitAtFirst_infix {platform : MintPlatform} {body before after : Text} {separators : List String}
    {separator : String} (split : splitAtFirst platform body separators = some (separator, before, after)) :
    before <:+: body ∧ after <:+: body := by
  induction separators with
  | nil => cases split
  | cons first others ih =>
    rw [splitAtFirst] at split
    split at split
    next idx found =>
      obtain ⟨-, rfl, rfl⟩ := by simpa using split
      exact ⟨(List.take_prefix _ _).isInfix, (List.drop_suffix _ _).isInfix⟩
    next => exact ih split

theorem bodyAfterMarker_infix {marker : String} {text body : Text} (marked : bodyAfterMarker marker text = some body) :
    body <:+: text := by
  obtain ⟨way, leads, rfl⟩ := Option.map_eq_some_iff.mp marked
  have whole := ways_append (mem_of_leading leads)
  have rest : way.rest <:+: text := whole ▸ (List.suffix_append _ _).isInfix
  exact (Text.trim_infix _).trans rest

variable {variant : ContractItemVariant}

section

variable {platform : MintPlatform}
include platform

theorem tryParseBehavioralVariant_clauses (typed : tryParseBehavioralVariant platform text = .variant variant) :
    ∀ clause ∈ variant.clauses, IsClauseOf text clause := by
  unfold tryParseBehavioralVariant behavioralIncomplete at typed
  simp only at typed
  split at typed
  · cases typed
  split at typed
  · cases typed
  next whenIdx thenIdx _ _ =>
    split at typed
    · cases typed
    split at typed
    · cases typed
    next outcome boundaries parts =>
      split at typed
      · cases typed
      cases typed
      intro clause member
      have fromParts : ∀ part ∈ outcome :: boundaries, IsClauseOf text part := by
        intro part inParts
        rw [← parts] at inParts
        obtain ⟨piece, inCut, rfl⟩ := List.mem_map.mp inParts
        exact isClauseOf_normalize ((cut_within inCut).trans (List.drop_suffix _ _).isInfix)
      rcases List.mem_cons.mp member with rfl | later
      · exact isClauseOf_normalize (Text.slice_infix _ _ _)
      rcases List.mem_cons.mp later with rfl | later
      · exact isClauseOf_normalize (Text.slice_infix _ _ _)
      · exact fromParts clause later
  next => cases typed

theorem tryParseEvidenceVariant_clauses (typed : tryParseEvidenceVariant platform text = .variant variant) :
    ∀ clause ∈ variant.clauses, IsClauseOf text clause := by
  unfold tryParseEvidenceVariant at typed
  split at typed
  · cases typed
  next body marked =>
    have inText := bodyAfterMarker_infix marked
    split at typed
    · cases typed
    split at typed
    next separator subject rest found =>
      obtain ⟨inSubject, inRest⟩ := splitAtFirst_infix found
      have both : ∀ clause ∈ [normalizeClause subject, normalizeClause rest], IsClauseOf text clause := by
        intro clause member
        rcases List.mem_cons.mp member with rfl | later
        · exact isClauseOf_normalize (inSubject.trans inText)
        · obtain rfl := List.mem_singleton.mp later
          exact isClauseOf_normalize (inRest.trans inText)
      split at typed
      · cases typed
        exact both
      · cases typed
        exact both
    next => cases typed

theorem tryParseSpecLawVariant_clauses (typed : tryParseSpecLawVariant platform text = .variant variant) :
    ∀ clause ∈ variant.clauses, IsClauseOf text clause := by
  unfold tryParseSpecLawVariant at typed
  split at typed
  · cases typed
  next body marked =>
    have inText := bodyAfterMarker_infix marked
    split at typed
    · cases typed
    split at typed
    next separator spec requirement found =>
      obtain ⟨inSpec, inRequirement⟩ := splitAtFirst_infix found
      split at typed
      · cases typed
      · cases typed
        intro clause member
        rcases List.mem_cons.mp member with rfl | later
        · exact isClauseOf_normalize (inSpec.trans inText)
        · obtain rfl := List.mem_singleton.mp later
          exact isClauseOf_normalize (inRequirement.trans inText)
    next => cases typed

theorem tryParseConstraintVariant_clauses {kind : ContractItemKind}
    (typed : tryParseConstraintVariant platform text kind = .variant variant) :
    ∀ clause ∈ variant.clauses, IsClauseOf text clause := by
  unfold tryParseConstraintVariant at typed
  simp only at typed
  split at typed
  · cases typed
  split at typed
  · cases typed
  split at typed
  next separator obligation scope found =>
    obtain ⟨inObligation, inScope⟩ := splitAtFirst_infix found
    cases typed
    intro clause member
    rcases List.mem_cons.mp member with rfl | later
    · exact isClauseOf_normalize inObligation
    · split at later
      · cases later
      · obtain rfl := List.mem_singleton.mp later
        exact isClauseOf_normalize inScope
  next =>
    cases typed
    intro clause member
    obtain rfl := List.mem_singleton.mp member
    exact isClauseOf_normalize (List.infix_refl _)

end

theorem orElse_variant {first second : VariantParseResult}
    (typed : first.orElse second = .variant variant) : first = .variant variant ∨ second = .variant variant := by
  cases first with
  | untyped => exact .inr typed
  | variant own => exact .inl typed
  | error message => cases typed

theorem tryParseVariant_clauses {platform : MintPlatform} {kind : ContractItemKind}
    (typed : tryParseVariant platform text kind = .variant variant) :
    ∀ clause ∈ variant.clauses, IsClauseOf text clause := by
  rcases orElse_variant typed with evidence | typed
  · exact tryParseEvidenceVariant_clauses evidence
  rcases orElse_variant typed with specLaw | typed
  · exact tryParseSpecLawVariant_clauses specLaw
  rcases orElse_variant typed with behavioral | constraint
  · exact tryParseBehavioralVariant_clauses behavioral
  · exact tryParseConstraintVariant_clauses constraint

/-! ## The obligations of the lines so far -/

theorem sectionBelow_snoc (above : List Text) (line : Text) :
    sectionBelow (above ++ [line]) = if isHeading line then mappingForHeading line else sectionBelow above := by
  rw [sectionBelow, List.reverse_append, List.reverse_singleton, List.singleton_append, List.find?_cons]
  cases heading : isHeading line with
  | true => rfl
  | false => rfl

theorem obligationsOf_snoc (lines : List Text) (line : Text) :
    obligationsOf (lines ++ [line]) = obligationsOf lines ++ (obligationOf lines line).toList := by
  rw [obligationsOf, List.length_append, List.length_singleton, List.range_succ, List.filterMap_append]
  congr 1
  · refine List.filterMap_congr fun place member => ?_
    have inside := List.mem_range.mp member
    rw [List.getElem?_append_left inside, List.take_append_of_le_length inside.le]
  · rw [List.filterMap_cons, List.getElem?_concat_length, List.take_left, Option.bind_some]
    cases obligationOf lines line <;> rfl

variable {platform : MintPlatform} {warrantLookup : Option WarrantLookup} {contentHash agreement : Text}

/-- What holds of the state of the loop after some lines. -/
structure MintedSoFar (agreement : Text) (lines : List Text) (state : MintState platform) : Prop where
  mapping : state.currentMapping = sectionBelow lines
  stated : List.Forall₂ (StatedBy agreement) (obligationsOf lines) state.items
  seen : state.seenIds = state.items.map MintedItem.id
  distinct : state.seenIds.Nodup
  prefixed : ∀ item ∈ state.items, units (kindPrefix item.kind) <+: item.id
  clauses : ∀ item ∈ state.items, ∀ variant ∈ item.variant, ∀ clause ∈ variant.clauses, IsClauseOf item.text clause

variable {state next : MintState platform} {ownLabel : Option Text}

theorem mintObligation_ok {obligationText : Text}
    (minted : mintObligation platform warrantLookup contentHash state mapping ownLabel obligationText = .ok next) :
    ∃ warrant variant, parseWarrantTag obligationText = .ok warrant ∧
      (∀ typed ∈ variant, tryParseVariant platform warrant.text mapping.kind = .variant typed) ∧
      (identify platform state.fallbackCounts mapping ownLabel).1 ∉ state.seenIds ∧
      next = { state with
        fallbackCounts := (identify platform state.fallbackCounts mapping ownLabel).2
        seenIds := state.seenIds ++ [(identify platform state.fallbackCounts mapping ownLabel).1]
        items := state.items ++
          [mintedItem contentHash (identify platform state.fallbackCounts mapping ownLabel).1 warrant.text
            warrant.refs mapping variant] } := by
  unfold mintObligation at minted
  split at minted
  · cases minted
  next warrant parsed =>
    simp only at minted
    split at minted
    · cases minted
    next fresh =>
      split at minted
      · cases minted
      split at minted
      · cases minted
      · obtain rfl := Except.ok.inj minted
        exact ⟨warrant, none, parsed, nofun, fresh, rfl⟩
      next typed isTyped =>
        obtain rfl := Except.ok.inj minted
        refine ⟨warrant, some typed, parsed, ?_, fresh, rfl⟩
        rintro _ ⟨⟩
        exact isTyped

theorem identify_prefix {counts : List (String × platform.Count)}
    (ofKind : mapping.fallbackPrefix = kindPrefix mapping.kind)
    (labelled : ∀ label ∈ ownLabel, units mapping.fallbackPrefix <+: label) :
    units (kindPrefix mapping.kind) <+: (identify platform counts mapping ownLabel).1 := by
  rw [← ofKind]
  cases ownLabel with
  | none => exact List.prefix_append _ _
  | some label => exact labelled label rfl

variable {lines : List Text}

theorem mintObligation_keeps {parsed : ParsedObligation}
    (kept : MintedSoFar agreement lines state) (inside : line <:+: agreement)
    (read : parseObligationLine line = some parsed) (obliged : obligationOf lines line = some ⟨line, parsed, mapping⟩)
    (unheaded : isHeading line = false) (ofKind : mapping.fallbackPrefix = kindPrefix mapping.kind)
    (labelled : ∀ label ∈ ownLabel, units mapping.fallbackPrefix <+: label)
    (own : parsed.ownMapping.isSome → ∃ label, parsed.label = some label ∧ ownLabel = some label)
    (minted : mintObligation platform warrantLookup contentHash state mapping ownLabel parsed.text = .ok next) :
    MintedSoFar agreement (lines ++ [line]) next := by
  obtain ⟨warrant, variant, tag, typed, fresh, rfl⟩ := mintObligation_ok minted
  have inAgreement : parsed.text <:+: agreement := (parseObligationLine_some read).1.trans inside
  refine ⟨?_, ?_, ?_, ?_, ?_, ?_⟩
  · rw [sectionBelow_snoc, unheaded]
    exact kept.mapping
  · rw [obligationsOf_snoc, obliged]
    refine List.rel_append kept.stated (.cons ⟨rfl, ?_, ?_, ?_⟩ .nil)
    · intro named
      obtain ⟨label, isLabel, rfl⟩ := own named
      exact isLabel
    · intro plain
      have text := parseWarrantTag_plain tag plain
      refine ⟨text, ?_⟩
      show warrant.text <:+: agreement
      rw [text]
      exact (Text.trim_infix _).trans inAgreement
    · intro before found tagged
      have text := parseWarrantTag_tagged tag tagged
      refine ⟨?_, text, ?_⟩
      · rw [(search_eq_some tagged).1]
        exact inAgreement
      · show warrant.text.filter _ = _
        rw [text, Text.trim_filter, collapseSpaces_filter]
  · rw [kept.seen, List.map_append]
    rfl
  · exact List.nodup_append.mpr ⟨kept.distinct, List.nodup_singleton _, by grind⟩
  · intro item member
    rcases List.mem_append.mp member with before | new
    · exact kept.prefixed item before
    · obtain rfl := List.mem_singleton.mp new
      exact identify_prefix ofKind labelled
  · intro item member
    rcases List.mem_append.mp member with before | new
    · exact kept.clauses item before
    · obtain rfl := List.mem_singleton.mp new
      exact fun own isOwn => tryParseVariant_clauses (typed own isOwn)

theorem MintedSoFar.skip {state : MintState platform}
    {currentMapping : Option SectionContractMapping} (kept : MintedSoFar agreement lines state)
    (idle : obligationOf lines line = none) (mapping : currentMapping = sectionBelow (lines ++ [line])) :
    MintedSoFar agreement (lines ++ [line]) { state with currentMapping := currentMapping } := by
  refine ⟨mapping, ?_, kept.seen, kept.distinct, kept.prefixed, kept.clauses⟩
  rw [obligationsOf_snoc, idle, Option.toList_none, List.append_nil]
  exact kept.stated

theorem sectionBelow_begins
    (below : sectionBelow lines = some mapping) : mapping.fallbackPrefix = kindPrefix mapping.kind := by
  obtain ⟨line, -, named⟩ := Option.bind_eq_some_iff.mp below
  exact mappingForHeading_prefix named

/-- One turn of the loop. -/
theorem mintLine_keeps (kept : MintedSoFar agreement lines state) (inside : line <:+: agreement)
    (turn : mintLine platform warrantLookup contentHash state line = .ok next) :
    MintedSoFar agreement (lines ++ [line]) next := by
  rw [mintLine] at turn
  cases named : mappingForHeading line with
  | some mapping =>
    have heading := isHeading_of_mapping named
    rw [named] at turn
    obtain rfl := Except.ok.inj turn
    refine kept.skip ?_ ?_
    · rw [obligationOf, parseObligationLine_heading heading]
      rfl
    · rw [sectionBelow_snoc, heading, if_pos rfl, named]
  | none =>
    simp only [named] at turn
    cases heading : isHeading line with
    | true =>
      simp only [heading, if_true] at turn
      obtain rfl := Except.ok.inj turn
      refine kept.skip ?_ ?_
      · rw [obligationOf, parseObligationLine_heading heading]
        rfl
      · rw [sectionBelow_snoc, heading, if_pos rfl, named]
    | false =>
      have sameSection : sectionBelow (lines ++ [line]) = state.currentMapping := by
        rw [sectionBelow_snoc, heading, kept.mapping]
        rfl
      simp only [heading, Bool.false_eq_true, if_false] at turn
      cases read : parseObligationLine line with
      | none =>
        simp only [read] at turn
        obtain rfl := Except.ok.inj turn
        refine kept.skip ?_ sameSection.symm
        rw [obligationOf, read]
        rfl
      | some parsed =>
        simp only [read] at turn
        split at turn
        next label mapping isLabel isOwn =>
          -- the label names the kind
          obtain ⟨ofKind, isPrefix⟩ :=
            mappingForLabel_prefix ((parseObligationLine_some read).2 label isLabel) (by rwa [isLabel] at isOwn)
          refine mintObligation_keeps kept inside read ?_ heading ofKind ?_ ?_ turn
          · have own : parsed.ownMapping = some mapping := isOwn
            rw [obligationOf, read, Option.bind_some, own]
            rfl
          · rintro _ ⟨⟩
            exact isPrefix
          · exact fun _ => ⟨label, isLabel, rfl⟩
        next unnamed =>
          have noOwn : parsed.ownMapping = none := by
            cases own : parsed.ownMapping with
            | none => rfl
            | some mapping =>
              obtain ⟨label, isLabel, -⟩ := Option.bind_eq_some_iff.mp own
              exact absurd own (unnamed label mapping isLabel)
          split at turn
          next mapping current =>
            -- the section names the kind
            have inSection : sectionBelow lines = some mapping := kept.mapping ▸ current
            refine mintObligation_keeps kept inside read ?_ heading (sectionBelow_begins inSection) ?_ ?_ turn
            · rw [obligationOf, read, Option.bind_some, noOwn, inSection]
              rfl
            · rintro _ ⟨⟩
            · intro named
              rw [noOwn] at named
              cases named
          next current =>
            obtain rfl := Except.ok.inj turn
            refine kept.skip ?_ sameSection.symm
            rw [obligationOf, read, Option.bind_some, noOwn, ← kept.mapping, current]
            rfl

theorem mintLines_keep {state : MintState platform} (inside : ∀ line ∈ lines, line <:+: agreement)
    (run : lines.foldlM (mintLine platform warrantLookup contentHash) ⟨none, [], [], []⟩ = .ok state) :
    MintedSoFar agreement lines state := by
  induction lines using List.reverseRecOn generalizing state with
  | nil =>
    obtain rfl := Except.ok.inj run
    exact ⟨rfl, .nil, rfl, List.nodup_nil, by simp, by simp⟩
  | append_singleton lines line ih =>
    rw [List.foldlM_append] at run
    cases before : lines.foldlM (mintLine platform warrantLookup contentHash) ⟨none, [], [], []⟩ with
    | error error =>
      rw [before] at run
      cases run
    | ok middle =>
      have kept := ih (fun other member => inside other (List.mem_append_left _ member)) before
      rw [before] at run
      cases turn : mintLine platform warrantLookup contentHash middle line with
      | error error => simp [turn, bind, Except.bind] at run
      | ok next =>
        obtain rfl : next = state := by simpa [turn, bind, Except.bind, pure, Except.pure] using run
        exact mintLine_keeps kept (inside line (by simp)) turn

theorem buildContractFromAgreement_ok {input : BuildContractFromAgreementInput} {contract : MintedContract}
    (minted : buildContractFromAgreement platform input = .ok contract) :
    ∃ state, (agreementLines input.agreement).foldlM
        (mintLine platform input.warrantLookup (platform.sha256 input.agreement)) ⟨none, [], [], []⟩ = .ok state ∧
      contract.items = state.items := by
  unfold buildContractFromAgreement at minted
  split at minted
  · cases minted
  simp only at minted
  split at minted
  · cases minted
  next state run =>
    split at minted
    · cases minted
    unfold parseContract at minted
    split at minted
    · obtain rfl := Except.ok.inj minted
      exact ⟨state, run, rfl⟩
    · cases minted

/-- Of every contract that is minted: no two items have one id, each id begins with the prefix of
    its kind, the items are those of the obligations of the agreement one by one and in the order
    of its lines, and every clause of a variant is a part of the item's text, normalised. -/
theorem mint_faithful (platform : MintPlatform) (input : BuildContractFromAgreementInput)
    (contract : MintedContract) (minted : buildContractFromAgreement platform input = .ok contract) :
    (contract.items.map MintedItem.id).Nodup ∧ (∀ item ∈ contract.items, units (kindPrefix item.kind) <+: item.id) ∧
      List.Forall₂ (StatedBy input.agreement) (obligationsOf (agreementLines input.agreement)) contract.items ∧
      ∀ item ∈ contract.items, ∀ variant ∈ item.variant, ∀ clause ∈ variant.clauses, IsClauseOf item.text clause := by
  obtain ⟨state, run, items⟩ := buildContractFromAgreement_ok minted
  have kept := mintLines_keep (fun line member => cut_within member) run
  rw [items]
  exact ⟨kept.seen ▸ kept.distinct, kept.prefixed, kept.stated, kept.clauses⟩

/-! ## Fixed runs -/

def mintFixture (digest : String) : MintPlatform where
  Count := Nat
  zero := 0
  plusOne := Nat.succ
  max := Nat.max
  parseInt := fun text => text.foldl (fun value unit => 10 * value + (unit.toNat - 48)) 0
  isFinite := fun _ => true
  countText := fun count => units (toString count)
  toLowerCase := fun text => text.map fun unit => if isUpper unit then unit + 32 else unit
  sha256 := fun _ => units digest
  isInvalidDate := fun _ => false

def twoConstraints : BuildContractFromAgreementInput where
  agreement := units "## Constraints\n- must hold\n- C2: stay"
  approvedAt := units "2026-05-21T05:21:11Z"
  rigor := none
  warrantLookup := none

def twoConstraintsDigest : String := "e23797869fb097438117a2371044f9ae2a26af7f25031abec99dd9e2875a97fc"

def twoConstraintsContract : MintedContract where
  rigor := .standard
  source := ⟨units twoConstraintsDigest, units "2026-05-21T05:21:11Z"⟩
  items :=
    [{ id := units "C1", kind := .constraint, text := units "must hold"
       sourceHash := units twoConstraintsDigest, verificationRequired := true, evidencePolicy := .static_check
       status := .approved, notRequiredReason := none, warrants := none
       variant := some (.constraint (units "must hold") none) },
     { id := units "C2", kind := .constraint, text := units "stay"
       sourceHash := units twoConstraintsDigest, verificationRequired := true, evidencePolicy := .static_check
       status := .approved, notRequiredReason := none, warrants := none, variant := none }]

theorem twoConstraints_minted :
    buildContractFromAgreement (mintFixture twoConstraintsDigest) twoConstraints = .ok twoConstraintsContract := by
  rfl

theorem two_constraints_faithful : (twoConstraintsContract.items.map MintedItem.id).Nodup ∧
      (∀ item ∈ twoConstraintsContract.items, units (kindPrefix item.kind) <+: item.id) ∧
      List.Forall₂ (StatedBy twoConstraints.agreement)
        (obligationsOf (agreementLines twoConstraints.agreement)) twoConstraintsContract.items ∧
      ∀ item ∈ twoConstraintsContract.items, ∀ variant ∈ item.variant, ∀ clause ∈ variant.clauses,
        IsClauseOf item.text clause :=
  mint_faithful (mintFixture twoConstraintsDigest) twoConstraints twoConstraintsContract twoConstraints_minted

def taggedAvoidance : BuildContractFromAgreementInput where
  agreement := units "## Do not\n- a [warrant: tool:x] b"
  approvedAt := units "2026-05-21T05:21:11Z"
  rigor := none
  warrantLookup := none

def taggedDigest : String := "7d5778d3af7790620811cad66ba8eac9add09679035a289d0c88c636437389c1"

def taggedItem : MintedItem where
  id := units "DONT1"
  kind := .avoidance
  text := units "a b"
  sourceHash := units taggedDigest
  verificationRequired := true
  evidencePolicy := .review
  status := .approved
  notRequiredReason := none
  warrants := some [units "tool:x"]
  variant := none

/-- The tag is cut out, and what is left is no part of the agreement. -/
theorem tag_cut_from_text :
    ∃ contract, buildContractFromAgreement (mintFixture taggedDigest) taggedAvoidance = .ok contract ∧
      ∃ item ∈ contract.items, ¬ item.text <:+: taggedAvoidance.agreement := by
  refine ⟨⟨.standard, ⟨units taggedDigest, units "2026-05-21T05:21:11Z"⟩, [taggedItem]⟩, ?_, taggedItem, ?_, ?_⟩
  · rfl
  · exact List.mem_singleton_self _
  · decide

end Advance.Validator
