import Advance.JavaScript.Collections
import Advance.Types.Contract
import Advance.Validator.Warrant

/-! # Minting a contract

`buildContractFromAgreement` reads the obligations of an approved agreement, line by line, into
the items of a contract.
-/

namespace Advance.Validator

open Advance.Foundation Advance.JavaScript Advance.Types
open Pattern CodeUnit RegExp

/-- What minting takes from the language and from the hash library. -/
structure MintPlatform where
  Count : Type
  zero : Count
  plusOne : Count → Count
  max : Count → Count → Count
  parseInt : Text → Count
  isFinite : Count → Bool
  countText : Count → Text
  toLowerCase : Text → Text
  sha256 : Text → Text
  isInvalidDate : Text → Bool

inductive ContractItemVariant where
  | behavioral (context trigger outcome : Text) (boundaries : List Text)
  | evidence (subject : Text) (method source : Option Text)
  | spec_law (spec requirement : Text)
  | constraint (obligation : Text) (scope : Option Text)
  deriving DecidableEq

structure MintedItem where
  id : Text
  kind : ContractItemKind
  text : Text
  sourceHash : Text
  verificationRequired : Bool
  evidencePolicy : ContractEvidencePolicy
  status : ContractItemStatus
  notRequiredReason : Option String
  warrants : Option (List Text)
  variant : Option ContractItemVariant
  deriving DecidableEq

structure ContractSource where
  contentHash : Text
  approvedAt : Text
  deriving DecidableEq

structure MintedContract where
  rigor : ContractRigor
  source : ContractSource
  items : List MintedItem
  deriving DecidableEq

structure BuildContractFromAgreementInput where
  agreement : Text
  approvedAt : Text
  rigor : Option ContractRigor
  warrantLookup : Option WarrantLookup

/-- What minting throws: an error with its message, or the refusal of `ChangeContractSchema`. -/
inductive MintError where
  | message (text : Text)
  | schema
  deriving DecidableEq

/-! ## Sections and labels -/

structure SectionContractMapping where
  kind : ContractItemKind
  fallbackPrefix : String
  evidencePolicy : ContractEvidencePolicy
  verificationRequired : Bool
  deriving DecidableEq

/-- `/^(first|second|…)$/i` -/
def headingOf (words : List String) : Pattern UInt16 :=
  andThen (captured (anyOf (words.map ignoringCase))) atEnd

def SECTION_MAPPINGS : List (Pattern UInt16 × SectionContractMapping) :=
  [(headingOf ["success criteria", "success criterion"], ⟨.success_criterion, "SC", .review, true⟩),
    (headingOf ["acceptance criteria", "acceptance criterion"], ⟨.acceptance_criterion, "AC", .test, true⟩),
    (headingOf ["constraints", "constraint"], ⟨.constraint, "C", .static_check, true⟩),
    (headingOf ["avoidances", "avoidance", "do not", "do nots"], ⟨.avoidance, "DONT", .review, true⟩),
    (headingOf ["out of scope", "out-of-scope", "non-goals", "non goals"],
      ⟨.out_of_scope, "OOS", .not_applicable, false⟩)]

def labelOf (fallbackPrefix : String) : Pattern UInt16 :=
  inTurn [ignoringCase fallbackPrefix, digits, atEnd]

def LABEL_MAPPINGS : List (Pattern UInt16 × SectionContractMapping) :=
  SECTION_MAPPINGS.map fun entry => (labelOf entry.2.fallbackPrefix, entry.2)

/-- The mapping whose pattern takes the whole of a text. -/
def mappingFor (mappings : List (Pattern UInt16 × SectionContractMapping)) (text : Text) :
    Option SectionContractMapping :=
  (mappings.find? fun entry => (entry.1.leading text).isSome).map Prod.snd

def numberSigns (least most : Nat) : Pattern UInt16 := many (fun unit => unit = 35) least (some most) true

/-- `/^#{2,6}\s+(.+?)\s*$/`, then the colons and number signs at its end are cut. -/
def normalizeHeading (raw : Text) : Option Text :=
  ((inTurn [numberSigns 2 6, someSpaces, bodyToEnd]).leading raw).map fun way =>
    Text.trim ((inTurn [many (isOneOf ":#") 1 none true, atEnd]).replaceAll [] (way.group 0))

def mappingForHeading (raw : Text) : Option SectionContractMapping :=
  match normalizeHeading raw with
  | none => none
  | some heading => if heading.isEmpty then none else mappingFor SECTION_MAPPINGS heading

def mappingForLabel (label : Text) : Option SectionContractMapping := mappingFor LABEL_MAPPINGS label

/-- `/^#{1,6}\s+/` -/
def isHeading (line : Text) : Bool := ((andThen (numberSigns 1 6) someSpaces).leading line).isSome

/-! ## Obligation lines -/

structure ParsedObligation where
  label : Option Text
  text : Text
  deriving DecidableEq

/-- `[-*+]\s+` or `\d+[.)]\s+` -/
def listMarker : Pattern UInt16 :=
  either (andThen (unit (isOneOf "-*+")) someSpaces) (inTurn [digits, unit (isOneOf ".)"), someSpaces])

/-- `/^\s*(?:[-*+]\s+|\d+[.)]\s+)(.+?)\s*$/` -/
def bulletLine : Pattern UInt16 := inTurn [spaces, listMarker, bodyToEnd]

/-- `/^([A-Za-z]+\d+)\s*[:.)-]\s+(.+?)\s*$/` -/
def labeledBody : Pattern UInt16 :=
  inTurn [captured (andThen (many isLetter 1 none true) digits), spaces, unit (isOneOf ":.)-"), someSpaces, bodyToEnd]

def parseObligationLine (raw : Text) : Option ParsedObligation :=
  match bulletLine.leading raw with
  | none => none
  | some bullet =>
    let body := Text.trim (bullet.group 0)
    if body.isEmpty then none
    else
      match labeledBody.leading body with
      | some labeled =>
        some ⟨some ((labeled.group 0).map upper), Text.trim (labeled.group 1)⟩
      | none => some ⟨none, body⟩

/-! ## Variants -/

inductive VariantParseResult where
  | untyped
  | variant (variant : ContractItemVariant)
  | error (message : Text)

def normalizeClause (raw : Text) : Text :=
  (inTurn [many (isOneOf ",.;") 1 none true, atEnd]).replaceFirst [] (Text.trim (collapseSpaces raw))

def behavioralIncomplete : VariantParseResult :=
  .error (units "CONTRACT_MALFORMED_VARIANT: behavioral scenario is missing a When or Then clause")

/-- `/\s*,\s+and\s+/i` -/
def boundarySeparator : Pattern UInt16 :=
  inTurn [spaces, exactly ",", someSpaces, ignoringCase "and", someSpaces]

def tryParseBehavioralVariant (platform : MintPlatform) (text : Text) : VariantParseResult :=
  let lower := platform.toLowerCase text
  if Text.indexOf (units "given ") lower ≠ some 0 then .untyped
  else
    match Text.indexOf (units " when ") lower, Text.indexOf (units " then ") lower with
    | none, none => .untyped
    | some whenIdx, some thenIdx =>
      if thenIdx < whenIdx then behavioralIncomplete
      else
        let context := normalizeClause (text.slice 6 whenIdx)
        let trigger := normalizeClause (text.slice (whenIdx + 6) thenIdx)
        match (boundarySeparator.cut (text.drop (thenIdx + 6))).map normalizeClause with
        | [] => behavioralIncomplete
        | outcome :: boundaries =>
          if context.isEmpty || trigger.isEmpty || outcome.isEmpty then behavioralIncomplete
          else .variant (.behavioral context trigger outcome boundaries)
    | _, _ => behavioralIncomplete

def splitAtFirst (platform : MintPlatform) (body : Text) : List String → Option (String × Text × Text)
  | [] => none
  | separator :: others =>
    match Text.indexOf (units separator) (platform.toLowerCase body) with
    | some idx => some (separator, body.take idx, body.drop (idx + separator.length))
    | none => splitAtFirst platform body others

/-- The body after a marker such as `/^Evidence:\s*/i`. -/
def bodyAfterMarker (marker : String) (text : Text) : Option Text :=
  ((andThen (ignoringCase marker) spaces).leading text).map fun way => Text.trim way.rest

def tryParseEvidenceVariant (platform : MintPlatform) (text : Text) : VariantParseResult :=
  match bodyAfterMarker "Evidence:" text with
  | none => .untyped
  | some body =>
    if body.isEmpty then
      .error (units "CONTRACT_MALFORMED_VARIANT: evidence variant requires a subject and method/source")
    else
      match splitAtFirst platform body [" via ", " by ", " from "] with
      | some (separator, subject, rest) =>
        if separator = " from " then
          .variant (.evidence (normalizeClause subject) none (some (normalizeClause rest)))
        else .variant (.evidence (normalizeClause subject) (some (normalizeClause rest)) none)
      | none =>
        .error (units ("CONTRACT_MALFORMED_VARIANT: evidence variant requires a method (via/by) or " ++
          "source (from)"))

def tryParseSpecLawVariant (platform : MintPlatform) (text : Text) : VariantParseResult :=
  match bodyAfterMarker "Spec-law:" text with
  | none => .untyped
  | some body =>
    if body.isEmpty then
      .error (units "CONTRACT_MALFORMED_VARIANT: spec-law variant requires a spec and requirement")
    else
      match splitAtFirst platform body [" requires ", " reconciles ", " mandates "] with
      | some (_, spec, requirement) =>
        if (normalizeClause spec).isEmpty || (normalizeClause requirement).isEmpty then
          .error (units "CONTRACT_MALFORMED_VARIANT: spec-law variant requires a spec and requirement")
        else .variant (.spec_law (normalizeClause spec) (normalizeClause requirement))
      | none =>
        .error (units ("CONTRACT_MALFORMED_VARIANT: spec-law variant requires a requirement " ++
          "(requires/reconciles/mandates)"))

def tryParseConstraintVariant (platform : MintPlatform) (text : Text) (kind : ContractItemKind) :
    VariantParseResult :=
  if kind ≠ .constraint then .untyped
  else
    let lower := platform.toLowerCase text
    if !(units "must ").isPrefixOf lower && !(units "must not ").isPrefixOf lower &&
        !(units "cannot ").isPrefixOf lower then .untyped
    else
      match splitAtFirst platform text [" for ", " within ", " across "] with
      | some (_, obligation, scope) =>
        .variant (.constraint (normalizeClause obligation)
          (if (normalizeClause scope).isEmpty then none else some (normalizeClause scope)))
      | none => .variant (.constraint (normalizeClause text) none)

def VariantParseResult.orElse (first second : VariantParseResult) : VariantParseResult :=
  match first with
  | .untyped => second
  | settled => settled

def tryParseVariant (platform : MintPlatform) (text : Text) (kind : ContractItemKind) : VariantParseResult :=
  (tryParseEvidenceVariant platform text).orElse ((tryParseSpecLawVariant platform text).orElse
      ((tryParseBehavioralVariant platform text).orElse (tryParseConstraintVariant platform text kind)))

/-! ## Minting -/

/-- `.min(1)` on every text of a variant, and the method or source of an evidence variant. -/
def acceptsVariant : ContractItemVariant → Bool
  | .behavioral context trigger outcome boundaries =>
    !context.isEmpty && !trigger.isEmpty && !outcome.isEmpty && boundaries.all fun boundary => !boundary.isEmpty
  | .evidence subject method source =>
    !subject.isEmpty && method.all (fun text => !text.isEmpty) && source.all (fun text => !text.isEmpty) &&
      (method.isSome || source.isSome)
  | .spec_law spec requirement => !spec.isEmpty && !requirement.isEmpty
  | .constraint obligation scope => !obligation.isEmpty && scope.all fun text => !text.isEmpty

/-- `ChangeContractSchema.parse`, which keeps what it accepts. -/
def parseContract (contract : MintedContract) : Except MintError MintedContract :=
  if contract.items.all fun item => item.variant.all acceptsVariant then .ok contract else .error .schema

/-- `/^\d{4}-\d{2}-\d{2}T\d{2}:\d{2}:\d{2}(?:\.\d{1,3})?Z$/` -/
def isoTimestamp : Pattern UInt16 :=
  inTurn [digitsOf 4, exactly "-", digitsOf 2, exactly "-", digitsOf 2, exactly "T", digitsOf 2, exactly ":",
    digitsOf 2, exactly ":", digitsOf 2,
    either (andThen (exactly ".") (many isDigit 1 (some 3) true)) nothing, exactly "Z", atEnd]

def normalizeApprovedAt (platform : MintPlatform) (approvedAt : Text) : Except MintError Text :=
  if approvedAt.trim.isEmpty then
    .error (.message (units "approvedAt is required to mint a ChangeContract"))
  else if (isoTimestamp.leading approvedAt.trim).isNone || platform.isInvalidDate approvedAt.trim then
    .error (.message (units "approvedAt must be a valid ISO timestamp"))
  else .ok approvedAt.trim

structure MintState (platform : MintPlatform) where
  currentMapping : Option SectionContractMapping
  fallbackCounts : List (String × platform.Count)
  seenIds : List Text
  items : List MintedItem

variable (platform : MintPlatform) (warrantLookup : Option WarrantLookup) (contentHash : Text)

def countOf (counts : List (String × platform.Count)) (fallbackPrefix : String) : platform.Count :=
  (mapGet counts fallbackPrefix).getD platform.zero

def nextFallbackId (counts : List (String × platform.Count)) (mapping : SectionContractMapping) :
    Text × List (String × platform.Count) :=
  let next := platform.plusOne (countOf platform counts mapping.fallbackPrefix)
  (units mapping.fallbackPrefix ++ platform.countText next, mapSet counts mapping.fallbackPrefix next)

/-- The number of a label that is kept raises the count of its prefix. -/
def countLabel (counts : List (String × platform.Count)) (mapping : SectionContractMapping) (label : Text) :
    List (String × platform.Count) :=
  let numeric := platform.parseInt ((many isUpper 1 none true).leading label |>.elim label Way.rest)
  if platform.isFinite numeric then
    mapSet counts mapping.fallbackPrefix (platform.max (countOf platform counts mapping.fallbackPrefix) numeric)
  else counts

/-- The identity of an item, and the counts before and after it is known to be new. -/
def identify (counts : List (String × platform.Count)) (mapping : SectionContractMapping)
    (ownLabel : Option Text) : Text × List (String × platform.Count) :=
  match ownLabel with
  | some label => (label, countLabel platform counts mapping label)
  | none => nextFallbackId platform counts mapping

def duplicateId (id : Text) : MintError :=
  .message (units "CONTRACT_DUPLICATE_ID: duplicate contract item " ++ id)

def unresolvedWarrant (id : Text) (unresolved : List Text) : MintError :=
  .message (units "CONTRACT_UNRESOLVED_WARRANT: item " ++ id ++
    units (" declares warrant(s) that do not resolve against the live tool surface / specs: ") ++
    (units ", ").intercalate unresolved)

/-- What the declared references do not resolve to. -/
def unresolvedRefs (refs : List Text) : List Text :=
  match warrantLookup with
  | some lookup => if refs.isEmpty then [] else (resolveWarrants refs lookup).unresolved
  | none => []

def mintedItem (id text : Text) (refs : List Text) (mapping : SectionContractMapping)
    (variant : Option ContractItemVariant) : MintedItem where
  id := id
  kind := mapping.kind
  text := text
  sourceHash := contentHash
  verificationRequired := mapping.verificationRequired
  evidencePolicy := mapping.evidencePolicy
  status := .approved
  notRequiredReason := if mapping.verificationRequired then none else some "Out-of-scope contract item"
  warrants := if refs.isEmpty then none else some refs
  variant := variant

/-- The item of an obligation, with the label when it is that of a kind. -/
def mintObligation (state : MintState platform) (mapping : SectionContractMapping) (ownLabel : Option Text)
    (obligationText : Text) : Except MintError (MintState platform) :=
  match parseWarrantTag obligationText with
  | .error message => .error (.message message)
  | .ok warrant =>
    let (id, counts) := identify platform state.fallbackCounts mapping ownLabel
    if id ∈ state.seenIds then .error (duplicateId id)
    else
      let unresolved := unresolvedRefs warrantLookup warrant.refs
      if unresolved ≠ [] then .error (unresolvedWarrant id unresolved)
      else
        match tryParseVariant platform warrant.text mapping.kind with
        | .error message => .error (.message message)
        | .untyped =>
          .ok { state with
            fallbackCounts := counts
            seenIds := state.seenIds ++ [id]
            items := state.items ++ [mintedItem contentHash id warrant.text warrant.refs mapping none] }
        | .variant variant =>
          .ok { state with
            fallbackCounts := counts
            seenIds := state.seenIds ++ [id]
            items := state.items ++ [mintedItem contentHash id warrant.text warrant.refs mapping (some variant)] }

/-- One turn of the loop over the lines. -/
def mintLine (state : MintState platform) (line : Text) : Except MintError (MintState platform) :=
  match mappingForHeading line with
  | some mapping => .ok { state with currentMapping := some mapping }
  | none =>
    if isHeading line then .ok { state with currentMapping := none }
    else
      match parseObligationLine line with
      | none => .ok state
      | some parsed =>
        match parsed.label, parsed.label.bind mappingForLabel with
        | some label, some mapping =>
          mintObligation platform warrantLookup contentHash state mapping (some label) parsed.text
        | _, _ =>
          match state.currentMapping with
          | some mapping => mintObligation platform warrantLookup contentHash state mapping none parsed.text
          | none => .ok state

/-- `agreement.split(/\r?\n/)` -/
def agreementLines (agreement : Text) : List Text :=
  (andThen (many (fun unit => unit = 13) 0 (some 1) true) (unit fun unit => unit = 10)).cut agreement

def buildContractFromAgreement (input : BuildContractFromAgreementInput) : Except MintError MintedContract :=
  match normalizeApprovedAt platform input.approvedAt with
  | .error error => .error error
  | .ok approvedAt =>
    let contentHash := platform.sha256 input.agreement
    match (agreementLines input.agreement).foldlM (mintLine platform input.warrantLookup contentHash)
        ⟨none, [], [], []⟩ with
    | .error error => .error error
    | .ok state =>
      if state.items.isEmpty then
        .error (.message (units "CONTRACT_ITEMS_EMPTY: agreement contains no SC/AC/C/DONT/OOS contract items"))
      else
        parseContract
          { rigor := input.rigor.getD .standard
            source := ⟨contentHash, approvedAt⟩
            items := state.items }

end Advance.Validator
