import Advance.JavaScript.CodeUnits

/-! # Capability warrants

The `[warrant: …]` tag of a criterion: `parseWarrantTag` cuts it out and reads its references,
`resolveWarrants` looks them up in the tools and the specs that exist.
-/

namespace Advance.Validator

open Advance.Foundation Advance.JavaScript
open Pattern CodeUnit RegExp

structure WarrantLookup where
  toolSurface : Text → Option (List Text)
  specIds : List Text

structure ParsedWarrant where
  text : Text
  refs : List Text
  deriving DecidableEq

structure WarrantResolution where
  ok : Bool
  unresolved : List Text

/-- The message of a `WarrantMalformedError`. -/
def warrantMalformed (message : Text) : Text := units "WARRANT_MALFORMED: " ++ message

/-- `/\[warrant:\s*([^\]]*)\]/i` -/
def WARRANT_TAG : Pattern UInt16 :=
  inTurn [ignoringCase "[warrant:", spaces, captured (many (fun unit => unit ≠ 93) 0 none true), exactly "]"]

/-- The class `[A-Za-z0-9_]`. -/
def isNameUnit (unit : UInt16) : Bool := isLetter unit || isDigit unit || unit = 95

/-- `/^tool:[A-Za-z0-9_]+(?:#[A-Za-z0-9_]+)?$/` -/
def TOOL_REF : Pattern UInt16 :=
  inTurn [exactly "tool:", many isNameUnit 1 none true,
    either (andThen (exactly "#") (many isNameUnit 1 none true)) nothing, atEnd]

/-- `/^spec:[A-Za-z0-9][A-Za-z0-9_-]*$/` -/
def SPEC_REF : Pattern UInt16 :=
  inTurn [exactly "spec:", unit fun unit => isLetter unit || isDigit unit,
    many (fun unit => isNameUnit unit || unit = 45) 0 none true, atEnd]

def isValidRefShape (ref : Text) : Bool := (TOOL_REF.leading ref).isSome || (SPEC_REF.leading ref).isSome

/-- `text.replace(/\s+/g, " ")` -/
def collapseSpaces (text : Text) : Text := someSpaces.replaceAll (units " ") text

/-- The references of a tag. -/
def warrantRefs (body : Text) : List Text :=
  (((exactly ",").cut body).map Text.trim).filter fun ref => !ref.isEmpty

def parseWarrantTag (raw : Text) : Except Text ParsedWarrant :=
  match WARRANT_TAG.search true raw with
  | none => .ok ⟨raw.trim, []⟩
  | some (_, tag) =>
    let body := Text.trim (tag.group 0)
    if body.isEmpty then .error (warrantMalformed (units "empty [warrant: ...] tag"))
    else
      let refs := warrantRefs body
      if refs.isEmpty then .error (warrantMalformed (units "no refs in [warrant: ...] tag"))
      else
        match refs.find? fun ref => !isValidRefShape ref with
        | some ref => .error (warrantMalformed (units "invalid warrant ref \"" ++ ref ++ units "\""))
        | none => .ok ⟨(collapseSpaces (WARRANT_TAG.replaceFirst [] raw)).trim, refs⟩

def resolveRef (ref : Text) (lookup : WarrantLookup) : Bool :=
  if (units "tool:").isPrefixOf ref then
    let body := ref.drop 5
    let hashIndex := Text.indexOf (units "#") body
    let name := hashIndex.elim body body.take
    match lookup.toolSurface name with
    | none => false
    | some args =>
      match hashIndex with
      | none => true
      | some index =>
        let arg := body.drop (index + 1)
        arg.isEmpty || args.contains arg
  else if (units "spec:").isPrefixOf ref then lookup.specIds.contains (ref.drop 5)
  else false

def resolveWarrants (refs : List Text) (lookup : WarrantLookup) : WarrantResolution :=
  let unresolved := refs.filter fun ref => !resolveRef ref lookup
  ⟨unresolved.isEmpty, unresolved⟩

/-! ## What is left of a text -/

theorem collapseSpaces_filter (text : Text) :
    (collapseSpaces text).filter (fun unit => !isSpace unit) = text.filter fun unit => !isSpace unit := by
  refine replaceAll_filter (fun start text way member => ?_) (by decide) text
  obtain ⟨-, all, -⟩ := mem_ways_many.mp member
  rw [List.filter_eq_nil_iff]
  intro unit taken
  simp [all unit taken]

theorem parseWarrantTag_plain {raw : Text} {warrant : ParsedWarrant} (parsed : parseWarrantTag raw = .ok warrant)
    (plain : WARRANT_TAG.search true raw = none) : warrant.text = Text.trim raw := by
  rw [parseWarrantTag, plain] at parsed
  obtain rfl := Except.ok.inj parsed
  rfl

theorem parseWarrantTag_tagged {raw before : Text} {tag : Way UInt16} {warrant : ParsedWarrant}
    (parsed : parseWarrantTag raw = .ok warrant) (tagged : WARRANT_TAG.search true raw = some (before, tag)) :
    warrant.text = Text.trim (collapseSpaces (before ++ tag.rest)) := by
  have cutOut : WARRANT_TAG.replaceFirst [] raw = before ++ tag.rest := by
    rw [replaceFirst, tagged]
    simp
  rw [parseWarrantTag, tagged] at parsed
  simp only [cutOut] at parsed
  split at parsed
  · cases parsed
  split at parsed
  · cases parsed
  split at parsed
  · cases parsed
  · obtain rfl := Except.ok.inj parsed
    rfl

end Advance.Validator
