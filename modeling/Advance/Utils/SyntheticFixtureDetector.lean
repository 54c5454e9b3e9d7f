import Mathlib.Data.List.Basic

/-! # Synthetic validation draft detector

The reserved names of the validation harnesses, which the storage layer refuses
to write.
-/

namespace Advance.Utils

/-- The white space `String.prototype.trim` and `\s` recognise. -/
def isJsWhitespace (c : Char) : Bool :=
  (9 ≤ c.toNat && c.toNat ≤ 13) || c.toNat = 0x20 || c.toNat = 0xA0 || c.toNat = 0x1680 ||
    (0x2000 ≤ c.toNat && c.toNat ≤ 0x200A) || c.toNat = 0x2028 || c.toNat = 0x2029 ||
    c.toNat = 0x202F || c.toNat = 0x205F || c.toNat = 0x3000 || c.toNat = 0xFEFF

def trim (input : List Char) : List Char :=
  ((input.dropWhile isJsWhitespace).reverse.dropWhile isJsWhitespace).reverse

/-- What follows a literal at the start of the input, letter case ignored. -/
def afterLiteral (literal input : List Char) : Option (List Char) :=
  if (input.take literal.length).map Char.toLower = literal.map Char.toLower then
    some (input.drop literal.length)
  else none

def isWordChar (c : Char) : Bool := c.isAlphanum || c = '_'

/-- `/^\[parity:[a-z0-9_-]+\]\s+/i` -/
def parityMarker (input : List Char) : Bool :=
  match afterLiteral "[parity:".toList input with
  | none => false
  | some rest =>
    let isLabel := fun c => isWordChar c || c = '-'
    match rest.takeWhile isLabel, rest.dropWhile isLabel with
    | _ :: _, ']' :: c :: _ => isJsWhitespace c
    | _, _ => false

/-- `/^<literal>\d*$/i` -/
def numbered (literal : String) (input : List Char) : Bool :=
  match afterLiteral literal.toList input with
  | none => false
  | some rest => rest.all Char.isDigit

/-- `/^<literal>\w*\d*$/i` -/
def worded (literal : String) (input : List Char) : Bool :=
  match afterLiteral literal.toList input with
  | none => false
  | some rest => rest.all isWordChar

/-- `/^<first>\s+<second>\d*$/i`, or with `\s*` where the gap may be empty. -/
def phrase (first : String) (gapRequired : Bool) (second : String) (input : List Char) : Bool :=
  match afterLiteral first.toList input with
  | none => false
  | some rest =>
    (!gapRequired || !(rest.takeWhile isJsWhitespace).isEmpty) && numbered second (rest.dropWhile isJsWhitespace)

def SYNTHETIC_PATTERNS : List (List Char → Bool) :=
  [parityMarker,
   fun input => worded "parityLegacy" input || worded "parityValidation" input || worded "paritySynthetic" input,
   phrase "change" true "roundtrip", numbered "changeRoundtrip",
   phrase "task" true "parity", numbered "taskParity",
   phrase "gate" true "parity", numbered "gateParity",
   phrase "wisdom" true "parity", numbered "wisdomParity",
   phrase "reentry" true "parity", numbered "reentryParity",
   phrase "latency" false "legacy", numbered "latencyLegacy",
   numbered "cleanupParityHarnessLeak",
   numbered "userIntuitComparisonProtocol"]

def isSyntheticValidationDraftPattern (input : String) : Bool :=
  let trimmed := trim input.toList
  if trimmed.isEmpty then false else SYNTHETIC_PATTERNS.any (· trimmed)

example : isSyntheticValidationDraftPattern "changeRoundtrip12" = true := by rfl

example : isSyntheticValidationDraftPattern "addTaskParity" = false := by rfl

end Advance.Utils
