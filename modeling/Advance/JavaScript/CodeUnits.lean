import Advance.Foundation.Pattern
import Mathlib.Data.List.DropRight

/-! # Texts as code units

A text of the language as the list of its UTF-16 code units, and the parts that regular
expressions over such texts are made of.
-/

namespace Advance.JavaScript

open Advance.Foundation

abbrev Text := List UInt16

/-- The code units of a character. -/
def unitsOfChar (c : Char) : Text :=
  if c.toNat < 0x10000 then [c.toNat.toUInt16]
  else [(0xD800 + (c.toNat - 0x10000) / 0x400).toUInt16, (0xDC00 + (c.toNat - 0x10000) % 0x400).toUInt16]

def units (text : String) : Text := text.toList.flatMap unitsOfChar

/-- The order of `sort` on texts: by their code units. -/
def unitsBefore (left right : List Char) : Prop := left.flatMap unitsOfChar ≤ right.flatMap unitsOfChar

instance : DecidableRel unitsBefore := fun left right =>
  inferInstanceAs (Decidable (left.flatMap unitsOfChar ≤ right.flatMap unitsOfChar))

namespace CodeUnit

/-- The class `\s`, which is also what `trim` cuts. -/
def isSpace (unit : UInt16) : Bool :=
  (9 ≤ unit && unit ≤ 13) || unit = 32 || unit = 0xA0 || unit = 0x1680 || (0x2000 ≤ unit && unit ≤ 0x200A) ||
    unit = 0x2028 || unit = 0x2029 || unit = 0x202F || unit = 0x205F || unit = 0x3000 || unit = 0xFEFF

/-- The class `.` without the flag `s`. -/
def isDot (unit : UInt16) : Bool := !(unit = 10 || unit = 13 || unit = 0x2028 || unit = 0x2029)

def isDigit (unit : UInt16) : Bool := 48 ≤ unit && unit ≤ 57

def isUpper (unit : UInt16) : Bool := 65 ≤ unit && unit ≤ 90

def isLower (unit : UInt16) : Bool := 97 ≤ unit && unit ≤ 122

/-- The class `[A-Za-z]`. -/
def isLetter (unit : UInt16) : Bool := isUpper unit || isLower unit

/-- `toUpperCase` on the units of ASCII. -/
def upper (unit : UInt16) : UInt16 := if isLower unit then unit - 32 else unit

/-- Equal under the flag `i`, for a unit of ASCII: none outside ASCII is another case of it. -/
def sameLetter (own other : UInt16) : Bool := upper own = upper other

theorem upper_upper (unit : UInt16) : upper (upper unit) = upper unit := by
  by_cases low : isLower unit = true
  · -- a lower letter goes to an upper one
    have bounds : 97 ≤ unit.toNat ∧ unit.toNat ≤ 122 := by
      simpa [isLower, UInt16.le_iff_toNat_le] using low
    have moved : (unit - 32).toNat = unit.toNat - 32 := by
      rw [UInt16.toNat_sub_of_le]
      · rfl
      · rw [UInt16.le_iff_toNat_le]
        exact le_trans (by decide) bounds.1
    have high : isLower (unit - 32) = false := by
      simp only [isLower, Bool.and_eq_false_iff, decide_eq_false_iff_not, UInt16.le_iff_toNat_le, moved]
      left
      have : (97 : UInt16).toNat = 97 := rfl
      omega
    rw [upper, upper, if_pos low, if_neg (by simp [high])]
  · rw [upper, upper, if_neg low, if_neg low]

def isOneOf (accepted : String) (unit : UInt16) : Bool := (units accepted).contains unit

end CodeUnit

namespace Text

open CodeUnit

def trim (text : Text) : Text := (text.dropWhile isSpace).rdropWhile isSpace

/-- `text.indexOf(part)`, nothing for `-1`. -/
def indexOf (part : Text) : Text → Option Nat
  | [] => if part.isEmpty then some 0 else none
  | c :: rest => if part.isPrefixOf (c :: rest) then some 0 else (indexOf part rest).map (· + 1)

/-- `text.slice(start, stop)` -/
def slice (text : Text) (start stop : Nat) : Text := (text.take stop).drop start

theorem slice_infix (text : Text) (start stop : Nat) : slice text start stop <:+: text :=
  (List.drop_suffix _ _).isInfix.trans (List.take_prefix _ _).isInfix

theorem trim_filter (text : Text) :
    (trim text).filter (fun unit => !isSpace unit) = text.filter fun unit => !isSpace unit := by
  have front : ∀ text : Text, (text.dropWhile isSpace).filter (fun unit => !isSpace unit) =
      text.filter fun unit => !isSpace unit := by
    intro text
    induction text with
    | nil => rfl
    | cons c rest ih =>
      by_cases space : isSpace c
      · rw [List.dropWhile_cons_of_pos space, ih, List.filter_cons_of_neg (by simp [space])]
      · rw [List.dropWhile_cons_of_neg space]
  rw [trim, List.rdropWhile, List.filter_reverse, front, ← List.filter_reverse, List.reverse_reverse, front]

theorem trim_infix (text : Text) : trim text <:+: text :=
  (List.rdropWhile_prefix _ _).isInfix.trans (List.dropWhile_suffix _).isInfix

end Text

/-! ## Parts of regular expressions -/

namespace RegExp

open Pattern CodeUnit

def exactly (text : String) : Pattern UInt16 := word (fun own other => own = other) (units text)

/-- The units of a word under the flag `i`. -/
def ignoringCase (text : String) : Pattern UInt16 := word sameLetter (units text)

/-- `\s*` -/
def spaces : Pattern UInt16 := many isSpace 0 none true

/-- `\s+` -/
def someSpaces : Pattern UInt16 := many isSpace 1 none true

/-- `.+?` -/
def fewDots : Pattern UInt16 := many isDot 1 none false

/-- `\d+` -/
def digits : Pattern UInt16 := many isDigit 1 none true

/-- `\d{n}` -/
def digitsOf (n : Nat) : Pattern UInt16 := many isDigit n (some n) true

/-- The body of a line, `(.+?)\s*$`. -/
def bodyToEnd : Pattern UInt16 := inTurn [captured fewDots, spaces, atEnd]

end RegExp

end Advance.JavaScript
