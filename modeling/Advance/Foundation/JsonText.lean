import Mathlib.Data.Nat.Digits.Lemmas
import Mathlib.Data.List.Basic

/-! # JSON as text

Documents of texts, natural numbers, lists and objects, as they are written on one line and
read back.
-/

namespace Advance.Foundation

inductive Json where
  | null
  | bool (value : Bool)
  | nat (value : Nat)
  | text (value : String)
  | list (values : List Json)
  | object (members : List (String × Json))

namespace Json

/-! ## Writing -/

def hexDigit (n : Nat) : Char :=
  if n < 10 then Char.ofNat (48 + n) else Char.ofNat (87 + n)

def escapeChar (c : Char) : List Char :=
  if c = '"' then ['\\', '"']
  else if c = '\\' then ['\\', '\\']
  else if c = '\x08' then ['\\', 'b']
  else if c = '\x0c' then ['\\', 'f']
  else if c = '\n' then ['\\', 'n']
  else if c = '\r' then ['\\', 'r']
  else if c = '\t' then ['\\', 't']
  else if c.toNat < 32 then ['\\', 'u', '0', '0', hexDigit (c.toNat / 16), hexDigit (c.toNat % 16)]
  else [c]

def quote (text : String) : List Char := '"' :: (text.toList.flatMap escapeChar ++ ['"'])

def printNat (n : Nat) : List Char :=
  if n = 0 then ['0'] else (Nat.digits 10 n).reverse.map hexDigit

mutual

def print : Json → List Char
  | null => "null".toList
  | bool value => if value then "true".toList else "false".toList
  | nat value => printNat value
  | text value => quote value
  | list [] => "[]".toList
  | list (value :: values) => '[' :: (print value ++ printValues values)
  | object [] => ['\x7b', '\x7d']
  | object ((key, value) :: members) => '\x7b' :: (quote key ++ ':' :: (print value ++ printMembers members))

/-- What follows the first value of a list. -/
def printValues : List Json → List Char
  | [] => [']']
  | value :: values => ',' :: (print value ++ printValues values)

/-- What follows the first member of an object. -/
def printMembers : List (String × Json) → List Char
  | [] => ['\x7d']
  | (key, value) :: members => ',' :: (quote key ++ ':' :: (print value ++ printMembers members))

end

/-! ## Reading -/

def isBlank (c : Char) : Bool := c = ' ' || c = '\t' || c = '\n' || c = '\r'

def skipBlanks (input : List Char) : List Char := input.dropWhile isBlank

def hexValue (c : Char) : Option Nat :=
  if '0' ≤ c ∧ c ≤ '9' then some (c.toNat - 48)
  else if 'a' ≤ c ∧ c ≤ 'f' then some (c.toNat - 87)
  else if 'A' ≤ c ∧ c ≤ 'F' then some (c.toNat - 55)
  else none

def unescape : Char → Option Char
  | '"' => some '"'
  | '\\' => some '\\'
  | '/' => some '/'
  | 'b' => some '\x08'
  | 'f' => some '\x0c'
  | 'n' => some '\n'
  | 'r' => some '\r'
  | 't' => some '\t'
  | _ => none

def hexChar (a b c d : Char) : Option Char := do
  let a ← hexValue a
  let b ← hexValue b
  let c ← hexValue c
  let d ← hexValue d
  pure (Char.ofNat (((a * 16 + b) * 16 + c) * 16 + d))

/-- The rest of a text after its opening quote, and what follows the closing one. -/
def parseText : List Char → Option (List Char × List Char)
  | '"' :: rest => some ([], rest)
  | '\\' :: 'u' :: a :: b :: c :: d :: rest => do
    let char ← hexChar a b c d
    let (chars, rest) ← parseText rest
    pure (char :: chars, rest)
  | '\\' :: escaped :: rest => do
    let char ← unescape escaped
    let (chars, rest) ← parseText rest
    pure (char :: chars, rest)
  | c :: rest =>
    if c.toNat < 32 then none else do
      let (chars, rest) ← parseText rest
      pure (c :: chars, rest)
  | [] => none

def isDigit (c : Char) : Bool := '0' ≤ c && c ≤ '9'

/-- A number without a leading zero. -/
def parseNat (input : List Char) : Option (Nat × List Char) :=
  match input.takeWhile isDigit with
  | [] => none
  | ['0'] => some (0, input.dropWhile isDigit)
  | '0' :: _ => none
  | digits => some (Nat.ofDigits 10 (digits.map fun c => c.toNat - 48).reverse, input.dropWhile isDigit)

mutual

def parseValue : Nat → List Char → Option (Json × List Char)
  | 0, _ => none
  | fuel + 1, input =>
    match skipBlanks input with
    | '"' :: rest => (parseText rest).map fun (chars, rest) => (text (String.ofList chars), rest)
    | '[' :: rest =>
      match skipBlanks rest with
      | ']' :: rest => some (list [], rest)
      | _ => (parseValues fuel rest).map fun (values, rest) => (list values, rest)
    | '\x7b' :: rest =>
      match skipBlanks rest with
      | '\x7d' :: rest => some (object [], rest)
      | _ => (parseMembers fuel rest).map fun (members, rest) => (object members, rest)
    | 'n' :: 'u' :: 'l' :: 'l' :: rest => some (null, rest)
    | 't' :: 'r' :: 'u' :: 'e' :: rest => some (bool true, rest)
    | 'f' :: 'a' :: 'l' :: 's' :: 'e' :: rest => some (bool false, rest)
    | other => (parseNat other).map fun (value, rest) => (nat value, rest)

/-- One value or more, up to the closing bracket. -/
def parseValues : Nat → List Char → Option (List Json × List Char)
  | 0, _ => none
  | fuel + 1, input => do
    let (value, rest) ← parseValue fuel input
    match skipBlanks rest with
    | ',' :: rest =>
      let (values, rest) ← parseValues fuel rest
      pure (value :: values, rest)
    | ']' :: rest => pure ([value], rest)
    | _ => none

/-- One member or more, up to the closing brace. -/
def parseMembers : Nat → List Char → Option (List (String × Json) × List Char)
  | 0, _ => none
  | fuel + 1, input =>
    match skipBlanks input with
    | '"' :: rest => do
      let (key, rest) ← parseText rest
      match skipBlanks rest with
      | ':' :: rest =>
        let (value, rest) ← parseValue fuel rest
        match skipBlanks rest with
        | ',' :: rest =>
          let (members, rest) ← parseMembers fuel rest
          pure ((String.ofList key, value) :: members, rest)
        | '\x7d' :: rest => pure ([(String.ofList key, value)], rest)
        | _ => none
      | _ => none
    | _ => none

end

def parse (input : List Char) : Option Json :=
  match parseValue (input.length + 1) input with
  | some (value, rest) => if skipBlanks rest = [] then some value else none
  | none => none

/-! ## What is written is read back -/

variable {n : Nat}

theorem hexValue_hexDigit (small : n < 16) : hexValue (hexDigit n) = some n := by
  have all : ∀ n < 16, hexValue (hexDigit n) = some n := by decide
  exact all n small

theorem parseText_escapeChar (c : Char) (rest : List Char) :
    parseText (escapeChar c ++ rest) = (parseText rest).map fun parsed => (c :: parsed.1, parsed.2) := by
  have asBind : ∀ (parsed : Option (List Char × List Char)) (c : Char),
      (do let (chars, rest) ← parsed; pure (c :: chars, rest)) =
        parsed.map fun parsed => (c :: parsed.1, parsed.2) := by
    rintro (_ | ⟨chars, rest⟩) c <;> rfl
  unfold escapeChar
  split_ifs with isQuote isSlash isBackspace isFeed isNewline isReturn isTab isControl
  · rw [isQuote]
    exact asBind _ _
  · rw [isSlash]
    exact asBind _ _
  · rw [isBackspace]
    exact asBind _ _
  · rw [isFeed]
    exact asBind _ _
  · rw [isNewline]
    exact asBind _ _
  · rw [isReturn]
    exact asBind _ _
  · rw [isTab]
    exact asBind _ _
  · have high := hexValue_hexDigit (n := c.toNat / 16) (by omega)
    have low := hexValue_hexDigit (n := c.toNat % 16) (by omega)
    have code : ((0 * 16 + 0) * 16 + c.toNat / 16) * 16 + c.toNat % 16 = c.toNat := by omega
    have char : hexChar '0' '0' (hexDigit (c.toNat / 16)) (hexDigit (c.toNat % 16)) = some c := by
      have zero : hexValue '0' = some 0 := by decide
      simp only [hexChar, zero, high, low, Option.bind_eq_bind, Option.bind_some, Option.pure_def, code,
        Char.ofNat_toNat]
    simp only [List.cons_append, List.nil_append, parseText, char]
    exact asBind _ _
  · have plain : parseText (c :: rest) = (parseText rest).bind fun parsed => some (c :: parsed.1, parsed.2) := by
      rw [parseText.eq_def]
      split
      next begins => exact absurd (List.cons.inj begins).1 isQuote
      next begins => exact absurd (List.cons.inj begins).1 isSlash
      next begins => exact absurd (List.cons.inj begins).1 isSlash
      next begins =>
        obtain ⟨rfl, rfl⟩ := List.cons.inj begins
        rw [if_neg isControl]
        rfl
      next begins => cases begins
    rw [List.singleton_append, plain]
    cases parseText rest <;> rfl

theorem parseText_escape (chars rest : List Char) :
    parseText (chars.flatMap escapeChar ++ '"' :: rest) = some (chars, rest) := by
  induction chars with
  | nil => rfl
  | cons c chars ih =>
    rw [List.flatMap_cons, List.append_assoc, parseText_escapeChar, ih]
    rfl

/-- What stands between two values: a text that does not go on with a digit. -/
def Delimited (rest : List Char) : Prop := ∀ c, rest.head? = some c → isDigit c = false

theorem isDigit_hexDigit (digit : n < 10) : isDigit (hexDigit n) = true ∧ (hexDigit n).toNat - 48 = n := by
  have all : ∀ n < 10, isDigit (hexDigit n) = true ∧ (hexDigit n).toNat - 48 = n := by decide
  exact all n digit

theorem takeWhile_digits {digits rest : List Char} (allDigits : ∀ c ∈ digits, isDigit c = true)
    (delimited : Delimited rest) :
    (digits ++ rest).takeWhile isDigit = digits ∧ (digits ++ rest).dropWhile isDigit = rest := by
  have stops : rest.takeWhile isDigit = [] ∧ rest.dropWhile isDigit = rest := by
    cases rest with
    | nil => exact ⟨rfl, rfl⟩
    | cons c rest =>
      have other := delimited c rfl
      simp [List.takeWhile, List.dropWhile, other]
  rw [List.takeWhile_append_of_pos allDigits, List.dropWhile_append_of_pos allDigits, stops.1, stops.2]
  exact ⟨List.append_nil _, rfl⟩

variable {rest : List Char}

theorem parseNat_print (n : Nat) (delimited : Delimited rest) : parseNat (printNat n ++ rest) = some (n, rest) := by
  unfold printNat
  split
  next zero =>
    have digit : ∀ c ∈ ['0'], isDigit c = true := List.forall_mem_singleton.mpr rfl
    have cut := takeWhile_digits digit delimited
    simp only [parseNat, cut.1, cut.2, zero]
  next positive =>
    have small : ∀ d ∈ Nat.digits 10 n, d < 10 := fun d member => Nat.digits_lt_base (by decide) member
    have digits : ∀ c ∈ (Nat.digits 10 n).reverse.map hexDigit, isDigit c = true := by
      intro c member
      obtain ⟨d, digit, rfl⟩ := List.mem_map.mp member
      exact (isDigit_hexDigit (small d (List.mem_reverse.mp digit))).1
    have cut := takeWhile_digits digits delimited
    have back : ((Nat.digits 10 n).reverse.map hexDigit).map (fun c => c.toNat - 48) = (Nat.digits 10 n).reverse := by
      rw [List.map_map]
      refine (List.map_congr_left fun d member => ?_).trans (List.map_id _)
      exact (isDigit_hexDigit (small d (List.mem_reverse.mp member))).2
    -- the first digit written is the last one of the list, which is not zero
    obtain ⟨front, last, split⟩ : ∃ front last, Nat.digits 10 n = front ++ [last] :=
      ⟨_, _, (List.dropLast_append_getLast (Nat.digits_ne_nil_iff_ne_zero.mpr positive)).symm⟩
    have leading : last ≠ 0 := by
      have nonzero := Nat.getLast_digit_ne_zero 10 positive
      simpa [split] using nonzero
    have notZero : hexDigit last ≠ '0' := by
      have lastSmall := small last (by simp [split])
      have all : ∀ d < 10, d ≠ 0 → hexDigit d ≠ '0' := by decide
      exact all last lastSmall leading
    have value : Nat.ofDigits 10 (Nat.digits 10 n) = n := Nat.ofDigits_digits 10 n
    unfold parseNat
    rw [cut.1, cut.2]
    split
    next none =>
      simp [split] at none
    next one =>
      simp [split] at one
      exact absurd one.1 notZero
    next first =>
      simp [split] at first
      exact absurd first.1 notZero
    next =>
      rw [back, List.reverse_reverse, value]

/-- A text that starts with neither a blank nor a closing bracket. -/
def Starts (input : List Char) : Prop := ∃ c rest, input = c :: rest ∧ isBlank c = false ∧ c ≠ ']'

theorem Starts.skipBlanks {input : List Char} (starts : Starts input) : skipBlanks input = input := by
  obtain ⟨c, rest, rfl, solid, _⟩ := starts
  simp [Json.skipBlanks, List.dropWhile, solid]

theorem printNat_starts (n : Nat) : ∃ c rest, printNat n = c :: rest ∧ isDigit c = true := by
  unfold printNat
  split
  next => exact ⟨'0', [], rfl, by decide⟩
  next positive =>
    obtain ⟨front, last, split⟩ : ∃ front last, Nat.digits 10 n = front ++ [last] :=
      ⟨_, _, (List.dropLast_append_getLast (Nat.digits_ne_nil_iff_ne_zero.mpr positive)).symm⟩
    have small : last < 10 := Nat.digits_lt_base (b := 10) (m := n) (by decide) (by simp [split])
    refine ⟨hexDigit last, front.reverse.map hexDigit, ?_, (isDigit_hexDigit small).1⟩
    rw [split, List.reverse_append, List.reverse_singleton, List.singleton_append, List.map_cons]

variable {c : Char}

theorem isDigit_solid (digit : isDigit c = true) : isBlank c = false ∧ c ≠ ']' := by
  have high : '0' ≤ c := by
    simp only [isDigit, Bool.and_eq_true, decide_eq_true_eq] at digit
    exact digit.1
  refine ⟨?_, ?_⟩
  · simp only [isBlank, Bool.or_eq_false_iff, decide_eq_false_iff_not]
    refine ⟨⟨⟨?_, ?_⟩, ?_⟩, ?_⟩ <;> (rintro rfl; exact absurd high (by decide))
  · rintro rfl
    exact absurd digit (by decide)

theorem print_starts (value : Json) (rest : List Char) : Starts (print value ++ rest) := by
  match value with
  | null => exact ⟨'n', _, rfl, by decide, by decide⟩
  | bool true => exact ⟨'t', _, rfl, by decide, by decide⟩
  | bool false => exact ⟨'f', _, rfl, by decide, by decide⟩
  | nat n =>
    obtain ⟨c, tail, written, digit⟩ := printNat_starts n
    refine ⟨c, tail ++ rest, ?_, isDigit_solid digit⟩
    rw [print, written, List.cons_append]
  | text _ => exact ⟨'"', _, rfl, by decide, by decide⟩
  | list [] => exact ⟨'[', _, rfl, by decide, by decide⟩
  | list (_ :: _) => exact ⟨'[', _, rfl, by decide, by decide⟩
  | object [] => exact ⟨'\x7b', _, rfl, by decide, by decide⟩
  | object ((_, _) :: _) => exact ⟨'\x7b', _, rfl, by decide, by decide⟩

theorem parseValue_nat (fuel n : Nat) (delimited : Delimited rest) :
    parseValue (fuel + 1) (printNat n ++ rest) = some (nat n, rest) := by
  have reads := parseNat_print n delimited
  obtain ⟨c, tail, written, digit⟩ := printNat_starts n
  rw [written, List.cons_append] at reads ⊢
  have starts : Starts (c :: (tail ++ rest)) := ⟨c, _, rfl, isDigit_solid digit⟩
  unfold parseValue
  rw [starts.skipBlanks]
  split
  case h_7 => rw [reads]; rfl
  all_goals
    next begins =>
      rw [(List.cons.inj begins).1] at digit
      exact absurd digit (by decide)

theorem quote_append (key : String) (rest : List Char) :
    quote key ++ rest = '"' :: (key.toList.flatMap escapeChar ++ '"' :: rest) := by
  simp [quote]

theorem delimited_of (other : isDigit c = false) (rest : List Char) : Delimited (c :: rest) := by
  intro d head
  cases head
  exact other

theorem delimited_printValues (values : List Json) (rest : List Char) : Delimited (printValues values ++ rest) := by
  cases values <;> exact delimited_of (by decide) _

theorem delimited_printMembers (members : List (String × Json)) (rest : List Char) :
    Delimited (printMembers members ++ rest) := by
  rcases members with _ | ⟨⟨key, value⟩, members⟩ <;> exact delimited_of (by decide) _

/-- A value that is read back from what is written of it, wherever it stands. -/
def Reads (value : Json) : Prop :=
  ∀ fuel rest, (print value).length ≤ fuel → Delimited rest →
    parseValue fuel (print value ++ rest) = some (value, rest)

variable {value : Json} {fuel : Nat}

theorem parseValues_print {values : List Json} (first : Reads value) (others : ∀ other ∈ values, Reads other)
    (enough : (print value ++ printValues values).length ≤ fuel) :
    parseValues fuel (print value ++ (printValues values ++ rest)) = some (value :: values, rest) := by
  induction values generalizing value fuel with
  | nil =>
    obtain ⟨fuel, rfl⟩ : ∃ less, fuel = less + 1 := ⟨fuel - 1, by simp [printValues] at enough; omega⟩
    have read := first fuel (printValues [] ++ rest) (by simp [printValues] at enough; omega)
      (delimited_printValues [] rest)
    rw [parseValues, read]
    rfl
  | cons next values ih =>
    obtain ⟨fuel, rfl⟩ : ∃ less, fuel = less + 1 := ⟨fuel - 1, by simp [printValues] at enough; omega⟩
    have read := first fuel (printValues (next :: values) ++ rest)
      (by simp [printValues] at enough; omega) (delimited_printValues _ rest)
    have short : (print next ++ printValues values).length ≤ fuel := by
      simp [printValues] at enough ⊢
      omega
    have tail := ih (others next List.mem_cons_self)
      (fun other member => others other (List.mem_cons_of_mem _ member)) short
    rw [parseValues, read]
    simp only [printValues, List.cons_append, List.append_assoc]
    simp [skipBlanks, isBlank, tail]

variable {members : List (String × Json)} {key : String}

theorem parseMembers_print (first : Reads value) (others : ∀ other ∈ members, Reads other.2)
    (enough : (quote key ++ ':' :: (print value ++ printMembers members)).length ≤ fuel) :
    parseMembers fuel (quote key ++ ':' :: (print value ++ (printMembers members ++ rest))) =
      some ((key, value) :: members, rest) := by
  have colon : ∀ tail, skipBlanks (':' :: tail) = ':' :: tail := fun _ => rfl
  have quoted : ∀ tail, skipBlanks ('"' :: tail) = '"' :: tail := fun _ => rfl
  induction members generalizing key value fuel with
  | nil =>
    obtain ⟨fuel, rfl⟩ : ∃ less, fuel = less + 1 := ⟨fuel - 1, by simp at enough; omega⟩
    have read := first fuel (printMembers [] ++ rest) (by simp at enough; omega) (delimited_printMembers [] rest)
    rw [quote_append, parseMembers, quoted]
    simp only [parseText_escape, Option.bind_eq_bind, Option.bind_some, colon, read, String.ofList_toList]
    rfl
  | cons next members ih =>
    obtain ⟨nextKey, nextValue⟩ := next
    obtain ⟨fuel, rfl⟩ : ∃ less, fuel = less + 1 := ⟨fuel - 1, by simp at enough; omega⟩
    have read := first fuel (printMembers ((nextKey, nextValue) :: members) ++ rest)
      (by simp at enough; omega) (delimited_printMembers _ rest)
    have short : (quote nextKey ++ ':' :: (print nextValue ++ printMembers members)).length ≤ fuel := by
      simp [printMembers] at enough ⊢
      omega
    have tail := ih (others _ List.mem_cons_self)
      (fun other member => others other (List.mem_cons_of_mem _ member)) short
    have comma : printMembers ((nextKey, nextValue) :: members) ++ rest =
        ',' :: (quote nextKey ++ ':' :: (print nextValue ++ (printMembers members ++ rest))) := by
      simp [printMembers]
    rw [quote_append, parseMembers, quoted]
    simp only [parseText_escape, Option.bind_eq_bind, Option.bind_some, colon, read, String.ofList_toList]
    have next : ∀ tail, skipBlanks (',' :: tail) = ',' :: tail := fun _ => rfl
    rw [comma, next]
    simp only [tail]
    rfl

theorem enough_print (enough : (print value).length ≤ fuel) : ∃ less, fuel = less + 1 := by
  obtain ⟨c, tail, written, _⟩ := print_starts value []
  rw [List.append_nil] at written
  exact ⟨fuel - 1, by rw [written] at enough; simp at enough; omega⟩

theorem reads_text (content : String) : Reads (text content) := by
  intro fuel rest enough _
  obtain ⟨fuel, rfl⟩ := enough_print enough
  have quoted : ∀ tail, skipBlanks ('"' :: tail) = '"' :: tail := fun _ => rfl
  rw [print, quote_append, parseValue, quoted]
  simp only [parseText_escape, Option.map_some, String.ofList_toList]

theorem reads_list {values : List Json} (each : ∀ value ∈ values, Reads value) : Reads (list values) := by
  intro fuel rest enough _
  obtain ⟨fuel, rfl⟩ := enough_print enough
  have bracket : ∀ tail, skipBlanks ('[' :: tail) = '[' :: tail := fun _ => rfl
  cases values with
  | nil => rfl
  | cons first values =>
    have short : (print first ++ printValues values).length ≤ fuel := by
      simp [print] at enough ⊢
      omega
    have read : parseValues fuel (print first ++ (printValues values ++ rest)) = _ :=
      parseValues_print (each first List.mem_cons_self)
        (fun value member => each value (List.mem_cons_of_mem _ member)) short
    have starts := print_starts first (printValues values ++ rest)
    rw [print, List.cons_append, List.append_assoc, parseValue, bracket]
    simp only [starts.skipBlanks]
    split
    next closes =>
      obtain ⟨c, tail, begins, _, open'⟩ := starts
      rw [begins] at closes
      exact absurd (List.cons.inj closes).1 open'
    next => rw [read]; rfl

theorem reads_object (each : ∀ member ∈ members, Reads member.2) : Reads (object members) := by
  intro fuel rest enough _
  obtain ⟨fuel, rfl⟩ := enough_print enough
  have brace : ∀ tail, skipBlanks ('\x7b' :: tail) = '\x7b' :: tail := fun _ => rfl
  have quoted : ∀ tail, skipBlanks ('"' :: tail) = '"' :: tail := fun _ => rfl
  rcases members with _ | ⟨⟨key, first⟩, members⟩
  · rfl
  · have short : (quote key ++ ':' :: (print first ++ printMembers members)).length ≤ fuel := by
      simp [print] at enough ⊢
      omega
    have read : parseMembers fuel (quote key ++ ':' :: (print first ++ (printMembers members ++ rest))) = _ :=
      parseMembers_print (each _ List.mem_cons_self)
        (fun member stands => each member (List.mem_cons_of_mem _ stands)) short
    have written : print (object ((key, first) :: members)) ++ rest =
        '\x7b' :: (quote key ++ ':' :: (print first ++ (printMembers members ++ rest))) := by
      simp [print]
    rw [written, parseValue, brace]
    simp only [read]
    rw [quote_append]
    rfl

mutual

theorem reads (value : Json) : Reads value := by
  match value with
  | null | bool true | bool false =>
    intro fuel rest enough _
    obtain ⟨fuel, rfl⟩ := enough_print enough
    rfl
  | nat n =>
    intro fuel rest enough delimited
    obtain ⟨fuel, rfl⟩ := enough_print enough
    exact parseValue_nat fuel n delimited
  | text content => exact reads_text content
  | list values => exact reads_list (reads_each values)
  | object members => exact reads_object (reads_members members)

theorem reads_each (values : List Json) : ∀ value ∈ values, Reads value := by
  match values with
  | [] => exact fun _ member => nomatch member
  | first :: values =>
    have head := reads first
    have tail := reads_each values
    intro value member
    rcases List.mem_cons.mp member with same | later
    · rw [same]; exact head
    · exact tail value later

theorem reads_members (members : List (String × Json)) : ∀ member ∈ members, Reads member.2 := by
  match members with
  | [] => exact fun _ member => nomatch member
  | (key, first) :: members =>
    have head := reads first
    have tail := reads_members members
    intro member stands
    rcases List.mem_cons.mp stands with same | later
    · rw [same]; exact head
    · exact tail member later

end

/-- What is written is read back. -/
theorem parse_print (value : Json) : parse (print value) = some value := by
  have read := reads value ((print value).length + 1) [] (Nat.le_succ _) (fun _ none => nomatch none)
  rw [List.append_nil] at read
  unfold parse
  rw [read]
  rfl

/-! ## What is written has no control characters -/

def Printable (output : List Char) : Prop := ∀ c ∈ output, 32 ≤ c.toNat

theorem printable_cons {output : List Char} (first : 32 ≤ c.toNat) (rest : Printable output) :
    Printable (c :: output) := List.forall_mem_cons.mpr ⟨first, rest⟩

theorem printable_append {front back : List Char} (first : Printable front) (rest : Printable back) :
    Printable (front ++ back) := List.forall_mem_append.mpr ⟨first, rest⟩

theorem hexDigit_printable (small : n < 16) : 32 ≤ (hexDigit n).toNat := by
  have all : ∀ n < 16, 32 ≤ (hexDigit n).toNat := by decide
  exact all n small

theorem printable_nil : Printable [] := fun _ member => nomatch member

theorem printable_of_all {output : List Char} (all : (output.all fun c => decide (32 ≤ c.toNat)) = true) :
    Printable output := fun c member => of_decide_eq_true (List.all_eq_true.mp all c member)

theorem escapeChar_printable (c : Char) : Printable (escapeChar c) := by
  unfold escapeChar
  split_ifs with _ _ _ _ _ _ _ isControl
  · exact printable_of_all rfl
  · exact printable_of_all rfl
  · exact printable_of_all rfl
  · exact printable_of_all rfl
  · exact printable_of_all rfl
  · exact printable_of_all rfl
  · exact printable_of_all rfl
  · have high := hexDigit_printable (n := c.toNat / 16) (by omega)
    have low := hexDigit_printable (n := c.toNat % 16) (by omega)
    have start : Printable ['\\', 'u', '0', '0'] := printable_of_all rfl
    exact printable_append start (printable_cons high (printable_cons low printable_nil))
  · exact printable_cons (Nat.le_of_not_lt isControl) printable_nil

theorem quote_printable (content : String) : Printable (quote content) := by
  have inside : Printable (content.toList.flatMap escapeChar) := by
    intro c member
    obtain ⟨source, _, written⟩ := List.mem_flatMap.mp member
    exact escapeChar_printable source c written
  exact printable_cons (by decide) (printable_append inside (printable_cons (by decide) printable_nil))

theorem printNat_printable (n : Nat) : Printable (printNat n) := by
  unfold printNat
  split
  next => exact printable_cons (by decide) printable_nil
  next =>
    intro c member
    obtain ⟨d, digit, rfl⟩ := List.mem_map.mp member
    have small : d < 10 := Nat.digits_lt_base (by decide) (List.mem_reverse.mp digit)
    exact hexDigit_printable (by omega)

mutual

theorem print_printable (value : Json) : Printable (print value) := by
  match value with
  | null | bool true | bool false | list [] | object [] => exact printable_of_all rfl
  | nat n => exact printNat_printable n
  | text content => exact quote_printable content
  | list (first :: values) =>
    exact printable_cons (by decide) (printable_append (print_printable first) (printValues_printable values))
  | object ((key, first) :: members) =>
    exact printable_cons (by decide) (printable_append (quote_printable key) (printable_cons (by decide)
      (printable_append (print_printable first) (printMembers_printable members))))

theorem printValues_printable (values : List Json) : Printable (printValues values) := by
  match values with
  | [] => exact printable_cons (by decide) printable_nil
  | first :: values =>
    exact printable_cons (by decide) (printable_append (print_printable first) (printValues_printable values))

theorem printMembers_printable (members : List (String × Json)) : Printable (printMembers members) := by
  match members with
  | [] => exact printable_cons (by decide) printable_nil
  | (key, first) :: members =>
    exact printable_cons (by decide) (printable_append (quote_printable key) (printable_cons (by decide)
      (printable_append (print_printable first) (printMembers_printable members))))

end

/-! ## Records -/

/-- An object whose fields without a value are left out. -/
def record (fields : List (String × Option Json)) : Json :=
  object (fields.filterMap fun field => field.2.map (field.1, ·))

/-- The value of a member, the last one where a key is repeated. -/
def member (key : String) : Json → Option Json
  | object members => (members.reverse.find? fun member => member.1 = key).map Prod.snd
  | _ => none

theorem find?_key (distinct : (members.map Prod.fst).Nodup) (stands : (key, value) ∈ members) :
    members.find? (fun member => member.1 = key) = some (key, value) := by
  cases found : members.find? (fun member => member.1 = key) with
  | none => exact absurd (List.find?_eq_none.mp found _ stands) (by simp)
  | some other =>
    have same : other.1 = key := by simpa using List.find?_some found
    exact congrArg some (List.inj_on_of_nodup_map distinct (List.mem_of_find?_eq_some found) stands same)

theorem fields_keys (fields : List (String × Option Json)) :
    ((fields.filterMap fun field => field.2.map (field.1, ·)).map Prod.fst).Sublist (fields.map Prod.fst) := by
  induction fields with
  | nil => exact .slnil
  | cons field fields ih =>
    obtain ⟨key, _ | value⟩ := field
    · exact ih.cons key
    · exact ih.cons_cons key

variable {fields : List (String × Option Json)}

theorem member_record (distinct : (fields.map Prod.fst).Nodup)
    {value : Option Json} (stands : (key, value) ∈ fields) : (record fields).member key = value := by
  simp only [record, member]
  cases value with
  | some value =>
    have written : (key, value) ∈ fields.filterMap fun field => field.2.map (field.1, ·) :=
      List.mem_filterMap.mpr ⟨_, stands, rfl⟩
    have reversed := List.nodup_reverse.mpr (distinct.sublist (fields_keys fields))
    rw [← List.map_reverse] at reversed
    rw [find?_key reversed (List.mem_reverse.mpr written)]
    rfl
  | none =>
    rw [Option.map_eq_none_iff, List.find?_eq_none]
    intro other member same
    obtain ⟨⟨name, content⟩, field, written⟩ := List.mem_filterMap.mp (List.mem_reverse.mp member)
    cases content with
    | none => cases written
    | some content =>
      obtain rfl := Option.some.inj written
      have equal := List.inj_on_of_nodup_map distinct field stands (by simpa using same)
      cases equal

/-! ## Sizes -/

theorem quote_length (content : String) : content.toList.length ≤ (quote content).length := by
  have escaped : ∀ chars : List Char, chars.length ≤ (chars.flatMap escapeChar).length := by
    intro chars
    induction chars with
    | nil => exact Nat.le_refl 0
    | cons c chars ih =>
      have one : 1 ≤ (escapeChar c).length := by
        unfold escapeChar
        split_ifs <;> simp
      rw [List.flatMap_cons, List.length_append, List.length_cons]
      omega
  have inside := escaped content.toList
  rw [quote, List.length_cons, List.length_append]
  omega

theorem printMembers_length
    (stands : (key, value) ∈ members) : (print value).length ≤ (printMembers members).length := by
  induction members with
  | nil => cases stands
  | cons first members ih =>
    obtain ⟨firstKey, firstValue⟩ := first
    simp only [printMembers, List.length_cons, List.length_append]
    rcases List.mem_cons.mp stands with same | later
    · cases same
      omega
    · have shorter := ih later
      omega

theorem record_length
    (stands : (key, some value) ∈ fields) : (print value).length ≤ (print (record fields)).length := by
  have written : (key, value) ∈ fields.filterMap fun field => field.2.map (field.1, ·) :=
    List.mem_filterMap.mpr ⟨_, stands, rfl⟩
  rw [record]
  cases members : fields.filterMap fun field => field.2.map (field.1, ·) with
  | nil => rw [members] at written; cases written
  | cons first members' =>
    rw [members] at written
    have shorter := printMembers_length written
    obtain ⟨firstKey, firstValue⟩ := first
    simp only [print, printMembers, List.length_cons, List.length_append] at shorter ⊢
    omega

end Json

end Advance.Foundation
