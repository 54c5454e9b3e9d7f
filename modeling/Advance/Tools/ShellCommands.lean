import Advance.JavaScript.Path
import Mathlib.Data.List.DropRight

/-! # Shell commands

Sequences of simple commands as the shell reads them: words with their quotes, redirections, the
operators between commands, the text that each is written as, and the paths that `rm`, `cp`, `mv`,
`tee`, `sed -i` and redirections write or delete. Any other command writes by its redirections
only, and stays in its directory.
-/

namespace Advance.Tools

open Advance.JavaScript

/-! ## Words -/

inductive Quoting where
  | bare
  | single
  | double
  deriving DecidableEq

/-- Without a meaning of its own outside quotes. -/
def isLiteralChar (c : Char) : Bool :=
  !" \t\n|&;<>()$\\\"'*?[\x7b".toList.contains c && c.toNat ≠ 96

/-- Without a meaning of its own between double quotes. -/
def isDoubleQuotable (c : Char) : Bool := !"\"$\\".toList.contains c && c.toNat ≠ 96

/-- How a literal can be written: bare it is no comment and names no home directory. -/
def Spellable : Quoting → List Char → Prop
  | .bare, text => text ≠ [] ∧ (∀ c ∈ text, isLiteralChar c = true) ∧ text.head? ≠ some '#' ∧ text.head? ≠ some '~'
  | .single, text => '\'' ∉ text
  | .double, text => ∀ c ∈ text, isDoubleQuotable c = true

theorem spellable_bare (text : List Char) : Spellable .bare text ↔
    text ≠ [] ∧ text.all isLiteralChar = true ∧ text.head? ≠ some '#' ∧ text.head? ≠ some '~' := by
  rw [Spellable, List.all_eq_true]

theorem spellable_double (text : List Char) : Spellable .double text ↔ text.all isDoubleQuotable = true := by
  rw [Spellable, List.all_eq_true]

instance : (quoting : Quoting) → (text : List Char) → Decidable (Spellable quoting text)
  | .bare, text => decidable_of_iff _ (spellable_bare text).symm
  | .single, text => inferInstanceAs (Decidable ('\'' ∉ text))
  | .double, text => decidable_of_iff _ (spellable_double text).symm

structure Word where
  quoting : Quoting
  text : List Char
  spellable : Spellable quoting text

def quoted (quote : Char) (text : List Char) : List Char := quote :: (text ++ [quote])

def Word.spelled (word : Word) : List Char :=
  match word.quoting with
  | .bare => word.text
  | .single => quoted '\'' word.text
  | .double => quoted '"' word.text

/-! ## Redirections and commands -/

def isBlank (c : Char) : Bool := c = ' ' || c = '\t'

/-- Blanks between the parts of a command. -/
abbrev Blanks := { text : List Char // ∀ c ∈ text, isBlank c = true }

inductive Operator where
  /-- `>` and `>>` -/
  | write (append : Bool)
  /-- `>|` -/
  | clobber
  /-- `&>` and `&>>` -/
  | writeBoth (append : Bool)
  deriving DecidableEq

def Operator.text : Operator → List Char
  | .write append => if append then ['>', '>'] else ['>']
  | .clobber => ['>', '|']
  | .writeBoth append => '&' :: if append then ['>', '>'] else ['>']

/-- A redirection, of the descriptor with a number or of the standard output. -/
structure Redirection where
  descriptor : List Char
  operator : Operator
  space : Blanks
  target : Word
  digits : ∀ c ∈ descriptor, c.isDigit = true
  undescribed : (∃ append, operator = .writeBoth append) → descriptor = []

def Redirection.operatorText (redirection : Redirection) : List Char :=
  redirection.descriptor ++ redirection.operator.text

def Redirection.spelled (redirection : Redirection) : List Char :=
  redirection.operatorText ++ redirection.space.val ++ redirection.target.spelled

inductive Piece where
  | word (word : Word)
  | redirection (redirection : Redirection)

def Piece.spelled : Piece → List Char
  | .word own => own.spelled
  | .redirection own => own.spelled

def Piece.lastWord : Piece → Word
  | .word own => own
  | .redirection own => own.target

structure SpacedPiece where
  gap : Blanks
  piece : Piece

/-- What can follow a piece: anything after a blank, and without one a redirection, which takes no
    number from before it. -/
def Follows (previous next : SpacedPiece) : Prop :=
  next.gap.val ≠ [] ∨ ∃ redirection, next.piece = .redirection redirection ∧ redirection.descriptor = [] ∧
    ¬ ∀ c ∈ previous.piece.lastWord.spelled, c.isDigit = true

def wordOf (spaced : SpacedPiece) : Option Word :=
  match spaced.piece with
  | .word word => some word
  | .redirection _ => none

def redirectionOf (spaced : SpacedPiece) : Option Redirection :=
  match spaced.piece with
  | .word _ => none
  | .redirection redirection => some redirection

/-- A simple command, that begins with no assignment. -/
structure SimpleCommand where
  pieces : List SpacedPiece
  after : Blanks
  nonempty : pieces ≠ []
  follow : pieces.IsChain Follows
  unassigned : ∀ word ∈ (pieces.filterMap wordOf).head?, '=' ∉ word.text

def SpacedPiece.text (spaced : SpacedPiece) : List Char := spaced.gap.val ++ spaced.piece.spelled

def SimpleCommand.text (command : SimpleCommand) : List Char :=
  command.pieces.flatMap SpacedPiece.text ++ command.after.val

def SimpleCommand.words (command : SimpleCommand) : List Word := command.pieces.filterMap wordOf

def SimpleCommand.redirections (command : SimpleCommand) : List Redirection :=
  command.pieces.filterMap redirectionOf

/-- What joins two commands. -/
inductive Joint where
  | andIf
  | orIf
  | semicolon
  | pipe
  | background
  | newline
  deriving DecidableEq

def Joint.text : Joint → List Char
  | .andIf => ['&', '&']
  | .orIf => ['|', '|']
  | .semicolon => [';']
  | .pipe => ['|']
  | .background => ['&']
  | .newline => ['\n']

structure CommandLine where
  first : SimpleCommand
  rest : List (Joint × SimpleCommand)

def followingText (rest : List (Joint × SimpleCommand)) : List Char :=
  rest.flatMap fun joined => joined.1.text ++ joined.2.text

def CommandLine.text (line : CommandLine) : List Char := line.first.text ++ followingText line.rest

def CommandLine.commands (line : CommandLine) : List SimpleCommand := line.first :: line.rest.map Prod.snd

/-! ## What commands write -/

/-- The paths that words name in a directory; an empty word names none. -/
def pathsOf (directory : String) (texts : List (List Char)) : List String :=
  (texts.filter fun text => !text.isEmpty).map fun text => resolve directory (String.ofList text)

/-- An argument as its command reads it. -/
inductive Argument where
  | option (name : List Char) (value : Option (List Char))
  | operand (text : List Char)

def isOption (text : List Char) : Bool := ['-'].isPrefixOf text && text ≠ ['-']

/-- The arguments of a command, with the options that take the next word; those after `--` are
    operands. -/
def readArguments (takesValue : List Char → Bool) : List (List Char) → List Argument
  | [] => []
  | [text] => if text = ['-', '-'] then [] else if isOption text then [.option text none] else [.operand text]
  | text :: next :: rest =>
    if text = ['-', '-'] then .operand next :: rest.map .operand
    else if isOption text then
      if takesValue text then .option text (some next) :: readArguments takesValue rest
      else .option text none :: readArguments takesValue (next :: rest)
    else .operand text :: readArguments takesValue (next :: rest)

def operandsOf (arguments : List Argument) : List (List Char) :=
  arguments.filterMap fun argument =>
    match argument with
    | .operand text => some text
    | .option _ _ => none

/-- What follows a beginning, when something does. -/
def attached (beginning text : List Char) : Option (List Char) :=
  if beginning.isPrefixOf text && beginning ≠ text then some (text.drop beginning.length) else none

/-- The directory of `-t` or `--target-directory`. -/
def targetDirectory (arguments : List Argument) : Option (List Char) :=
  arguments.findSome? fun argument =>
    match argument with
    | .option name (some value) =>
      if name = "-t".toList || name = "--target-directory".toList then some value else none
    | .option name none =>
      if ['-', '-'].isPrefixOf name then attached "--target-directory=".toList name else attached "-t".toList name
    | .operand _ => none

def copyTakesValue (text : List Char) : Bool :=
  ["-t", "--target-directory", "-S", "--suffix"].any fun name => name.toList = text

def editTakesValue (text : List Char) : Bool :=
  ["-e", "--expression", "-f", "--file", "-l", "--line-length"].any fun name => name.toList = text

/-- What `cp` writes: its target directory, or the last of two or more operands. -/
def copiedTo (arguments : List Argument) : List (List Char) :=
  match targetDirectory arguments, operandsOf arguments with
  | some directory, _ => [directory]
  | none, _ :: second :: rest => [(second :: rest).getLast (List.cons_ne_nil _ _)]
  | none, _ => []

/-- What `mv` deletes and writes. -/
def movedBetween (arguments : List Argument) : List (List Char) :=
  match targetDirectory arguments, operandsOf arguments with
  | some directory, sources => directory :: sources
  | none, source :: target :: others => source :: target :: others
  | none, _ => []

def isInPlace (argument : Argument) : Bool :=
  match argument with
  | .option name _ => ['-', 'i'].isPrefixOf name || "--in-place".toList.isPrefixOf name
  | .operand _ => false

/-- The script of `sed` is an option, not its first operand. -/
def givesScript (argument : Argument) : Bool :=
  match argument with
  | .option name _ =>
    ["-e", "-f", "--expression", "--file"].any fun script => script.toList.isPrefixOf name
  | .operand _ => false

/-- The suffix of the copies that `sed` keeps. -/
def backupSuffix (arguments : List Argument) : Option (List Char) :=
  arguments.findSome? fun argument =>
    match argument with
    | .option name _ => attached "-i".toList name <|> attached "--in-place=".toList name
    | .operand _ => none

/-- The copy of a file: the suffix after its name, or the suffix with the name at each `*`. -/
def backupOf (suffix file : List Char) : List Char :=
  if '*' ∈ suffix then
    let name := file.rtakeWhile fun c => c ≠ '/'
    let copied := suffix.flatMap fun c => if c = '*' then name else [c]
    if '/' ∈ copied then copied else (file.rdropWhile fun c => c ≠ '/') ++ copied
  else file ++ suffix

def editedInPlace (arguments : List Argument) : List (List Char) :=
  if arguments.any isInPlace then
    let files := if arguments.any givesScript then operandsOf arguments else (operandsOf arguments).tail
    files ++ ((backupSuffix arguments).map fun suffix => files.map (backupOf suffix)).getD []
  else []

/-- What a command writes or deletes by its name and arguments. -/
def writtenByName (name : List Char) (args : List (List Char)) : List (List Char) :=
  if name = "rm".toList || name = "tee".toList then operandsOf (readArguments (fun _ => false) args)
  else if name = "cp".toList then copiedTo (readArguments copyTakesValue args)
  else if name = "mv".toList then movedBetween (readArguments copyTakesValue args)
  else if name = "sed".toList then editedInPlace (readArguments editTakesValue args)
  else []

def SimpleCommand.writtenTexts (command : SimpleCommand) : List (List Char) :=
  command.redirections.map (fun redirection => redirection.target.text) ++
    match command.words.map Word.text with
    | [] => []
    | name :: args => writtenByName name args

def CommandLine.writes (directory : String) (line : CommandLine) : List String :=
  line.commands.flatMap fun command => pathsOf directory command.writtenTexts

end Advance.Tools
