import Mathlib.Data.List.Basic

/-! # Ids of changes

`generateChangeId` makes a camelCase id of the words of a summary.
-/

namespace Advance.Utils

/-- Grammatical words that add no meaning to an id. -/
def STOP_WORDS : List String :=
  ["a", "an", "the", "with", "for", "to", "in", "of", "from", "by", "on", "at", "into", "through", "during", "before",
    "after", "between", "about", "and", "or", "but", "so", "yet", "that", "this", "which", "some", "all", "also",
    "more", "very", "just", "comprehensive", "various", "properly", "correctly", "currently", "necessary",
    "appropriate", "relevant", "certain", "overall"]

def VERB_ALIASES : List (String × String) :=
  [("implement", "add"), ("introduce", "add"), ("incorporate", "add"), ("establish", "add")]

def ACTION_VERBS : List String :=
  ["add", "fix", "update", "remove", "delete", "refactor", "move", "rename", "replace", "migrate", "upgrade",
    "downgrade", "revert", "extract", "inline", "split", "merge", "simplify", "optimize", "improve", "enable",
    "disable", "drop", "deprecate", "swap", "create", "integrate"]

def MAX_ID_LENGTH : Nat := 30

def isWordCharacter (c : Char) : Bool :=
  ('a' ≤ c && c ≤ 'z') || ('A' ≤ c && c ≤ 'Z') || ('0' ≤ c && c ≤ '9')

def summaryWords (summary : String) : List (List Char) :=
  (summary.toList.splitOnP fun c => !isWordCharacter c).filter fun word => !word.isEmpty

def lowerWord (word : List Char) : List Char := word.map Char.toLower

def capitalWord : List Char → List Char
  | [] => []
  | first :: rest => first.toUpper :: lowerWord rest

/-- The words that fit, up to the first one that does not. -/
def appendWords (result : List Char) : List (List Char) → List Char
  | [] => result
  | word :: rest =>
    if MAX_ID_LENGTH < result.length + word.length then result else appendWords (result ++ word) rest

def camelCase : List (List Char) → List Char
  | [] => []
  | first :: rest =>
    let result := appendWords [] (lowerWord first :: rest.map capitalWord)
    if result.isEmpty then (lowerWord first).take MAX_ID_LENGTH else result

def isStopWord (word : List Char) : Bool := STOP_WORDS.any fun stop => stop.toList = lowerWord word

/-- The words that carry meaning; all of them where there are none. -/
def effectiveWords (keepFirst : Bool) (first : List Char) (rest : List (List Char)) : List (List Char) :=
  let filtered := (if keepFirst || !isStopWord first then [first] else []) ++ rest.filter fun word => !isStopWord word
  if filtered.isEmpty then first :: rest else filtered

/-- Nothing where the alias of the leading word is not a string, as that of `constructor`. -/
def generateChangeId (summary : String) : Option String :=
  match summaryWords summary with
  | [] => some "change"
  | first :: rest =>
    if lowerWord first = "constructor".toList then none
    else
      match VERB_ALIASES.find? fun entry => entry.1.toList = lowerWord first with
      | some entry => some (String.ofList (camelCase (effectiveWords true entry.2.toList rest)))
      | none =>
        let keepFirst := ACTION_VERBS.any fun verb => verb.toList = lowerWord first
        some (String.ofList (camelCase (effectiveWords keepFirst first rest)))

example : generateChangeId "Implement the search of Epics" = some "addSearchEpics" := by rfl

end Advance.Utils
