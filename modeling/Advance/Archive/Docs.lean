import Advance.Archive.Projection

/-! # Documentation of a spec

The markdown an archive writes beside each spec, with the default options.
-/

namespace Advance.Archive

open Types

def getPriorityBadge : Priority → String
  | .must => "**[MUST]**"
  | .should => "**[SHOULD]**"
  | .may => "**[MAY]**"

/-- A heading, its items and a blank line, nothing for no items. -/
def bulletSection (heading : String) (items : List String) : List String :=
  if 0 < items.length then [heading] ++ items.map ("- " ++ ·) ++ [""] else []

def generateScenarioSection (scenario : Scenario) : List String :=
  ["**" ++ scenario.title ++ "** (`" ++ scenario.id ++ "`)", ""] ++ bulletSection "**Given:**" scenario.given ++
    ["**When:** " ++ scenario.whenText, ""] ++
    bulletSection "**Then:**" scenario.thenTexts

def generateRequirementSection (requirement : Requirement) : List String :=
  let tags := requirement.tags.getD []
  let scenarios := requirement.scenarios.getD []
  ["### " ++ requirement.title, "", "**ID:** `" ++ requirement.id ++ "` | **Priority:** " ++
      getPriorityBadge requirement.priority, "",
    requirement.body, ""] ++
    (if 0 < tags.length then
      ["**Tags:** " ++ ", ".intercalate (tags.map fun tag => "`" ++ tag ++ "`"), ""]
    else []) ++
    (if 0 < scenarios.length then
      ["#### Scenarios", ""] ++ scenarios.flatMap generateScenarioSection
    else []) ++
    ["---", ""]

/-- The day of an ISO date, the text itself where it is none. -/
def formatDate (platform : Platform) (isoDate : String) : String :=
  (platform.isoDay isoDate).getD isoDate

def generateSpecDoc (platform : Platform) (spec : Spec) : String :=
  "\n".intercalate ( ["# " ++ spec.title, "", "> **Version:** " ++ spec.version,
      "> **Updated:** " ++ formatDate platform spec.updated_at, "", "## Purpose", "", spec.purpose, "",
      "## Requirements", ""] ++
    if spec.requirements.length = 0 then ["*No requirements defined.*", ""]
    else spec.requirements.flatMap generateRequirementSection)

end Advance.Archive
