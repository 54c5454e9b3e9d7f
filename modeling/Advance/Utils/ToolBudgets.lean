import Advance.JavaScript.Value

/-! # Host-tool budgets for lock waits -/

namespace Advance.Utils

open Advance.JavaScript

def DEFAULT_TOOL_TIMEOUT_MS : JsNumber := 10000

def TOOL_RESPONSE_HEADROOM_MS : JsNumber := 199

def LOCK_ACQUISITION_DEADLINE_BUDGET_MS : JsNumber :=
  DEFAULT_TOOL_TIMEOUT_MS - TOOL_RESPONSE_HEADROOM_MS

def DEFAULT_LOCK_BUDGET_MS : JsNumber := 15000

def deriveLockBudgetMs (requestedMs remainingOuterBudgetMs : Option JsNumber) : JsNumber :=
  let requested := requestedMs.getD DEFAULT_LOCK_BUDGET_MS
  match remainingOuterBudgetMs with
  | none => max 0 requested
  | some remaining =>
    let ceiling := min LOCK_ACQUISITION_DEADLINE_BUDGET_MS (remaining - TOOL_RESPONSE_HEADROOM_MS)
    max 0 (min requested ceiling)

end Advance.Utils
