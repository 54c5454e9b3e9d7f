/-! # The status of a change -/

namespace Advance.Types

/-- `ChangeStatusSchema` -/
inductive ChangeStatus where
  | draft
  | archived
  | closed
  deriving DecidableEq

/-- `ChangeLifecycleStateSchema` -/
inductive ChangeLifecycleState where
  | opened
  | archived
  | closed
  deriving DecidableEq

/-- The change is finished. -/
def ChangeStatus.isTerminal : ChangeStatus → Bool
  | draft => false
  | archived | closed => true

end Advance.Types
