import Advance.Types.Changes

/-! # Gates

Seven gates in a fixed order; a gate can be completed when all before it are done.
-/

namespace Advance.Types

inductive GateId where
  | proposal
  | discovery
  | design
  | planning
  | execution
  | acceptance
  | release
  deriving DecidableEq

namespace GateId

def text : GateId → String
  | proposal => "proposal"
  | discovery => "discovery"
  | design => "design"
  | planning => "planning"
  | execution => "execution"
  | acceptance => "acceptance"
  | release => "release"

def order : List GateId := [proposal, discovery, design, planning, execution, acceptance, release]

/-- `GATE_ORDER.indexOf(gateId)` -/
def index (gateId : GateId) : Nat := order.idxOf gateId

@[simp] theorem mem_order (gateId : GateId) : gateId ∈ order := by cases gateId <;> decide

def before (gateId : GateId) : List GateId := order.take gateId.index

theorem mem_before {gateId other : GateId} : other ∈ gateId.before ↔ other.index < gateId.index := by
  cases gateId <;> cases other <;> decide

end GateId

inductive GateStatus where
  | pending
  | in_progress
  | awaiting_approval
  | stuck
  | done
  deriving DecidableEq

def GateStatus.text : GateStatus → String
  | pending => "pending"
  | in_progress => "in_progress"
  | awaiting_approval => "awaiting_approval"
  | stuck => "stuck"
  | done => "done"

structure GateCompletion where
  status : GateStatus
  completed_at : Option String
  completed_by : Option String
  approval_evidence : Option String
  deriving DecidableEq

def GateCompletion.pending : GateCompletion := ⟨.pending, none, none, none⟩

/-- The record of every gate; one that is missing is read as pending. -/
abbrev Gates := GateId → GateCompletion

def createDefaultGates : Gates := fun _ => .pending

/-- `isGateSatisfied` -/
def GateCompletion.isSatisfied (gate : GateCompletion) : Bool := gate.status = .done

def canCompleteGate (gates : Gates) (gateId : GateId) : Bool :=
  gateId.before.all fun earlier => (gates earlier).isSatisfied

def blockedBy (gates : Gates) (gateId : GateId) : List GateId :=
  gateId.before.filter fun earlier => (gates earlier).status ≠ .done

theorem canCompleteGate_iff {gates : Gates} {gateId : GateId} : canCompleteGate gates gateId = true ↔
      ∀ earlier : GateId, earlier.index < gateId.index → (gates earlier).status = .done := by
  simp [canCompleteGate, GateCompletion.isSatisfied, GateId.mem_before]

end Advance.Types
