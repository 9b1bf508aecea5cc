import OutOfOrder.Config.Error
import OutOfOrder.Operation

/-!
# The branch unit

A counter from 0 to 3 predicts a branch to be taken from 2 upwards. It moves one step towards each
outcome and stops at either end, so one odd outcome after a long run does not turn the prediction.
-/

namespace OutOfOrder

structure BranchOutcome where
  predicted : Bool
  taken : Bool
deriving DecidableEq

def BranchOutcome.mispredicted (o : BranchOutcome) : Bool := o.predicted != o.taken

structure Counter where
  state : Nat
  state_le : state ≤ 3
deriving DecidableEq

namespace Counter

def zero : Counter := ⟨0, by decide⟩

def ofState (n : Nat) : Except ConfigError Counter :=
  if h : n ≤ 3 then .ok ⟨n, h⟩ else .error (.predictorState n)

def predict (c : Counter) : Bool := 2 ≤ c.state

def update (c : Counter) (taken : Bool) : Counter :=
  if taken then ⟨min (c.state + 1) 3, Nat.min_le_right ..⟩
  else ⟨c.state - 1, Nat.le_trans (Nat.sub_le ..) c.state_le⟩

/-- Settles a branch: the prediction stands before the counter learns the outcome. -/
def resolve (c : Counter) (condition : BranchCondition) (flags : Int32) :
    BranchOutcome × Counter :=
  let taken := condition.taken flags
  (⟨c.predict, taken⟩, c.update taken)

end Counter

end OutOfOrder
