import OutOfOrder.Branch
import OutOfOrder.Tag

/-!
# Configuration

The sizes of the structures, the width of the tags, where the predictor starts and how long a run
may take. `Config.validate` refuses what the core cannot work with: above all, no more instructions
may be in flight than the tags can put in order.
-/

namespace OutOfOrder

structure Config where
  tracing : Bool := false
  maxCycles : Nat := 10000
  stationEntries : Nat := 4
  bufferEntries : Nat := 32
  tagBits : Nat := 8
  predictorState : Nat := 0
deriving DecidableEq

namespace Config

def tagSpace (c : Config) : Except ConfigError TagSpace := TagSpace.ofBits c.tagBits

/-- The first rule that the configuration breaks, if any. One cell of the reorder buffer stays
free, so it is the others that must fit the window. -/
def validate (c : Config) : Except ConfigError Unit :=
  if c.stationEntries = 0 then .error .emptyStation
  else if c.bufferEntries < 2 then .error (.bufferTooSmall c.bufferEntries)
  else
    match c.tagSpace with
    | .error e => .error e
    | .ok space =>
      if space.window < c.bufferEntries - 1 then
        .error (.tagWindow (c.bufferEntries - 1) space.window space.bits)
      else if 3 < c.predictorState then .error (.predictorState c.predictorState)
      else .ok ()

end Config

end OutOfOrder
