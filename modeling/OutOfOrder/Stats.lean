/-!
# Statistics

What a core counts while it runs. The counters only grow.
-/

namespace OutOfOrder

structure Stats where
  cycles : Nat := 0
  dispatched : Nat := 0
  issued : Nat := 0
  retired : Nat := 0
  broadcasts : Nat := 0
  /-- Operand slots filled by a broadcast. -/
  woken : Nat := 0
  /-- Operand slots filled at dispatch from the reorder buffer. -/
  forwarded : Nat := 0
  /-- Operand slots filled at dispatch from the committed results. -/
  committed : Nat := 0
  aluIssued : Nat := 0
  branchIssued : Nat := 0
  predicted : Nat := 0
  mispredicted : Nat := 0
  stationStalls : Nat := 0
  bufferStalls : Nat := 0
  retireStalls : Nat := 0
  issueIdle : Nat := 0
deriving DecidableEq

end OutOfOrder
