import OutOfOrder.Decimal.Fixed
import OutOfOrder.Stats
import OutOfOrder.Text.Layout

/-!
# The statistics report

Four sections under one banner. Ratios are doubles: rates per cycle have four places, shares of a
whole are percentages with two. A whole of nothing counts as one, so that an idle core has no
share of anything.
-/

namespace OutOfOrder

namespace Stats

/-! ## Ratios -/

/-- A counter as the nearest double. -/
def toDouble (n : Nat) : Float := n.toUInt64.toFloat

def ratio (part whole : Nat) : Float := toDouble part / toDouble (max whole 1)

def percent (part whole : Nat) : Float := ratio part whole * 100

/-- Instructions retired per cycle. -/
def ipc (s : Stats) : Float := ratio s.retired s.cycles

def cyclesPerInstruction (s : Stats) : Float := ratio (max s.cycles 1) s.retired

def lookups (s : Stats) : Nat := s.predicted + s.mispredicted

/-- The share of branches that were predicted right, in percent. -/
def branchAccuracy (s : Stats) : Float :=
  if s.lookups = 0 then 0 else percent s.predicted s.lookups

/-! ## Sections -/

inductive Section
  | summary
  | pipeline
  | instructionMix
  | branch
deriving DecidableEq

namespace Section

def all : List Section := [summary, pipeline, instructionMix, branch]

def name : Section → String
  | summary => "summary"
  | pipeline => "pipeline"
  | instructionMix => "instruction_mix"
  | branch => "branch"

end Section

def entry (name value : String) : String := Text.padRight 25 name ++ value

def count (name : String) (n : Nat) : String := entry name (toString n)

/-- A count with its share of a whole. -/
def share (name : String) (part whole : Nat) : String :=
  entry name s!"{part} ({Decimal.fixed 2 (percent part whole)}%)"

def sectionLines (s : Stats) : Section → List String
  | .summary =>
    [count "sim_cycles" s.cycles,
      count "sim_insts" s.retired,
      entry "sim_ipc" (Decimal.fixed 4 s.ipc),
      entry "sim_cpi" (Decimal.fixed 4 s.cyclesPerInstruction)]
  | .pipeline =>
    ["PIPELINE",
      count "  dispatched" s.dispatched,
      count "  issued" s.issued,
      count "  broadcasts" s.broadcasts,
      count "  operands.woken" s.woken,
      count "  operands.forwarded" s.forwarded,
      count "  operands.committed" s.committed,
      share "  stalls.rs_full" s.stationStalls s.cycles,
      share "  stalls.rob_full" s.bufferStalls s.cycles,
      share "  stalls.retire" s.retireStalls s.cycles,
      share "  issue.idle" s.issueIdle s.cycles]
  | .instructionMix =>
    ["INSTRUCTION MIX",
      share "  op.alu" s.aluIssued s.issued,
      share "  op.branch" s.branchIssued s.issued]
  | .branch =>
    ["BRANCH PREDICTION",
      count "  bp.lookups" s.lookups,
      count "  bp.mispredicts" s.mispredicted,
      entry "  bp.accuracy" (Decimal.fixed 2 s.branchAccuracy ++ "%")]

/-! ## The whole report -/

def rule : String := "".pushn '-' 58

def banner : String := "".pushn '=' 58

/-- The sections that are named, in their own order, or all of them if none is named. -/
def report (s : Stats) (names : List String) : String :=
  let wanted := Section.all.filter fun x => names.isEmpty || names.contains x.name
  Text.lines
    (["", banner, "TOMASULO CORE SIMULATION STATISTICS", banner] ++
      wanted.flatMap (fun x => s.sectionLines x ++ [rule]) ++ [banner])

end Stats

end OutOfOrder
