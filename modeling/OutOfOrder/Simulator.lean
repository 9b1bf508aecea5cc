import OutOfOrder.Core.Step
import OutOfOrder.Program

/-!
# Simulation

A core with the program that is still to come and a log of what has retired. `Simulator.run` goes on
until nothing is left to do, the cycles are used up, or an instruction is refused.
-/

namespace OutOfOrder

structure Simulator where
  core : Core
  source : List Instruction
  retired : Array ReorderBuffer.Entry
  maxCycles : Nat

inductive SimulatorError
  | core (error : CoreError)
  | cycleLimit (cycles : Nat)
deriving DecidableEq

def SimulatorError.message : SimulatorError → String
  | core error => error.message
  | cycleLimit cycles => s!"simulation did not finish within {cycles} cycles"

namespace Simulator

def ofConfig (config : Config) (program : Program) : Except ConfigError Simulator :=
  (Core.ofConfig config).map fun core => ⟨core, program, #[], config.maxCycles⟩

def cycles (s : Simulator) : Nat := s.core.stats.cycles

def isFinished (s : Simulator) : Bool := s.source.isEmpty && s.core.isDrained

/-! ## One cycle -/

structure Tick where
  simulator : Simulator
  outcome : Except CoreError CycleReport
  events : List Event

def tick (s : Simulator) : Tick :=
  let c := s.core.step s.source
  ⟨{ s with
      core := c.core
      source := c.source
      retired := c.retired.elim s.retired s.retired.push },
    c.outcome, c.events⟩

/-! ## A run -/

/-- A run with the reports of its cycles. Its outcome is the cycle in which it finished. -/
structure Run where
  simulator : Simulator
  outcome : Except SimulatorError Nat
  reports : Array CycleReport
  events : Array Event

/-- Runs for at most `budget` cycles, after the reports and events so far. -/
def runFor (budget : Nat) (s : Simulator) (reports : Array CycleReport) (events : Array Event) :
    Run :=
  if s.isFinished then
    ⟨s, .ok s.cycles, reports, events.push (.finished s.cycles s.retired.size)⟩
  else
    match budget with
    | 0 => ⟨s, .error (.cycleLimit s.cycles), reports, events⟩
    | budget + 1 =>
      let t := s.tick
      let events := events ++ t.events
      match t.outcome with
      | .error e => ⟨t.simulator, .error (.core e), reports, events⟩
      | .ok report => t.simulator.runFor budget (reports.push report) events

/-- Every cycle counts towards the limit, those before the run too. -/
def run (s : Simulator) : Run := s.runFor (s.maxCycles - s.cycles) #[] #[]

end Simulator

end OutOfOrder
