import OutOfOrder.Command
import OutOfOrder.Config.Reader
import OutOfOrder.Program.Reader
import OutOfOrder.Simulator
import OutOfOrder.Stats.Report

/-!
# Carrying commands out

What a command prints, and with which code it ends: 0 when the run finished, 1 when something was
wrong with its files or the run was cut short, 2 when the command line made no sense.
-/

namespace OutOfOrder

structure Output where
  code : Nat
  stdout : String
  stderr : String
deriving DecidableEq

namespace Output

def failure (message : String) : Output := ⟨1, "", message ++ "\n"⟩

def usage : String :=
  Text.lines
    ["Usage: tomasulo demo [--stats SECTION...] [--trace]",
      "       tomasulo run --program FILE [--config FILE] [--stats SECTION...] [--trace]"]

/-- What came before stays printed, whatever follows. -/
def after (printed : String) (o : Output) : Output := { o with stdout := printed ++ o.stdout }

end Output

/-! ## Runs -/

def Config.summary (c : Config) : String :=
  Text.lines
    ["Configuration:",
      s!"  RS: {c.stationEntries} entries  ROB: {c.bufferEntries} slots  " ++
        s!"Tags: {c.tagBits} bits  Max cycles: {c.maxCycles}",
      ""]

/-- A retired entry in the log of a run. -/
def ReorderBuffer.Entry.text (e : ReorderBuffer.Entry) : String :=
  let mnemonic := (e.opcode.decode.map Operation.mnemonic).getD "?"
  s!"  {Text.padRight 5 e.tag.text} {Text.padRight 4 mnemonic} " ++
    s!"value {Text.padLeft 11 (toString e.outcome.value.toInt)}  " ++
      s!"flags {Text.hex 8 e.outcome.flags.toUInt32.toNat}"

namespace Simulator.Run

/-- The cycles, what retired, and the statistics. -/
def text (r : Simulator.Run) (sections : List String) : String :=
  Text.lines (r.reports.toList.map (·.text)) ++
    Text.lines (["", "Retired:"] ++ r.simulator.retired.toList.map (·.text)) ++
      r.simulator.core.stats.report sections

def output (r : Simulator.Run) (sections : List String) : Output :=
  match r.outcome with
  | .ok _ => ⟨0, r.text sections, ""⟩
  | .error e => ⟨1, r.text sections, s!"\n[!] {e.message}\n"⟩

end Simulator.Run

namespace Command

/-- Simulates a program under a configuration. -/
def simulate (config : Config) (program : Program) (options : Options) : Output :=
  let config := { config with tracing := config.tracing || options.tracing }
  .after config.summary <|
    match Simulator.ofConfig config program with
    | .error e => .failure s!"Error: {e.message}"
    | .ok s => s.run.output options.sections

def loadConfig (files : Files) (path : String) : Except String Config :=
  match files path with
  | .error e => .error s!"Error reading config {path}: {e.message}"
  | .ok text =>
    match Config.ofText text with
    | .error e => .error s!"Error parsing config {path}: {e.message}"
    | .ok c => .ok c

/-- The configuration and the program that a command runs. -/
def load (files : Files) (program : String) (options : Options) :
    Except String (Config × Program) := do
  let config ←
    match options.config with
    | none => pure {}
    | some path => loadConfig files path
  let space ← config.tagSpace.mapError fun e => s!"Error: {e.message}"
  let program ← (Program.ofFile space files program).mapError fun e => s!"Error: {e.message}"
  return (config, program)

def execute (files : Files) : Command → Output
  | version => ⟨0, "tomasulo 0.3.0\n", ""⟩
  | help => ⟨0, Output.usage, ""⟩
  | demo options => simulate {} .demo options
  | run program options =>
    match load files program options with
    | .error message => .failure message
    | .ok (config, program) => simulate config program options

/-- The files that a command line names. -/
def paths (arguments : List String) : List String :=
  match read arguments with
  | .ok (run program options) => program :: options.config.toList
  | _ => []

/-- Reads a command line and carries it out. -/
def answer (files : Files) (arguments : List String) : Output :=
  match read arguments with
  | .error e => ⟨2, "", s!"error: {e.message}\n" ++ Output.usage⟩
  | .ok command => command.execute files

end Command

end OutOfOrder
