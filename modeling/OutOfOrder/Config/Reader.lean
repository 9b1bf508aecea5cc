import OutOfOrder.Config
import OutOfOrder.Json.Shape

/-!
# Reading a configuration

A configuration text has three sections, each of which may be left out, in whole or in part. Keys
that mean nothing here are passed over.
-/

namespace OutOfOrder.Config

open Json

/-- A field that may be left out. -/
def setting {α : Type} (name : String) (value : Reader α) (set : Config → α → Config) :
    Reader.Field Config :=
  ⟨name, false, fun c => return set c (← value)⟩

def general : Reader.Shape Config where
  name := "GeneralConfig"
  strict := false
  fields :=
    [setting "trace" Reader.boolean fun c b => { c with tracing := b },
      setting "max_cycles" (Reader.unsigned "u64" 64) fun c n => { c with maxCycles := n }]

def pipeline : Reader.Shape Config where
  name := "PipelineConfig"
  strict := false
  fields :=
    [setting "rs_entries" (Reader.unsigned "usize" 64) fun c n => { c with stationEntries := n },
      setting "rob_entries" (Reader.unsigned "usize" 64) fun c n => { c with bufferEntries := n },
      setting "tag_bits" (Reader.unsigned "u32" 32) fun c n => { c with tagBits := n }]

def branchPredictor : Reader.Shape Config where
  name := "BranchPredictorConfig"
  strict := false
  fields :=
    [setting "initial_state" (Reader.unsigned "u8" 8) fun c n => { c with predictorState := n }]

def sections : Reader.Shape Config where
  name := "Config"
  strict := false
  fields :=
    [⟨"general", false, general.read⟩, ⟨"pipeline", false, pipeline.read⟩,
      ⟨"branch_predictor", false, branchPredictor.read⟩]

/-- Reads a configuration. What the text leaves out has its default. -/
def ofText (text : String) : Except Json.Error Config := Reader.document (sections.read {}) text

end OutOfOrder.Config
