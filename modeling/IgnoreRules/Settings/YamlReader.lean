import IgnoreRules.Files.Portions
import IgnoreRules.Settings.Reader
import IgnoreRules.Yaml.Document

/-!
# The reader of YAML documents

The reader that programs run with. It puts U+FFFD for half of a surrogate pair, and it gives
up on collections that nest deeper than a fixed number. What is stated of settings in
general is stated of every reader, and does not rest on either.
-/

namespace IgnoreRules.Settings

/-- The text of a file of settings, which breaks off in front of a portion that holds what
no document holds or is no text at all. -/
def inputOf (bytes : ByteArray) : Yaml.Input :=
  let (portions, problem) := Files.portionsOf bytes
  Yaml.Input.ofPortions portions (problem.map fun _ => .unreadable)

instance yamlReader : Reader where
  read bytes := Yaml.read (inputOf bytes)

end IgnoreRules.Settings
