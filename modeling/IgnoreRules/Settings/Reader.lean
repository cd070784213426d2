import IgnoreRules.ValueGraph
import IgnoreRules.Yaml.Error

/-!
# Reading a document of settings

A document of settings is read by a library, which decides what a scalar is worth, how deep
collections may nest and which of several faults is found. What it makes of the bytes of a
file is left open here: whatever loads settings takes a reader as an instance.

The text of a value may hold half of a surrogate pair, as no text does here. A look-up does
not tell one text from another, so a reader may give any value for such a one. Where it is
to name a file or an encoding, one with a NUL can stand for it, as both name none.
-/

namespace IgnoreRules.Settings

/-- What reads documents of settings. -/
class Reader where
  /-- The values of the document in the bytes of a file, which are text in UTF-8. -/
  read (bytes : ByteArray) : Except Yaml.Error ValueGraph

end IgnoreRules.Settings
