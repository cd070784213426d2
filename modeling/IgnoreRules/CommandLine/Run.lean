import IgnoreRules.CommandLine.Outcome
import IgnoreRules.Files.Standard
import IgnoreRules.Settings.YamlReader
import IgnoreRules.Text.AsciiNames

/-!
# Runs of the program

A run of the program, with the encodings, the limit of walks, the reader of settings and the
names of characters that it has.
-/

namespace IgnoreRules.CommandLine

/-- What the program makes of a command line. -/
def runProgram (world : World) (words : List String) : Outcome := run world words

end IgnoreRules.CommandLine
