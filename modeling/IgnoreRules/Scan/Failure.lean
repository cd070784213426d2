import IgnoreRules.Files.Codec
import IgnoreRules.Files.Tree
import IgnoreRules.Log.Logger
import IgnoreRules.Regex.ClassSyntax
import IgnoreRules.Yaml.Error

/-!
# Failures

Everything that can keep rules from being read, settings from being loaded or a directory
from being listed, by its cause.
-/

namespace IgnoreRules

inductive SettingsProblem
  | notFound
  | malformed
  /-- The file is there, and the system does not let it be read. -/
  | unreadable (problem : Files.FileError) (path : Files.Path)
  | notMap
  deriving DecidableEq, Repr

inductive Failure
  | directoryNotFound (path : String)
  /-- The directory that a rule file is for does not exist. -/
  | noRuleDirectory (rulePath : String)
  | settings (problem : SettingsProblem) (path : String)
  | file (problem : Files.FileError) (path : Files.Path)
  | decoding (problem : Files.DecodeError)
  | unknownCodec (name : String)
  /-- A NUL is part of the name of an encoding. -/
  | codecHoldsNul (name : String)
  /-- A setting has a value of the wrong type. -/
  | wrongType
  /-- A setting has the form of a number or a date but no value. -/
  | scalar (fault : Yaml.ScalarFault)
  /-- Settings or directories are nested too deep. -/
  | tooDeep
  | regex (problem : Regex.SyntaxError)
  deriving DecidableEq, Repr

namespace SettingsProblem

def message (problem : SettingsProblem) (written : String) : String :=
  match problem with
  | .notFound => "Config file not found: " ++ written
  | .malformed => "YAML parse error in " ++ written
  | .unreadable problem path => "Error loading config " ++ written ++ ": " ++ problem.message path
  | .notMap => "Invalid config format in " ++ written

end SettingsProblem

namespace Failure

/-- The outcome of work on a file, where a failure names its path. -/
def ofFile (path : Files.Path) (outcome : Except Files.FileError α) : Except Failure α :=
  outcome.mapError (.file · path)

def message : Failure → String
  | .directoryNotFound path => "Directory not found: " ++ path
  | .noRuleDirectory path => "Couldn't find the parent directory for \"" ++ path ++ "\""
  | .settings problem path => problem.message path
  | .file problem path => problem.message path
  | .decoding _ => "Failed to decode rules"
  | .unknownCodec _ => "Failed to decode rules"
  | .codecHoldsNul _ => "The name of an encoding holds a NUL"
  | .wrongType => "A setting has a value of the wrong type"
  | .scalar .unknownWord | .scalar .noDigits => "Failed to decode rules"
  | .scalar _ => "A setting is no number or date"
  | .tooDeep => "Settings or directories are nested too deep"
  | .regex problem => problem.message

/-- The failure is reported to the user. -/
def isReported : Failure → Bool
  -- Others are faults of the settings' values, or of a text that lacks its byte order mark, and
  -- end the program.
  | .directoryNotFound _ | .noRuleDirectory _ | .settings _ _ => true
  | .file problem _ => problem.isReported
  | .decoding .malformed | .unknownCodec _ | .scalar .unknownWord | .scalar .noDigits => true
  | .decoding .noByteOrderMark | .codecHoldsNul _ | .wrongType | .scalar _ | .tooDeep => false
  | .regex _ => false

/-- The number that stands for the kind of a failure: 1 for bad input, 2 for what is
missing, 6 for what should not happen. -/
def code? : Failure → Option Nat
  | .directoryNotFound _ => some 2
  | .noRuleDirectory _ => some 2
  | .settings .notFound _ => some 2
  | .settings (.unreadable _ _) _ => some 6
  | .settings _ _ => some 1
  | _ => none

end Failure
end IgnoreRules
