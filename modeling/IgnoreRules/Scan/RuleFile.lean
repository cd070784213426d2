import IgnoreRules.Files.Listing
import IgnoreRules.Ruleset.Messages
import IgnoreRules.Scan.Session

/-!
# Rule files and directories

Reading a rule file, finding the directory it is for, and listing a directory.
-/

namespace IgnoreRules

open Files (Path)

def readBytes (path : Path) : Action ByteArray := do
  Failure.ofFile path ((← Action.files).read path)

/-- The encoding of rule files that do not say otherwise. -/
def defaultEncoding : String := "utf-8"

/-- The name of the encoding that a setting asks for. -/
def encodingName : Value → Except Failure String
  | .null => .ok defaultEncoding
  | .text name => if name.toList.contains '\x00' then .error (.codecHoldsNul name) else .ok name
  | _ => .error .wrongType

/-- The text of bytes in an encoding that is given by its name. -/
def decodeAs [Files.OtherCodecs] (encoding : String) (bytes : ByteArray) :
    Except Failure (List Char) :=
  match Files.Codec.ofName? encoding with
  | some codec => (codec.decodeText bytes).mapError .decoding
  | none =>
    match Files.OtherCodecs.decoder? encoding with
    | some decode => ((decode bytes).map Text.unifyLineEnds).mapError .decoding
    | none => .error (.unknownCodec encoding)

/-- The text of a rule file, without a byte order mark at its start. -/
def readRules [Files.OtherCodecs] (path : Path) (encoding : Value) : Action (List Char) := do
  Action.log .debug "Reading rule file" [("path", .text path.toText), ("encoding", encoding)]
  let name ← encodingName encoding
  let text ← decodeAs name (← readBytes path)
  return Files.dropMark text

section Compiling

variable [Text.CharacterNames]

def compileRules (content : List Char) : Action Ruleset := do
  match Ruleset.ofContent content with
  | .ok rules => do
    Action.logAll rules.messages
    return rules
  | .error problem => do
    Action.logAll (RuleLines.ofContent content).warnings
    throw (.regex problem)

def loadRules [Files.OtherCodecs] (path : Path) (encoding : Value) : Action Ruleset := do
  compileRules (← readRules path encoding)

end Compiling

/-- The listing of a directory, which is given as it was written. -/
def listFiles [Files.WalkLimit] (written : String) (withDirectories : Bool) :
    Action (List String) := do
  let path := Path.ofText written
  let files ← Action.files
  let _ ← Failure.ofFile path (files.isDirectory path)
  match files.directory? path with
  | none => throw (.directoryNotFound written)
  | some node =>
    if !Files.WalkLimit.permits (node.walkDepth path.leadLength) then throw .tooDeep
    let entries := (node.walked path.leadLength).listing withDirectories
    Action.log .debug "Listed directory"
      [("directory", .text path.toText), ("entries", .int entries.length)]
    return entries

/-- The directory that a rule file is for: the one that holds it. -/
def ruleDirectory (written : String) : Action Path := do
  let files ← Action.files
  let path := Path.ofText written
  let expanded ← Failure.ofFile path (files.expandHome path)
  if expanded.holdsNul then throw (.file .holdsNul expanded)
  let resolved := files.resolve expanded
  let parent := Path.absolute resolved.names.dropLast
  if resolved.names.isEmpty then throw (.noRuleDirectory written)
  if !(← Failure.ofFile parent (files.isDirectory parent)) then throw (.noRuleDirectory written)
  return parent

end IgnoreRules
