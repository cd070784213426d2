import IgnoreRules.Scan.RuleFile

/-!
# Filtering directories

The entries of a directory are split into those that a rule set keeps and those that it
does not. What lists the directory can be chosen.
-/

namespace IgnoreRules

open Files (Path)

abbrev Lister := Path → Action (List String)

def fileLister [Files.WalkLimit] : Lister := fun path => listFiles path.toText false

namespace Ruleset

def acceptedEntries (rules : Ruleset) (entries : List String) : List String :=
  (rules.accepted (entries.map String.toList)).map String.ofList

def deniedEntries (rules : Ruleset) (entries : List String) : List String :=
  (rules.denied (entries.map String.toList)).map String.ofList

def splitEntries (rules : Ruleset) (entries : List String) : List String × List String :=
  let (accepted, denied) := rules.split (entries.map String.toList)
  (accepted.map String.ofList, denied.map String.ofList)

def acceptedIn (rules : Ruleset) (directory : Path) (lister : Lister) : Action (List String) := do
  return rules.acceptedEntries (← lister directory)

def deniedIn (rules : Ruleset) (directory : Path) (lister : Lister) : Action (List String) := do
  return rules.deniedEntries (← lister directory)

end Ruleset

def filterDirectory [Text.CharacterNames] (content : List Char) (directory : Path)
    (lister : Lister) : Action (List String × List String) := do
  let rules ← compileRules content
  return rules.splitEntries (← lister directory)

/-- A directory and its entries, split into those that are kept and those that are not. -/
structure Filtering where
  directory : Path
  accepted : List String
  denied : List String
  deriving DecidableEq, Repr

/-- Split the entries of a directory by the rules of a file. -/
def filterByRuleFile [Text.CharacterNames] [Files.OtherCodecs] (rulePath : String)
    (encoding : Value) (directory : Option String) (lister : Lister) : Action Filtering := do
  -- Unless a directory is given, it is the one that holds the file.
  let directory ← match directory with
    | some written => pure (Path.ofText written)
    | none => ruleDirectory rulePath
  let rules ← loadRules (Path.ofText rulePath) encoding
  Action.within [("rule_file", .text rulePath)] do
    Action.log .debug "Filtering directory" [("directory", .text directory.toText)]
    let (accepted, denied) := rules.splitEntries (← lister directory)
    return ⟨directory, accepted, denied⟩

end IgnoreRules
