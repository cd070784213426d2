import IgnoreRules.Settings.Layers
import IgnoreRules.Text.Lowercase

/-!
# Settings from the environment

A variable `IGNOREPARSER_GROUP_NAME` gives a setting. Its name is read in lower case, and
the first underscore after the mark separates the group from the name of the setting,
both of which must not be empty. Of two variables for one setting the later holds.
-/

namespace IgnoreRules

/-- The variables, with their values, in order. -/
abbrev Environment := List (String × String)

namespace Environment

/-- What the names of variables that give settings start with. -/
def mark : String := "IGNOREPARSER_"

/-- The group and the name of the setting that a variable gives. -/
def settingOf? (variableName : String) : Option (String × String) :=
  if mark.toList.isPrefixOf variableName.toList then
    let words := Text.lower (variableName.toList.drop mark.length)
    let group := words.takeWhile (· != '_')
    let name := (words.dropWhile (· != '_')).drop 1
    if group.isEmpty || name.isEmpty then none
    else some (String.ofList group, String.ofList name)
  else none

/-- The value that a text gives: a truth value, a whole number, a decimal or the text. -/
def valueOf (text : String) : Value :=
  let word := String.ofList (Text.lower text.toList)
  if ["true", "yes", "1"].contains word then .bool true
  else if ["false", "no", "0"].contains word then .bool false
  else match Number.readInt? text.toList with
    | some number => .int number
    | none =>
      match Number.readDouble? text.toList with
      | some number => .real number
      | none => .text text

def putIn (groups : List (Value × Value)) (group name : String) (value : Value) :
    List (Value × Value) :=
  let known := match Value.lookup? groups group with
    | some (.map entries) => entries
    | _ => []
  Value.putEntry groups (.text group) (.map (Value.putEntry known (.text name) value))

def groups (environment : Environment) : List (Value × Value) :=
  environment.foldl (fun groups entry =>
    match settingOf? entry.1 with
    | some (group, name) => putIn groups group name (valueOf entry.2)
    | none => groups) []

/-- The document that the variables give, if any of them gives a setting. -/
def document? (environment : Environment) : Option Document :=
  let groups := environment.groups
  if groups.isEmpty then none else some (Settings.underRoot (.map groups)).at?

end Environment
end IgnoreRules
