import IgnoreRules.Value

/-!
# Layered settings

Settings come from several sources, each of which holds one document. A look-up goes
through the sources from the strongest to the weakest and takes the first value that is
not null. Loading a document into a source replaces the one that was there.

A document is given by its look-up, so that it need not be a tree.
-/

namespace IgnoreRules

/-- Where settings come from. -/
inductive Source
  | defaults
  | userFile
  | environment
  | commandLine
  /-- Loaded while the program runs. -/
  | override
  deriving DecidableEq, Repr

/-- The sources, from the strongest to the weakest. -/
def Source.strongestFirst : List Source :=
  [.override, .commandLine, .environment, .userFile, .defaults]

/-- A document of settings: the value that each path of names leads to. -/
abbrev Document := List String → Option Value

/-- The document of every source that has one. -/
structure Settings where
  document : Source → Option Document

namespace Settings

def root : String := "ignoreparser"

/-- Settings, which are in groups of named values, under their common name. -/
def underRoot (groups : Value) : Value := .ofFields [(root, groups)]

/-- What holds where nothing else is said. -/
def defaults : Value :=
  underRoot <| .ofFields [
    ("rules", .ofFields [("file", .text ".gitignore"), ("encoding", .text "utf-8")]),
    ("scan", .ofFields [("include_directories", .bool false)]),
    ("logging", .ofFields [("level", .text "INFO"), ("file", .null)])]

def load (settings : Settings) (source : Source) (document : Document) : Settings :=
  ⟨fun other => if other = source then some document else settings.document other⟩

def initial : Settings := load ⟨fun _ => none⟩ .defaults defaults.at?

def path (key : String) : List String := (key.toList.splitOn '.').map String.ofList

/-- The value of a key in one source, unless it is null. -/
def valueIn? (settings : Settings) (key : String) (source : Source) : Option Value :=
  ((settings.document source).bind fun document => document (path key)).filter
    fun value => !value.isNull

/-- The value of a key in the strongest source that gives it one. -/
def get? (settings : Settings) (key : String) : Option Value :=
  Source.strongestFirst.findSome? (settings.valueIn? key)

/-- The value of a key, or a substitute. -/
def get (settings : Settings) (key : String) (substitute : Value) : Value :=
  (settings.get? key).getD substitute

end Settings
end IgnoreRules
