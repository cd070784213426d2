import IgnoreRules.Log.Level

/-!
# Log records

A record is a message with a context of named values, which follow the message as
`key=value` pairs.
-/

namespace IgnoreRules.Log

abbrev Context := List (String × Value)

/-- Set a value: a new name goes to the end, a known one keeps its place. -/
def Context.put (context : Context) (key : String) (value : Value) : Context :=
  match context with
  | [] => [(key, value)]
  | (first, old) :: rest =>
    if first = key then (first, value) :: rest else (first, old) :: Context.put rest key value

/-- Set the values of another context, one after the other. -/
def Context.update (context newer : Context) : Context :=
  newer.foldl (fun context entry => context.put entry.1 entry.2) context

structure Record where
  level : Level
  text : String
  context : Context
  deriving Repr

def Context.toText (context : Context) : String :=
  " ".intercalate (context.map fun entry => entry.1 ++ "=" ++ entry.2.toText)

def Record.message (record : Record) : String :=
  if record.context.isEmpty then record.text
  else record.text ++ " | " ++ record.context.toText

def Record.line (record : Record) (time logger : String) : String :=
  time ++ " - " ++ logger ++ " - " ++ record.level.name ++ " - " ++ record.message ++ "\n"

end IgnoreRules.Log
