import IgnoreRules.Log.Record
import IgnoreRules.Log.Registry

/-!
# Loggers

A logger shows the messages that reach its threshold. It lies in others by its name, the
outermost of them the root, and where it has no threshold theirs count. Contexts can be
opened around a stretch of work; every message logged meanwhile carries them, and where a
name is given more than once the innermost value holds. What is open is open for all loggers.

The names `self` and `msg` belong to the logger: a message may carry neither, an opened
context not the first.
-/

namespace IgnoreRules.Log

/-- A logger and the contexts that are open, innermost first. -/
structure Logger where
  name : String
  threshold : Int
  /-- Whichever logger has opened them. -/
  opened : List Context
  deriving Repr

namespace Logger

/-- The name that loggers have unless they are given another. -/
def defaultName : String := "ignoreparser"

def create (name : String) (level : Value) : Except ThresholdError Logger := do
  return ⟨name, ← Log.threshold level, []⟩

def standard (name : String) : Logger := ⟨name, Level.info.rank, []⟩

def setThreshold (logger : Logger) (level : Value) : Except ThresholdError Logger := do
  return { logger with threshold := ← Log.threshold level }

/-- A logger shows messages of a level, if those that it lies in have these thresholds, from
the nearest on. -/
def showsIn (logger : Logger) (around : List Int) (level : Level) : Bool :=
  effectiveThreshold (logger.threshold :: around) ≤ level.rank

def push (logger : Logger) (context : Context) : Logger :=
  { logger with opened := context :: logger.opened }

def pop (logger : Logger) : Logger := { logger with opened := logger.opened.tail }

/-- The context of a message: what is open, from the outermost in, then its own. -/
def contextOf (logger : Logger) (context : Context) : Context :=
  (context :: logger.opened).reverse.foldl Context.update []

/-- A message with everything open around it, if it is shown. -/
def recordIn? (logger : Logger) (around : List Int) (message : Record) : Option Record :=
  if logger.showsIn around message.level then
    some { message with context := logger.contextOf message.context }
  else none

/-- The thresholds around a logger if nobody has chosen any. -/
def usualAround (logger : Logger) : List Int :=
  -- Nothing is around the root.
  if Registry.channelName logger.name = Registry.rootName then []
  else [(Registry.empty.channel Registry.rootName).threshold]

def record? (logger : Logger) (message : Record) : Option Record :=
  logger.recordIn? logger.usualAround message

/-- A name that a message cannot carry. -/
def isReservedInMessage (name : String) : Bool := name = "self" || name = "msg"

/-- A name that an opened context cannot carry. -/
def isReservedInBlock (name : String) : Bool := name = "self"

end Logger
end IgnoreRules.Log
