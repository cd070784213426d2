import IgnoreRules.Log.Level

/-!
# The shared logger

A program may create any number of loggers, and one of them is shared by everyone. Loggers of
one name write to the same channel, and so the one that was created last decides for all of
them which messages are shown and where.
-/

namespace IgnoreRules.Log

/-- Where messages are shown. -/
inductive Handler
  /-- The console, as a logger opens it that is given no handlers. -/
  | console (logger : Nat)
  | given (number : Nat)
  deriving DecidableEq, Repr

/-- What the loggers of a name have in common. -/
structure Channel where
  threshold : Int
  handlers : List Handler
  deriving DecidableEq, Repr

/-- Add a handler, unless it is there already. -/
def Channel.addHandler (channel : Channel) (handler : Handler) : Channel :=
  if handler ∈ channel.handlers then channel
  else { channel with handlers := channel.handlers ++ [handler] }

/-- All loggers, and the one that is shared. -/
structure Registry where
  /-- The names of the loggers, which are numbered in the order of creation. -/
  names : List String
  channels : String → Channel
  shared : Option Nat

namespace Registry

/-- The channel around all others. -/
def rootName : String := "root"

/-- No logger has been created. -/
def empty : Registry where
  names := []
  -- Of all channels the root alone has a threshold.
  channels name := ⟨if name = rootName then Level.warning.rank else 0, []⟩
  shared := none

/-- The name of the channel that loggers of a name write to. -/
def channelName (name : String) : String := if name = "" then rootName else name

def channel (registry : Registry) (name : String) : Channel :=
  registry.channels (channelName name)

def setChannel (registry : Registry) (name : String) (channel : Channel) : Registry :=
  { registry with
    channels := fun other =>
      if other = channelName name then channel else registry.channels other }

/-- Add a logger that starts its channel anew. Without handlers it opens the console. -/
def add (registry : Registry) (name : String) (threshold : Int)
    (handlers : Option (List Handler)) : Nat × Registry :=
  let logger := registry.names.length
  let handlers := handlers.getD [.console logger]
  let channel := handlers.foldl Channel.addHandler ⟨threshold, []⟩
  (logger, { registry.setChannel name channel with names := registry.names ++ [name] })

def create (registry : Registry) (name : String) (level : Value)
    (handlers : Option (List Handler)) : Except ThresholdError (Nat × Registry) := do
  return registry.add name (← Log.threshold level) handlers

/-- Set the level of a logger, by its name. -/
def setLevel (registry : Registry) (name : String) (level : Value) :
    Except ThresholdError Registry := do
  let threshold ← Log.threshold level
  return registry.setChannel name { registry.channel name with threshold }

/-- Add a handler to a logger, by its name. -/
def addHandler (registry : Registry) (name : String) (handler : Handler) : Registry :=
  registry.setChannel name ((registry.channel name).addHandler handler)

/-- Share a logger, or none any more. -/
def install (registry : Registry) (logger : Option Nat) : Registry :=
  { registry with shared := logger }

/-- The shared logger, which is to have a name. -/
def get (registry : Registry) (name : String) : Nat × Registry :=
  -- One of another name is not kept: a new one takes its place.
  match registry.shared.filter fun logger => registry.names[logger]? = some name with
  | some logger => (logger, registry)
  | none =>
    let (logger, registry) := registry.add name Level.info.rank none
    (logger, registry.install (some logger))

end Registry
end IgnoreRules.Log
