import IgnoreRules.Value

/-!
# Log levels

A message is shown when the rank of its level is not below the threshold. A threshold is a
whole number or the name of a level, in any case; a truth value counts as 0 or 1. At
threshold 0 no choice has been made, and the thresholds around decide.
-/

namespace IgnoreRules.Log

inductive Level
  | debug
  | info
  | warning
  | error
  | critical
  deriving DecidableEq, Repr

namespace Level

def all : List Level := [.debug, .info, .warning, .error, .critical]

/-- The place of a level among the thresholds. -/
def rank : Level → Int
  | .debug => 10
  | .info => 20
  | .warning => 30
  | .error => 40
  | .critical => 50

def name : Level → String
  | .debug => "DEBUG"
  | .info => "INFO"
  | .warning => "WARNING"
  | .error => "ERROR"
  | .critical => "CRITICAL"

/-- The capital of a letter of a level's name. The dotless i has the capital of i. -/
def capital (c : Char) : Char := if c = 'ı' then 'I' else c.toUpper

def ofName? (text : String) : Option Level :=
  all.find? fun level => level.name = String.ofList (text.toList.map capital)

end Level

inductive ThresholdError
  | unknownName (name : String)
  | wrongType
  deriving DecidableEq, Repr

def threshold : Value → Except ThresholdError Int
  | .text name =>
    match Level.ofName? name with
    | some level => .ok level.rank
    | none => .error (.unknownName name)
  | .int value => .ok value
  | .bool value => .ok (if value then 1 else 0)
  | _ => .error .wrongType

/-- The first of some thresholds that has been chosen, from the inside out. -/
def effectiveThreshold (thresholds : List Int) : Int :=
  -- Without any choice everything is shown.
  (thresholds.find? (· ≠ 0)).getD 0

end IgnoreRules.Log
