import IgnoreRules.CommandLine.Outcome

/-!
# Printing

A run prints one text after another on the standard output, which takes a text if it can
encode its characters. A text that it does not take breaks the run off, and what has been
printed before stays. What it takes, it can also write.

A name or an argument may hold bytes that are no text. Such a name is found as any other:
a text stands for it, and which outputs take that text is left open.
-/

namespace IgnoreRules.CommandLine

/-- A standard output. -/
class StandardOutput where
  takes (text : String) : Bool

/-- An output in UTF-8, in a place where all names are text. -/
@[reducible] def utf8Output : StandardOutput := ⟨fun _ => true⟩

/-- How a program comes to its end. -/
inductive Close
  /-- It leaves without carrying out a command. -/
  | left (exit : Exit)
  | returned (code : Nat)
  /-- A failure that nobody catches ends it. -/
  | escaped
  deriving DecidableEq, Repr

namespace Outcome

variable [StandardOutput]

def close (outcome : Outcome) : Close :=
  match outcome.ending with
  | .left exit => .left exit
  | .finished => if outcome.printed.all StandardOutput.takes then .returned 0 else .escaped
  | .reported _ => .returned 1
  | .broken _ => .escaped

/-- What is on the standard output in the end. -/
def written (outcome : Outcome) : String :=
  String.join (outcome.printed.takeWhile StandardOutput.takes)

end Outcome
end IgnoreRules.CommandLine
