/-!
# What can be wrong with a document

Most faults of a document are faults of its form. A scalar that has the form of a number, a
date or a truth value may have no value all the same, in one of a few ways. A document may
also nest too deep, and the bytes of its text may end in what is no text.
-/

namespace IgnoreRules.Yaml

/-- Why a scalar has no value. -/
inductive ScalarFault
  /-- A numeral without digits of its base, a date that no calendar has, or the code of no
  character. -/
  | noValue
  /-- A number with nothing after its sign. -/
  | noDigits
  /-- A truth value that is none of the known words. -/
  | unknownWord
  /-- A place of a number is worth more than any double, or a code is beyond all codes. -/
  | tooLarge
  /-- A text that is declared to be a time stamp and is none. -/
  | noTimestamp
  /-- A time stamp that is given inside a mapping. -/
  | noText
  deriving DecidableEq, Repr

/-- Why a text has no value. -/
inductive Error
  /-- The text does not have the form of a document. -/
  | malformed
  /-- The text cannot be read to its end. -/
  | unreadable
  /-- Collections are nested too deep. -/
  | tooDeep
  | scalar (fault : ScalarFault)
  deriving DecidableEq, Repr

end IgnoreRules.Yaml
