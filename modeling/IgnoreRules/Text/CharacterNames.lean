/-!
# Names of characters

A character may be asked for by its name, such as `DIGIT ONE`. Which names there are depends
on the edition of the character standard, so the table of names is left open: whatever reads
a name takes the table as an instance.
-/

namespace IgnoreRules.Text

/-- A table of the names of characters. -/
class CharacterNames where
  /-- The character that a name stands for. -/
  named? (name : List Char) : Option Char

end IgnoreRules.Text
