/-!
# Accounts

A file of accounts has a line for every user, with fields that colons separate: the first
is the name of the user and the sixth the home directory.
-/

namespace IgnoreRules.Files

/-- The home directories that a file of accounts gives, by the names of the users. -/
def homesOf (accounts : String) : List (String × String) :=
  (accounts.toList.splitOn '\n').filterMap fun line =>
    match line.splitOn ':' with
    | name :: _ :: _ :: _ :: _ :: home :: _ => some (String.ofList name, String.ofList home)
    | _ => none

end IgnoreRules.Files
