import IgnoreRules.Text.CharacterNames

/-!
# The names of the printable ASCII characters

The table of names that programs run with. Names are read in either case.
-/

namespace IgnoreRules.Text

/-- The characters that are neither letters nor digits, by name. -/
def markNames : List (String × Char) :=
  [("SPACE", ' '), ("EXCLAMATION MARK", '!'), ("QUOTATION MARK", '\x22'), ("NUMBER SIGN", '#'),
    ("DOLLAR SIGN", '$'), ("PERCENT SIGN", '%'), ("AMPERSAND", '&'), ("APOSTROPHE", '\x27'),
    ("LEFT PARENTHESIS", '('), ("RIGHT PARENTHESIS", ')'), ("ASTERISK", '*'), ("PLUS SIGN", '+'),
    ("COMMA", ','), ("HYPHEN-MINUS", '-'), ("FULL STOP", '.'), ("SOLIDUS", '/'), ("COLON", ':'),
    ("SEMICOLON", ';'), ("LESS-THAN SIGN", '<'), ("EQUALS SIGN", '='), ("GREATER-THAN SIGN", '>'),
    ("QUESTION MARK", '?'), ("COMMERCIAL AT", '@'), ("LEFT SQUARE BRACKET", '['),
    ("REVERSE SOLIDUS", '\\'), ("RIGHT SQUARE BRACKET", ']'), ("CIRCUMFLEX ACCENT", '^'),
    ("LOW LINE", '_'), ("GRAVE ACCENT", '\x60'), ("LEFT CURLY BRACKET", '\x7b'),
    ("VERTICAL LINE", '|'), ("RIGHT CURLY BRACKET", '\x7d'), ("TILDE", '~')]

def digitNames : List (String × Char) :=
  [("DIGIT ZERO", '0'), ("DIGIT ONE", '1'), ("DIGIT TWO", '2'), ("DIGIT THREE", '3'),
    ("DIGIT FOUR", '4'), ("DIGIT FIVE", '5'), ("DIGIT SIX", '6'), ("DIGIT SEVEN", '7'),
    ("DIGIT EIGHT", '8'), ("DIGIT NINE", '9')]

/-- The letter whose name ends in it, as in `LATIN SMALL LETTER A`. -/
def letterNamed? (name : List Char) : Option Char :=
  match name.getLast? with
  | none => none
  | some letter =>
    if !letter.isUpper then none
    else if name.dropLast = "LATIN CAPITAL LETTER ".toList then some letter
    else if name.dropLast = "LATIN SMALL LETTER ".toList then some letter.toLower
    else none

instance asciiNames : CharacterNames where
  named? name :=
    let name := name.map Char.toUpper
    (letterNamed? name).or ((markNames ++ digitNames).lookup (String.ofList name))

example : CharacterNames.named? "Latin Small Letter q".toList = some 'q' := by decide

end IgnoreRules.Text
