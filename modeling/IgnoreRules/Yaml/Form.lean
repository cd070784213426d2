import IgnoreRules.Text.Base64
import IgnoreRules.Yaml.Numeral
import IgnoreRules.Yaml.Tag
import IgnoreRules.Yaml.Timestamp

/-!
# What scalars mean

The form of a plain scalar shows its tag: whether it is a truth value, null, a number, a
date or text. `Tag.valueOf` gives the value that a text has under a tag, which need not be
the one that its form shows.
-/

namespace IgnoreRules.Yaml

def truthWords : List (String × Bool) :=
  [("yes", true), ("true", true), ("on", true), ("no", false), ("false", false), ("off", false)]

/-- A line feed at the end of a scalar does not count for its form. -/
def withoutLastBreak (text : List Char) : List Char :=
  if text.getLast? = some '\n' then text.dropLast else text

namespace Tag

/-- The form of a text on one line, of which at least one character is there. -/
def ofLine (line : List Char) : Tag :=
  if line = ['~'] || Numeral.isCasing "null".toList line then .null
  else if line = ['<', '<'] then .mergeKey
  else if line = ['='] then .valueKey
  else if line = ['!'] || line = ['&'] || line = ['*'] then .unknown
  else if truthWords.any fun word => Numeral.isCasing word.1.toList line then .bool
  else if Numeral.isReal line then .float
  else if Numeral.isWhole line then .int
  else if Timestamp.isTimestamp line then .timestamp
  else .text

/-- The tag that the form of a text shows. -/
def ofForm (text : List Char) : Tag :=
  -- Nothing at all is null.
  match text with
  | [] => .null
  | _ =>
    match withoutLastBreak text with
    | [] => .text
    | line => ofLine line

/-- The truth value that a word gives, in any case. -/
def truthOf (text : List Char) : Except ScalarFault Bool :=
  match truthWords.lookup (String.ofList (Text.lower text)) with
  | some truth => .ok truth
  | none => .error .unknownWord

def bytesOf (text : List Char) : Except Error (List UInt8) :=
  if text.any fun c => 128 ≤ c.toNat then .error .malformed
  else match Text.decodeBase64? text with
    | some bytes => .ok bytes
    | none => .error .malformed

/-- The value of a text under a tag. -/
def valueOf (tag : Tag) (text : List Char) : Except Error Value :=
  -- Collections have no text, and the tags of keys and those that are not known have no values.
  match tag with
  | .null => .ok .null
  | .text => .ok (.text (String.ofList text))
  | .bool => ((truthOf text).map .bool).mapError .scalar
  | .int => ((Numeral.wholeValue text).map .int).mapError .scalar
  | .float => ((Numeral.realValue text).map .real).mapError .scalar
  | .timestamp => (Timestamp.value (withoutLastBreak text)).mapError .scalar
  | .binary => (bytesOf text).map .bytes
  | .sequence | .mapping | .set | .orderedMap | .pairs | .mergeKey | .valueKey | .unknown =>
    .error .malformed

end Tag
end IgnoreRules.Yaml
