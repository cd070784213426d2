/-!
# YAML tags

A tag says what kind of value a node stands for. The kinds that are known have a URI that
starts with `tag:yaml.org,2002:`. Two of them are for keys only: under a merge key a mapping
takes over the entries of others, and a value key gives the text of a mapping that is
tagged as a scalar.
-/

namespace IgnoreRules.Yaml

inductive Tag
  | null
  | bool
  | int
  | float
  | text
  | binary
  | timestamp
  | sequence
  | mapping
  | set
  | orderedMap
  | pairs
  | mergeKey
  | valueKey
  | unknown
  deriving DecidableEq, Repr

namespace Tag

/-- What the URIs of the known tags start with. -/
def standardLead : List Char := "tag:yaml.org,2002:".toList

/-- The last part of the URI of every known tag. -/
def standardNames : List (String × Tag) :=
  [("null", .null), ("bool", .bool), ("int", .int), ("float", .float), ("str", .text),
    ("binary", .binary), ("timestamp", .timestamp), ("seq", .sequence), ("map", .mapping),
    ("set", .set), ("omap", .orderedMap), ("pairs", .pairs), ("merge", .mergeKey),
    ("value", .valueKey)]

def ofUri (uri : List Char) : Tag :=
  ((standardNames.find? fun entry => uri = standardLead ++ entry.1.toList).map (·.2)).getD .unknown

end Tag
end IgnoreRules.Yaml
