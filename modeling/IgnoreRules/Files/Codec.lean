import IgnoreRules.Text.Lines
import IgnoreRules.Text.Surrogate

/-!
# Text encodings

Bytes are decoded as UTF-8, UTF-16, Latin-1 or ASCII. `utf8Marked` drops a byte order mark
at the start, and a file that ends within the mark is empty; `utf16` takes the byte order
from the mark, which it demands of every file that is not empty; the other encodings keep a
mark as a character.

The name of an encoding may be written in any case, and whatever is neither letter, digit
nor point separates its words. The encoding of the place where the program runs is UTF-8.
Which other encodings there are, and how their bytes are decoded, is left to an instance.
-/

namespace IgnoreRules.Files

inductive Codec
  | utf8
  | utf8Marked
  | latin1
  | ascii
  | utf16
  | utf16Little
  | utf16Big
  deriving DecidableEq, Repr

inductive DecodeError
  /-- The bytes are not in the encoding. -/
  | malformed
  /-- The mark that tells the byte order is missing, or what the bytes stand for is no text. -/
  | noByteOrderMark
  deriving DecidableEq, Repr

/-- The encodings besides those of `Codec`. -/
class OtherCodecs where
  /-- The decoder of the encoding that has a name, if there is one. -/
  decoder? (name : String) : Option (ByteArray → Except DecodeError (List Char))

namespace Codec

def canonicalName : Codec → String
  | .utf8 => "utf_8"
  | .utf8Marked => "utf_8_sig"
  | .latin1 => "latin_1"
  | .ascii => "ascii"
  | .utf16 => "utf_16"
  | .utf16Little => "utf_16_le"
  | .utf16Big => "utf_16_be"

def aliases : Codec → List String
  | .utf8 => ["cp65001", "u8", "utf", "utf8", "utf8_ucs2", "utf8_ucs4"]
  | .utf8Marked => []
  | .latin1 => ["8859", "cp819", "csisolatin1", "ibm819", "iso8859", "iso8859_1", "iso_8859_1",
      "iso_8859_1_1987", "iso_ir_100", "l1", "latin", "latin1"]
  | .ascii => ["646", "ansi_x3.4_1968", "ansi_x3.4_1986", "ansi_x3_4_1968", "cp367", "csascii",
      "ibm367", "iso646_us", "iso_646.irv_1991", "iso_ir_6", "us", "us_ascii"]
  | .utf16 => ["u16", "utf16"]
  | .utf16Little => ["unicodelittleunmarked", "utf_16le"]
  | .utf16Big => ["unicodebigunmarked", "utf_16be"]

def all : List Codec := [.utf8, .utf8Marked, .latin1, .ascii, .utf16, .utf16Little, .utf16Big]

/-- A character that names are made of. -/
def isNameChar (c : Char) : Bool := c.isAlphanum || c = '.'

/-- Fold a name: lower case, and one underscore for what separates two words. -/
def foldName : List Char → List Char
  | [] => []
  | c :: rest =>
    if isNameChar c then
      match rest with
      | [] => [c.toLower]
      | d :: _ =>
        if isNameChar d || !rest.any isNameChar then c.toLower :: foldName rest
        else c.toLower :: '_' :: foldName rest
    else foldName rest

def ofFolded? (name : String) : Option Codec :=
  let withoutPoints := String.ofList (name.toList.map fun c => if c = '.' then '_' else c)
  match all.find? fun codec => codec.aliases.contains name with
  | some codec => some codec
  | none =>
    match all.find? fun codec => codec.aliases.contains withoutPoints with
    | some codec => some codec
    | none => all.find? fun codec => codec.canonicalName = name

def ofName? (name : String) : Option Codec :=
  if name = "locale" then some .utf8 else ofFolded? (String.ofList (foldName name.toList))

end Codec

/-- The character U+FEFF, which marks the byte order at the start of a file. -/
def byteOrderMark : Char := '\uFEFF'

/-- The units of UTF-16 in bytes of a given order. -/
def units16 (bigEndian : Bool) : List UInt8 → Option (List Nat)
  -- An odd byte is left over.
  | [] => some []
  | [_] => none
  | first :: second :: rest =>
    let unit := if bigEndian then 256 * first.toNat + second.toNat
      else 256 * second.toNat + first.toNat
    (units16 bigEndian rest).map (unit :: ·)

/-- The characters that units of UTF-16 write. -/
def charsOfUnits : List Nat → Option (List Char)
  -- Surrogates come in pairs only.
  | [] => some []
  | unit :: rest =>
    if Text.isLowSurrogate unit then none
    else if Text.isHighSurrogate unit then
      match rest with
      | [] => none
      | low :: rest =>
        if Text.isLowSurrogate low then (charsOfUnits rest).map (Text.pairOf unit low :: ·)
        else none
    else (charsOfUnits rest).map (Char.ofNat unit :: ·)

def decodeUnits (bigEndian : Bool) (bytes : List UInt8) : Except DecodeError (List Char) :=
  match (units16 bigEndian bytes).bind charsOfUnits with
  | some text => .ok text
  | none => .error .malformed

def decodeUtf8 (bytes : ByteArray) : Except DecodeError (List Char) :=
  match String.fromUTF8? bytes with
  | some text => .ok text.toList
  | none => .error .malformed

/-- The bytes of a byte order mark in UTF-8. -/
def utf8Mark : List UInt8 := [0xEF, 0xBB, 0xBF]

def dropMark : List Char → List Char
  | c :: rest => if c = byteOrderMark then rest else c :: rest
  | [] => []

def Codec.decode (codec : Codec) (bytes : ByteArray) : Except DecodeError (List Char) :=
  match codec with
  | .utf8 => decodeUtf8 bytes
  | .utf8Marked =>
    if bytes.data.toList.isPrefixOf utf8Mark then .ok [] else (decodeUtf8 bytes).map dropMark
  | .latin1 => .ok (bytes.data.toList.map fun byte => Char.ofNat byte.toNat)
  | .ascii =>
    if bytes.data.toList.all (· < 128) then
      .ok (bytes.data.toList.map fun byte => Char.ofNat byte.toNat)
    else .error .malformed
  | .utf16Little => decodeUnits false bytes.data.toList
  | .utf16Big => decodeUnits true bytes.data.toList
  | .utf16 =>
    match bytes.data.toList with
    | [] => .ok []
    | 0xFF :: 0xFE :: rest => decodeUnits false rest
    | 0xFE :: 0xFF :: rest => decodeUnits true rest
    | bytes => (decodeUnits false bytes).bind fun _ => .error .noByteOrderMark

/-- The text of a file, with every line end as a line feed. -/
def Codec.decodeText (codec : Codec) (bytes : ByteArray) : Except DecodeError (List Char) :=
  (codec.decode bytes).map Text.unifyLineEnds

end IgnoreRules.Files
