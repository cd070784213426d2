import IgnoreRules.Files.Codec

/-!
# Reading a file in portions

A long text in UTF-8 is read in portions, so that what is wrong with its bytes shows only
when a portion is asked for that needs them. A portion has 4096 characters, the first one
twice as many, and the last one what is left.

Bytes come in blocks, and a block is decoded as a whole. A character that a block breaks
off waits for the next block, and so does a carriage return at its end, for a line feed may
follow. How large a block is depends on how many characters are wanted, if the block before
it had several bytes for each character.
-/

namespace IgnoreRules.Files

def blockSize : Nat := 8192

def portionSize : Nat := 4096

/-- The length of the character that a byte starts, and the range of the byte after it. -/
def charLead? (byte : UInt8) : Option (Nat × UInt8 × UInt8) :=
  if 0xC2 ≤ byte ∧ byte ≤ 0xDF then some (2, 0x80, 0xBF)
  else if byte = 0xE0 then some (3, 0xA0, 0xBF)
  else if byte = 0xED then some (3, 0x80, 0x9F)
  else if 0xE1 ≤ byte ∧ byte ≤ 0xEF then some (3, 0x80, 0xBF)
  else if byte = 0xF0 then some (4, 0x90, 0xBF)
  else if byte = 0xF4 then some (4, 0x80, 0x8F)
  else if 0xF1 ≤ byte ∧ byte ≤ 0xF3 then some (4, 0x80, 0xBF)
  else none

/-- Bytes that start a character and do not complete it. -/
def isBrokenChar : List UInt8 → Bool
  | [] => false
  | lead :: rest =>
    match charLead? lead with
    | none => false
    | some (length, low, high) =>
      rest.length + 1 < length &&
        match rest with
        | [] => true
        | second :: rest =>
          low ≤ second && second ≤ high && rest.all fun byte => 0x80 ≤ byte && byte ≤ 0xBF

/-- The number of bytes at the end that belong to a character which is not complete. -/
def brokenLength (bytes : ByteArray) : Nat :=
  let isBroken := fun count =>
    count ≤ bytes.size && isBrokenChar (bytes.extract (bytes.size - count) bytes.size).toList
  ([1, 2, 3].find? isBroken).getD 0

structure TextReader where
  bytes : ByteArray
  held : Nat
  /-- A carriage return has been read that may belong to a line break of two characters. -/
  afterReturn : Bool
  ready : List Char
  /-- The number of bytes and of characters in the last block. -/
  lastBlock : Nat × Nat

namespace TextReader

/-- The size of the next block, when some characters are wanted. -/
def nextSize (reader : TextReader) (wanted : Nat) : Nat :=
  let (bytes, characters) := reader.lastBlock
  max blockSize (bytes * wanted / characters)

/-- A text after what may be the first half of a line break, without what may be the first
half of another one, and whether there is such. -/
def cutReturn (afterReturn isLast : Bool) (text : List Char) : List Char × Bool :=
  if text.isEmpty && !isLast then ([], afterReturn)
  else
    let text := if afterReturn then '\r' :: text else text
    if !isLast && text.getLast? = some '\r' then (text.dropLast, true) else (text, false)

/-- Read a block. -/
def readBlock (reader : TextReader) (wanted : Nat) : Except DecodeError (Option TextReader) := do
  -- The result is none at the end of the file.
  let taken := min (reader.held + reader.nextSize wanted) reader.bytes.size
  let size := taken - reader.held
  let isLast := size = 0
  let held := if isLast then 0 else brokenLength (reader.bytes.extract 0 taken)
  let text ← decodeUtf8 (reader.bytes.extract 0 (taken - held))
  let (text, afterReturn) := cutReturn reader.afterReturn isLast text
  if isLast && text.isEmpty then return none
  let text := Text.unifyLineEnds text
  return some {
    bytes := reader.bytes.extract (taken - held) reader.bytes.size
    held, afterReturn
    ready := reader.ready ++ text
    lastBlock := (size, text.length) }

/-- Read blocks until some characters are ready or the file ends. -/
def fill (wanted : Nat) : Nat → TextReader → Except DecodeError TextReader
  | 0, reader => .ok reader
  | fuel + 1, reader =>
    if wanted ≤ reader.ready.length then .ok reader
    else do
      match ← reader.readBlock (wanted - reader.ready.length) with
      | none => return reader
      | some reader => reader.fill wanted fuel

def portions : Nat → TextReader → List (List Char) × Option DecodeError
  | 0, _ => ([], none)
  | fuel + 1, reader =>
    match reader.fill portionSize (fuel + 1) with
    | .error problem => ([], some problem)
    | .ok reader =>
      if reader.ready.isEmpty then ([], none)
      else
        let portion := reader.ready.take portionSize
        let (others, problem) :=
          portions fuel { reader with ready := reader.ready.drop portionSize }
        (portion :: others, problem)

end TextReader

/-- The portions in which a text is read, up to its end or up to bytes that are no text. -/
def portionsOf (bytes : ByteArray) : List (List Char) × Option DecodeError :=
  let reader : TextReader := ⟨bytes, 0, false, [], (0, 0)⟩
  match reader.portions (bytes.size + 3) with
  | (first :: second :: others, problem) => ((first ++ second) :: others, problem)
  | ([_], some problem) => ([], some problem)
  | result => result

end IgnoreRules.Files
