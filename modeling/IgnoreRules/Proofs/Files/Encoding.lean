import IgnoreRules.Files.Codec
import Mathlib.Data.List.Infix

/-!
# Storing text

How a file holds a text in each encoding. The encodings of Unicode hold every text, the narrow ones
those whose characters are numbered low enough. A byte order mark may stand before a text in UTF-8
and in UTF-16 of a known byte order; in UTF-16 of either byte order it has to. Decoding gives the
text back, at most with the mark before it.
-/

namespace IgnoreRules.Files

/-- The units of UTF-16 that write a character. -/
def unitsOf (c : Char) : List Nat :=
  if c.toNat < 0x10000 then [c.toNat]
  else [0xD800 + (c.toNat - 0x10000) / 0x400, 0xDC00 + (c.toNat - 0x10000) % 0x400]

/-- The two bytes of a unit in a given order. -/
def unitBytes (bigEndian : Bool) (unit : Nat) : List UInt8 :=
  let high := UInt8.ofNat (unit / 256)
  let low := UInt8.ofNat (unit % 256)
  if bigEndian then [high, low] else [low, high]

def encodeUtf8 (text : List Char) : ByteArray := (String.ofList text).toUTF8

def encodeUtf16 (bigEndian : Bool) (text : List Char) : ByteArray :=
  ⟨((text.flatMap unitsOf).flatMap (unitBytes bigEndian)).toArray⟩

/-- One byte for each character. -/
def encodeNarrow (text : List Char) : ByteArray :=
  ⟨(text.map fun c => UInt8.ofNat c.toNat).toArray⟩

/-- The text, with a byte order mark before it or without one. -/
def marked (mark : Bool) (text : List Char) : List Char :=
  if mark then byteOrderMark :: text else text

/-- A file of these bytes holds a text in an encoding. -/
inductive Stores (text : List Char) : Codec → ByteArray → Prop
  | utf8 (mark : Bool) : Stores text .utf8 (encodeUtf8 (marked mark text))
  | utf8Marked (mark : Bool) : Stores text .utf8Marked (encodeUtf8 (marked mark text))
  | utf16Little (mark : Bool) : Stores text .utf16Little (encodeUtf16 false (marked mark text))
  | utf16Big (mark : Bool) : Stores text .utf16Big (encodeUtf16 true (marked mark text))
  | utf16 (bigEndian : Bool) : Stores text .utf16 (encodeUtf16 bigEndian (marked true text))
  | latin1 (narrow : ∀ c ∈ text, c.toNat < 256) : Stores text .latin1 (encodeNarrow text)
  | ascii (narrow : ∀ c ∈ text, c.toNat < 128) : Stores text .ascii (encodeNarrow text)

theorem dropMark_marked (text : List Char) (unmarked : text.head? ≠ some byteOrderMark)
    (mark : Bool) : dropMark (marked mark text) = text := by
  cases mark with
  | true => simp [marked, dropMark]
  | false =>
    cases text with
    | nil => rfl
    | cons c rest => exact if_neg (by simpa using unmarked)

/-! ## UTF-8 -/

theorem fromUTF8?_encode (text : List Char) :
    String.fromUTF8? (encodeUtf8 text) = some (String.ofList text) :=
  dif_pos (String.ofList text).isValidUTF8

theorem decodeUtf8_encode (text : List Char) : decodeUtf8 (encodeUtf8 text) = .ok text := by
  simp [decodeUtf8, fromUTF8?_encode]

/-- The bytes of a text end within the mark only if the text is empty or the mark itself. -/
theorem encodeUtf8_isPrefixOf_mark (text : List Char)
    (within : (encodeUtf8 text).data.toList.isPrefixOf utf8Mark) :
    text = [] ∨ text = [byteOrderMark] := by
  -- There are four ways to begin the mark, and two of them are no text.
  have begins : ∀ bytes ∈ utf8Mark.inits,
      String.fromUTF8? ⟨bytes.toArray⟩ ∈ [none, some "", some "\uFEFF"] := by decide +kernel
  have read : String.fromUTF8? (encodeUtf8 text) ∈ [none, some "", some "\uFEFF"] :=
    begins _ ((List.mem_inits _ _).mpr (List.isPrefixOf_iff_prefix.mp within))
  rw [fromUTF8?_encode] at read
  have whole : String.ofList text = "" ∨ String.ofList text = "\uFEFF" := by
    simpa only [List.mem_cons, List.not_mem_nil, reduceCtorEq, Option.some.injEq, false_or,
      or_false] using read
  rcases whole with whole | whole
  · exact .inl (String.ofList_injective whole)
  · exact .inr (String.ofList_injective whole)

/-! ## UTF-16 -/

theorem units16_bytes (bigEndian : Bool) (units : List Nat)
    (small : ∀ unit ∈ units, unit < 0x10000) :
    units16 bigEndian (units.flatMap (unitBytes bigEndian)) = some units := by
  induction units with
  | nil => rfl
  | cons unit units ih =>
    have read := ih fun other member => small other (List.mem_cons_of_mem unit member)
    have fits : unit < 0x10000 := small unit List.mem_cons_self
    have value : 256 * (unit / 256 % 256) + unit % 256 = unit := by omega
    cases bigEndian <;> simp [unitBytes, units16, read, value]

theorem unitsOf_small (c : Char) : ∀ unit ∈ unitsOf c, unit < 0x10000 := by
  have bounded : c.toNat < 0x110000 := by
    have valid : c.toNat < 0xD800 ∨ (0xDFFF < c.toNat ∧ c.toNat < 0x110000) := c.valid
    omega
  intro unit member
  rw [unitsOf] at member
  split at member
  · rw [List.mem_singleton] at member
    omega
  · rw [List.mem_pair] at member
    omega

/-- A unit that is no surrogate writes a character by itself. -/
theorem charsOfUnits_single (unit : Nat) (units : List Nat)
    (single : unit < 0xD800 ∨ 0xDFFF < unit) :
    charsOfUnits (unit :: units) = (charsOfUnits units).map (Char.ofNat unit :: ·) := by
  have low : Text.isLowSurrogate unit = false := by simp [Text.isLowSurrogate]; omega
  have high : Text.isHighSurrogate unit = false := by simp [Text.isHighSurrogate]; omega
  -- The equations split what follows the unit too, so the definition is opened once, as a whole.
  rw [charsOfUnits.eq_def]
  simp [low, high]

/-- A high surrogate and a low one write a character between them. -/
theorem charsOfUnits_pair (high low : Nat) (units : List Nat)
    (first : Text.isHighSurrogate high) (second : Text.isLowSurrogate low) :
    charsOfUnits (high :: low :: units) =
      (charsOfUnits units).map (Text.pairOf high low :: ·) := by
  have notLow : Text.isLowSurrogate high = false := by
    simp [Text.isHighSurrogate, Text.isLowSurrogate] at first ⊢
    omega
  simp [charsOfUnits, first, second, notLow]

theorem charsOfUnits_unitsOf (c : Char) (units : List Nat) :
    charsOfUnits (unitsOf c ++ units) = (charsOfUnits units).map (c :: ·) := by
  have valid : c.toNat < 0xD800 ∨ (0xDFFF < c.toNat ∧ c.toNat < 0x110000) := c.valid
  rw [unitsOf]
  split
  case isTrue small =>
    rw [List.singleton_append, charsOfUnits_single _ _ (by omega), Char.ofNat_toNat]
  case isFalse large =>
    have first : Text.isHighSurrogate (0xD800 + (c.toNat - 0x10000) / 0x400) := by
      simp [Text.isHighSurrogate]; omega
    have second : Text.isLowSurrogate (0xDC00 + (c.toNat - 0x10000) % 0x400) := by
      simp [Text.isLowSurrogate]; omega
    have pair : Text.pairOf (0xD800 + (c.toNat - 0x10000) / 0x400)
        (0xDC00 + (c.toNat - 0x10000) % 0x400) = c := by
      have value : 0x10000 + 0x400 * ((c.toNat - 0x10000) / 0x400) +
          (c.toNat - 0x10000) % 0x400 = c.toNat := by omega
      rw [Text.pairOf, Nat.add_sub_cancel_left, Nat.add_sub_cancel_left, value, Char.ofNat_toNat]
    rw [List.cons_append, List.singleton_append, charsOfUnits_pair _ _ _ first second, pair]

theorem charsOfUnits_flatMap (text : List Char) :
    charsOfUnits (text.flatMap unitsOf) = some text := by
  induction text with
  | nil => rfl
  | cons c text ih => simp [charsOfUnits_unitsOf, ih]

theorem decodeUnits_encode (bigEndian : Bool) (text : List Char) :
    decodeUnits bigEndian (encodeUtf16 bigEndian text).data.toList = .ok text := by
  have small : ∀ unit ∈ text.flatMap unitsOf, unit < 0x10000 := by
    intro unit member
    obtain ⟨c, _, member⟩ := List.mem_flatMap.mp member
    exact unitsOf_small c unit member
  simp [decodeUnits, encodeUtf16, units16_bytes bigEndian _ small, charsOfUnits_flatMap]

/-! ## One byte for each character -/

theorem encodeNarrow_bytes (text : List Char) (narrow : ∀ c ∈ text, c.toNat < 256) :
    (encodeNarrow text).data.toList.map (fun byte => Char.ofNat byte.toNat) = text := by
  have back : ∀ c ∈ text, Char.ofNat (UInt8.ofNat c.toNat).toNat = c := by
    intro c member
    rw [UInt8.toNat_ofNat_of_lt' (narrow c member), Char.ofNat_toNat]
  rw [encodeNarrow, List.toList_toArray, List.map_map]
  exact (List.map_congr_left back).trans (List.map_id text)

/-! ## Every encoding -/

/-- Decoding the bytes of a stored text gives it back, and in some encodings the mark before it. -/
theorem Stores.decoded {text : List Char} {codec : Codec} {bytes : ByteArray}
    (stores : Stores text codec bytes) (unmarked : text.head? ≠ some byteOrderMark) :
    ∃ mark, codec.decode bytes = .ok (marked mark text) := by
  cases stores with
  | utf8 mark => exact ⟨mark, decodeUtf8_encode _⟩
  | utf8Marked mark =>
    refine ⟨false, ?_⟩
    rw [Codec.decode]
    split
    case isTrue within =>
      -- Such a file is read as empty, whether it holds nothing or the mark alone.
      have empty : text = [] := by
        rw [← dropMark_marked text unmarked mark]
        rcases encodeUtf8_isPrefixOf_mark _ within with whole | whole <;> rw [whole] <;> rfl
      rw [empty]
      rfl
    case isFalse =>
      rw [decodeUtf8_encode, Except.map, dropMark_marked text unmarked]
      rfl
  | utf16Little mark => exact ⟨mark, decodeUnits_encode false _⟩
  | utf16Big mark => exact ⟨mark, decodeUnits_encode true _⟩
  | utf16 bigEndian =>
    refine ⟨false, ?_⟩
    have decoded := decodeUnits_encode bigEndian text
    cases bigEndian with
    | false => exact decoded
    | true => exact decoded
  | latin1 narrow => exact ⟨false, congrArg Except.ok (encodeNarrow_bytes text narrow)⟩
  | ascii narrow =>
    have small : (encodeNarrow text).data.toList.all (· < 128) := by
      simp only [encodeNarrow, List.toList_toArray, List.all_map, List.all_eq_true]
      intro c member
      simpa [UInt8.lt_iff_toNat_lt] using Nat.lt_of_le_of_lt (Nat.mod_le _ _) (narrow c member)
    refine ⟨false, (if_pos small).trans (congrArg Except.ok (encodeNarrow_bytes text ?_))⟩
    exact fun c member => Nat.lt_trans (narrow c member) (by decide)

end IgnoreRules.Files
