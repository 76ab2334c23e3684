import CampusRules.Json.Bytes
import CampusRules.Server.Percent

/-!
# Encoded names

A text that is encoded for a path consists of characters that a path leaves alone: none of them
ends a segment, or the path. Decoding gives the text back, whatever characters it has. So a text can
be named in a path by its encoding, and by every other spelling that decodes to it.
-/

namespace CampusRules.Percent

/-- Whether a character can stand in a segment of a path: it ends neither the segment nor the
path. -/
def IsInner (character : Char) : Prop := character ≠ '/' ∧ character ≠ '?' ∧ character ≠ '#'

instance (character : Char) : Decidable (IsInner character) :=
  inferInstanceAs (Decidable (_ ∧ _))

/-- Whether a segment of a path names a text. -/
structure Spells (name text : String) : Prop where
  decoded : decode? name = some text
  inner : ∀ character ∈ name.toList, IsInner character

/-- The byte of a character that has one byte. -/
def byteOf (character : Char) : UInt8 := UInt8.ofNat character.toNat

/-- Characters that have one byte each are encoded as these. -/
theorem bytes_ofList {characters : List Char}
    (single : ∀ character ∈ characters, character.toNat ≤ 127) :
    bytes (String.ofList characters) = characters.map byteOf := by
  have all : characters.flatMap String.utf8EncodeChar = characters.map byteOf := by
    induction characters with
    | nil => rfl
    | cons first rest inductionHypothesis =>
      obtain ⟨here, behind⟩ := List.forall_mem_cons.mp single
      have encoded : String.utf8EncodeChar first = [byteOf first] := if_pos here
      rw [List.flatMap_cons, encoded, inductionHypothesis behind]
      rfl
  rw [bytes, String.toUTF8, String.toByteArray_ofList, List.utf8Encode, List.data_toByteArray, all]

/-- What holds of the bytes of any two hexadecimal digits holds of every byte. -/
theorem forall_byte {property : UInt8 → Prop}
    (all : ∀ high < 16, ∀ low < 16, property (UInt8.ofNat (16 * high + low))) (byte : UInt8) :
    property byte := by
  have small := byte.toNat_lt
  have held := all (byte.toNat / 16) (by omega) (byte.toNat % 16) (by omega)
  rwa [Nat.div_add_mod, UInt8.ofNat_toNat] at held

/-- A byte is encoded in characters that have one byte each, and can stand in a segment. -/
theorem encodeByte_inner (byte : UInt8) :
    ∀ character ∈ encodeByte byte, character.toNat ≤ 127 ∧ IsInner character := by
  have all : ∀ byte, (encodeByte byte).all
      (fun character => decide (character.toNat ≤ 127 ∧ IsInner character)) = true :=
    forall_byte (by decide +kernel)
  exact fun character member => of_decide_eq_true (List.all_eq_true.mp (all byte) character member)

/-- A byte that needs no escape is its own encoding, and begins no escape. -/
theorem encodeByte_of_isPlain (byte : UInt8) (plain : isPlain byte = true) :
    (encodeByte byte).map byteOf = [byte] ∧ byte ≠ 0x25 := by
  revert byte
  exact forall_byte (by decide +kernel)

/-- The escape of a byte is read as that byte. -/
theorem escaped?_encodeByte (byte : UInt8) (plain : isPlain byte = false) (rest : List UInt8) :
    ∃ high low, (encodeByte byte).map byteOf = [0x25, high, low] ∧
      escaped? (0x25 :: high :: low :: rest) = some byte := by
  have digits : ∀ byte : UInt8, isPlain byte = false →
      (encodeByte byte).map byteOf = [0x25, byteOf (Json.hexDigit (byte.toNat / 16)),
        byteOf (Json.hexDigit (byte.toNat % 16))] ∧
      escaped? [0x25, byteOf (Json.hexDigit (byte.toNat / 16)),
        byteOf (Json.hexDigit (byte.toNat % 16))] = some byte :=
    forall_byte (by decide +kernel)
  obtain ⟨encoded, read⟩ := digits byte plain
  exact ⟨_, _, encoded, read⟩

/-- Only the mark of an escape begins one. -/
theorem escaped?_of_ne {byte : UInt8} (other : byte ≠ 0x25) (rest : List UInt8) :
    escaped? (byte :: rest) = none := by
  unfold escaped?
  split
  · rename_i mark high low behind split
    obtain ⟨rfl, _⟩ := List.cons.inj split
    exact if_neg other
  · rfl

/-- Decoding takes what a byte is encoded as for that byte. -/
theorem decodeBytes_encodeByte (byte : UInt8) (rest : List UInt8) :
    decodeBytes 0 ((encodeByte byte).map byteOf ++ rest) = byte :: decodeBytes 0 rest := by
  cases plain : isPlain byte with
  | true =>
    obtain ⟨itself, other⟩ := encodeByte_of_isPlain byte plain
    rw [itself, List.singleton_append]
    simp only [decodeBytes, escaped?_of_ne other]
  | false =>
    obtain ⟨high, low, encoded, read⟩ := escaped?_encodeByte byte plain rest
    rw [encoded, List.cons_append, List.cons_append, List.singleton_append]
    simp only [decodeBytes, read]

/-- Decoding takes what bytes are encoded as for these bytes. -/
theorem decodeBytes_encode (encoded : List UInt8) :
    decodeBytes 0 ((encoded.flatMap encodeByte).map byteOf) = encoded := by
  induction encoded with
  | nil => rfl
  | cons byte rest inductionHypothesis =>
    rw [List.flatMap_cons, List.map_append, decodeBytes_encodeByte, inductionHypothesis]

/-- The characters of an encoded text have one byte each, and can stand in a segment. -/
theorem encode_inner (text : String) :
    ∀ character ∈ (encode text).toList, character.toNat ≤ 127 ∧ IsInner character := by
  intro character member
  rw [encode, String.toList_ofList] at member
  obtain ⟨byte, _, among⟩ := List.mem_flatMap.mp member
  exact encodeByte_inner byte character among

/-- Every text comes back from its encoding. -/
theorem decode?_encode (text : String) : decode? (encode text) = some text := by
  have single : ∀ character ∈ (bytes text).flatMap encodeByte, character.toNat ≤ 127 := by
    intro character member
    refine (encode_inner text character ?_).1
    rw [encode, String.toList_ofList]
    exact member
  have back : decodeBytes 0 (bytes (encode text)) = bytes text := by
    rw [encode, bytes_ofList single, decodeBytes_encode]
  have whole : (⟨(bytes text).toArray⟩ : ByteArray) = text.toUTF8 := rfl
  rw [decode?, back, whole, Json.Bytes.fromUTF8?_toUTF8]

/-- The encoding of a text names it. -/
theorem spells_encode (text : String) : Spells (encode text) text :=
  ⟨decode?_encode text, fun character member => (encode_inner text character member).2⟩

/-- Different texts have different encodings. -/
theorem encode_injective {first second : String} (same : encode first = encode second) :
    first = second := by
  have decoded := decode?_encode first
  rw [same, decode?_encode second] at decoded
  exact (Option.some.inj decoded).symm

end CampusRules.Percent
