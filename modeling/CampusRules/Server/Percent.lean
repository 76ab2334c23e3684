import CampusRules.Json.Printer

/-!
# Percent encoding

A text inside a path has some of its bytes written as `%` and two hexadecimal
digits. Decoding takes such an escape for its byte, leaves a `%` without two digits
behind it as it is, and needs the bytes to be a text in the end. Encoding escapes
every byte that is not a letter, a digit, or one of `-`, `.`, `_` and `~`.
-/

namespace CampusRules.Percent

/-- The bytes of a text. -/
def bytes (text : String) : List UInt8 := text.toUTF8.data.toList

/-- The value of a hexadecimal digit in either case. -/
def hexValue? (byte : UInt8) : Option UInt8 :=
  if 0x30 ≤ byte ∧ byte ≤ 0x39 then some (byte - 0x30)
  else if 0x41 ≤ byte ∧ byte ≤ 0x46 then some (byte - 0x41 + 10)
  else if 0x61 ≤ byte ∧ byte ≤ 0x66 then some (byte - 0x61 + 10)
  else none

/-- The byte that an escape stands for at the start of a list of bytes. -/
def escaped? : List UInt8 → Option UInt8
  | mark :: high :: low :: _ =>
    if mark = 0x25 then do
      let upper ← hexValue? high
      let lower ← hexValue? low
      some (16 * upper + lower)
    else none
  | _ => none

/-- Bytes with their escapes taken for what they stand for. `covered` counts the
bytes at the start that belong to the last escape. -/
def decodeBytes : (covered : Nat) → List UInt8 → List UInt8
  | _, [] => []
  | covered + 1, _ :: rest => decodeBytes covered rest
  | 0, byte :: rest =>
    match escaped? (byte :: rest) with
    | some value => value :: decodeBytes 2 rest
    | none => byte :: decodeBytes 0 rest

/-- The text that an encoded text stands for, if it is one. -/
def decode? (text : String) : Option String :=
  String.fromUTF8? ⟨(decodeBytes 0 (bytes text)).toArray⟩

/-- Whether a byte needs no escape. -/
def isPlain (byte : UInt8) : Bool :=
  (0x30 ≤ byte && byte ≤ 0x39) || (0x41 ≤ byte && byte ≤ 0x5a) ||
    (0x61 ≤ byte && byte ≤ 0x7a) || byte == 0x2d || byte == 0x2e || byte == 0x5f || byte == 0x7e

/-- A byte inside an encoded text. -/
def encodeByte (byte : UInt8) : List Char :=
  if isPlain byte then [Char.ofNat byte.toNat]
  else ['%', Json.hexDigit (byte.toNat / 16), Json.hexDigit (byte.toNat % 16)]

/-- A text encoded. -/
def encode (text : String) : String := String.ofList ((bytes text).flatMap encodeByte)

end CampusRules.Percent
