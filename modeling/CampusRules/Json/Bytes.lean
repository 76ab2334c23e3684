import CampusRules.Json.Raw

/-!
# JSON out of bytes

Bytes that are a text are read as that text. In others, some bytes are part of no
character. Inside a string such a byte can be skipped but not used, as half of a
surrogate pair is, and it is spelled as one that nothing completes. Behind a backslash
it makes no escape, and elsewhere there is no JSON with it; nor is there with what it
is spelled as.
-/

namespace CampusRules.Json.Bytes

/-- The characters that bytes hold from some positions on, with nothing for a byte that
is part of no character. `covered` counts the positions at the start that belong to the
last character. -/
def characters (bytes : ByteArray) : (covered : Nat) → List Nat → List (Option Char)
  | _, [] => []
  | covered + 1, _ :: rest => characters bytes covered rest
  | 0, position :: rest =>
    match bytes.utf8DecodeChar? position with
    | some character => some character :: characters bytes (character.utf8Size - 1) rest
    | none => none :: characters bytes 0 rest

/-- What a byte that is part of no character is spelled as. The blank keeps an escape
behind it from completing the pair. -/
def mark : List Char := ['\\', 'u', 'd', '8', '0', '0', ' ']

/-- A text that is read as the characters and the other bytes are. -/
def spell : List (Option Char) → List Char
  | [] => []
  | some '\\' :: letter :: rest => '\\' :: letter.getD '?' :: spell rest
  | some character :: rest => character :: spell rest
  | none :: rest => mark ++ spell rest

/-- The text that bytes are read as. -/
def text (bytes : ByteArray) : String :=
  match String.fromUTF8? bytes with
  | some whole => whole
  | none => String.ofList (spell (characters bytes 0 (List.range bytes.size)))

/-- The bytes of a text are one. -/
theorem fromUTF8?_toUTF8 (whole : String) : String.fromUTF8? whole.toUTF8 = some whole := by
  rw [String.fromUTF8?]
  exact dif_pos whole.isValidUTF8

/-- The bytes of a text are read as that text. -/
theorem text_toUTF8 (whole : String) : text whole.toUTF8 = whole := by
  rw [text, fromUTF8?_toUTF8]

end CampusRules.Json.Bytes
