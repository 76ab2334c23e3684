/-!
# White space

The characters with the Unicode property `White_Space`, and trimming them from
both ends of a text. The byte order mark and the zero-width space do not have
the property, so they are never trimmed.
-/

namespace CampusRules.Text

/-- Whether a character has the Unicode property `White_Space`. -/
def isBlank (character : Char) : Bool :=
  let code := character.toNat
  (9 ≤ code && code ≤ 13) || code == 0x20 || code == 0x85 || code == 0xA0 || code == 0x1680 ||
    (0x2000 ≤ code && code ≤ 0x200A) || code == 0x2028 || code == 0x2029 || code == 0x202F ||
    code == 0x205F || code == 0x3000

/-- Every character that the core library calls white space is blank. -/
theorem isBlank_of_isWhitespace (character : Char) (white : character.isWhitespace = true) :
    isBlank character = true := by
  simp only [Char.isWhitespace, Bool.or_eq_true, decide_eq_true_eq] at white
  rcases white with ((rfl | rfl) | rfl) | rfl <;> decide

/-- A text without its leading blanks. -/
def trimStart (text : List Char) : List Char := text.dropWhile isBlank

/-- A text without its trailing blanks. -/
def trimEnd (text : List Char) : List Char := (text.reverse.dropWhile isBlank).reverse

/-- A text without the blanks at both of its ends. -/
def trim (text : List Char) : List Char := trimEnd (trimStart text)

/-- Whether a text consists of blanks alone; the empty text does. -/
def allBlank (text : String) : Bool := text.toList.all isBlank

end CampusRules.Text
