import CampusRules.Json.Bytes
import CampusRules.Json.Printer
import CampusRules.Proofs.Json.Number

/-!
# Written JSON falls into its lexemes

A quoted string reads as that string, character by character: what is escaped comes back as
what it stands for, and everything else stands for itself. With the numbers, this makes the
lexemes of a written value those that its structure asks for, whatever the indentation, and
whether the value is written over several lines or on one.
-/

namespace CampusRules.Json

namespace Lexeme

/-- A hexadecimal digit has the value that it was written for. -/
theorem radixDigit?_hexDigit {value : Nat} (small : value < 16) :
    radixDigit? 16 (hexDigit value) = some value := by
  have all : ∀ value < 16, radixDigit? 16 (hexDigit value) = some value := by decide
  exact all value small

/-- The four digits that a control character is written with give its code. -/
theorem fourHex?_control {code : Nat} (control : code < 0x20) :
    fourHex? '0' '0' (hexDigit (code / 16)) (hexDigit (code % 16)) = some code := by
  have upper : radixDigit? 16 (hexDigit (code / 16)) = some (code / 16) :=
    radixDigit?_hexDigit (by omega)
  have lower : radixDigit? 16 (hexDigit (code % 16)) = some (code % 16) :=
    radixDigit?_hexDigit (by omega)
  have zero : radixDigit? 16 '0' = some 0 := by decide
  have whole : ((0 * 16 + 0) * 16 + code / 16) * 16 + code % 16 = code := by omega
  simp only [fourHex?, zero, upper, lower, Option.bind_eq_bind, Option.bind_some, whole]

/-- A control character comes back from its code. -/
theorem stringTail_control {character : Char} (control : character.toNat < 0x20)
    (written rest : List Char) :
    stringTail written none true
        ('\\' :: 'u' :: '0' :: '0' :: hexDigit (character.toNat / 16) ::
          hexDigit (character.toNat % 16) :: rest) =
      stringTail (character :: written) none true rest := by
  rw [stringTail, fourHex?_control control]
  have noTrail : ¬(0xDC00 ≤ character.toNat ∧ character.toNat ≤ 0xDFFF) := by omega
  have noLead : ¬(0xD800 ≤ character.toNat ∧ character.toNat ≤ 0xDBFF) := by omega
  simp only [noTrail, noLead, if_false, Char.ofNat_toNat]
  rfl

/-- A character that needs no escape stands for itself. -/
theorem stringTail_plain {character : Char} (printable : 0x20 ≤ character.toNat)
    (noQuote : character ≠ '"') (noEscape : character ≠ '\\') (written rest : List Char) :
    stringTail written none true (character :: rest) =
      stringTail (character :: written) none true rest := by
  have kept : ¬(character.toNat < 0x20 ∨ character = '\\') := by
    rintro (control | backslash)
    · omega
    · exact noEscape backslash
  rw [stringTail, if_neg kept]
  · rfl
  · exact noQuote
  · rintro first second third fourth others rfl
    exact absurd rfl noEscape
  · rintro letter others rfl
    exact absurd rfl noEscape

/-- An escaped character comes back as itself. -/
theorem stringTail_escape (character : Char) (written rest : List Char) :
    stringTail written none true (escape character ++ rest) =
      stringTail (character :: written) none true rest := by
  unfold escape
  split
  case h_8 noQuote noEscape _ _ _ _ _ =>
    by_cases control : character.toNat < 0x20
    · rw [if_pos control]
      exact stringTail_control control written rest
    · rw [if_neg control]
      exact stringTail_plain (by omega) noQuote noEscape written rest
  -- the escapes by a letter are the same in both directions
  all_goals
    rw [List.cons_append, List.cons_append, List.nil_append, stringTail]
    rfl

/-- The characters of a quoted string come back up to its closing quote. -/
theorem stringTail_quoted (text written rest : List Char) :
    stringTail written none true (text.flatMap escape ++ '"' :: rest) =
      some (.string (some (String.ofList (written.reverse ++ text))), rest) := by
  induction text generalizing written with
  | nil => simp [stringTail]
  | cons character others inductionHypothesis =>
    rw [List.flatMap_cons, List.append_assoc, stringTail_escape, inductionHypothesis]
    simp

/-- A quoted string reads as that string. -/
theorem first?_quote (text : String) (rest : List Char) :
    first? (quote text ++ rest) = some (.string (some text), rest) := by
  have read := stringTail_quoted text.toList [] rest
  rw [List.reverse_nil, List.nil_append, String.ofList_toList] at read
  have shape : quote text ++ rest = '"' :: (text.toList.flatMap escape ++ '"' :: rest) := by
    simp [quote]
  rw [shape]
  exact read

/-- A string of which a part cannot be used cannot be used as a whole. -/
theorem stringTail_unsound {written text rest : List Char} {leading : Option Nat} {sound : Bool}
    {lexeme : Lexeme} (unsound : sound = false)
    (read : stringTail written leading sound text = some (lexeme, rest)) :
    lexeme = .string none := by
  fun_induction stringTail written leading sound text with
  | case1 | case3 | case8 | case10 => cases read
  | case2 =>
    rw [unsound] at read
    cases read
    rfl
  | case4 | case5 | case6 | case7 | case9 | case11 =>
    -- One more character never makes a string sound again.
    rename_i inductionHypothesis
    exact inductionHypothesis (by simp [unsound]) read

/-- A byte that is part of no character spoils the string that it stands in. -/
theorem stringTail_mark {written behind rest : List Char} {leading : Option Nat} {sound : Bool}
    {lexeme : Lexeme}
    (read : stringTail written leading sound (Bytes.mark ++ behind) = some (lexeme, rest)) :
    lexeme = .string none := by
  have spoiled : stringTail written leading sound (Bytes.mark ++ behind) =
      stringTail (' ' :: written) none false behind := by
    have half : fourHex? 'd' '8' '0' '0' = some 0xD800 := by decide
    simp [Bytes.mark, stringTail, half]
  exact stringTail_unsound rfl (spoiled.symm.trans read)

/-- Outside of strings no lexeme begins with a byte that is part of no character. -/
theorem first?_mark (behind : List Char) : first? (Bytes.mark ++ behind) = none := rfl

/-- No lexeme begins with a blank. -/
theorem first?_separator {blank : Char} (separates : isSeparator blank = true)
    (rest : List Char) : first? (blank :: rest) = none := by
  have cases : blank = ' ' ∨ blank = '\n' ∨ blank = '\t' ∨ blank = '\r' := by
    simpa [isSeparator, or_assoc] using separates
  rcases cases with rfl | rfl | rfl | rfl <;> rfl

mutual

/-- The lexemes that a value is written with. -/
def ofValue : Json → List Lexeme
  | .null => [.null]
  | .bool value => [.bool value]
  | .number value => [.number (some value)]
  | .string value => [.string (some value)]
  | .array [] => [.openArray, .closeArray]
  | .array (first :: rest) => .openArray :: ofValue first ++ ofItems rest ++ [.closeArray]
  | .object [] => [.openObject, .closeObject]
  | .object ((key, value) :: rest) =>
    .openObject :: .string (some key) :: .colon :: ofValue value ++ ofMembers rest ++
      [.closeObject]
termination_by structural value => value

/-- The lexemes of the items after the first, each behind its comma. -/
def ofItems : List Json → List Lexeme
  | [] => []
  | item :: items => .comma :: ofValue item ++ ofItems items
termination_by structural items => items

/-- The lexemes of the members after the first, each behind its comma. -/
def ofMembers : List (String × Json) → List Lexeme
  | [] => []
  | (key, value) :: members =>
    .comma :: .string (some key) :: .colon :: ofValue value ++ ofMembers members
termination_by structural members => members

end
end Lexeme

open Lexeme (first? isSeparator)

/-- A lexeme at the front of a text is the first of its lexemes. -/
theorem lexemes_first {text rest : List Char} {lexeme : Lexeme}
    (front : first? text = some (lexeme, rest)) : lexemes text = lexeme :: lexemes rest := by
  have trimmed : text.dropWhile isSeparator = text := by
    cases text with
    | nil => rfl
    | cons first others =>
      refine List.dropWhile_cons_of_neg ?_
      intro separates
      rw [Lexeme.first?_separator separates] at front
      cases front
  rw [lexemes]
  split
  · rename_i none_first
    rw [trimmed, front] at none_first
    cases none_first
  · rename_i other behind same
    rw [trimmed, front] at same
    obtain ⟨rfl, rfl⟩ := Prod.mk.inj (Option.some.inj same)
    rfl

/-- Blanks in front of a text make no difference to its lexemes. -/
theorem lexemes_separator {blank : Char} (separates : isSeparator blank = true)
    (rest : List Char) : lexemes (blank :: rest) = lexemes rest := by
  have trimmed : (blank :: rest).dropWhile isSeparator = rest.dropWhile isSeparator :=
    List.dropWhile_cons_of_pos separates
  rw [lexemes, lexemes]
  rw [trimmed]

/-- A line break and its indentation make no difference to the lexemes behind them. -/
theorem lexemes_lineBreak (level : Nat) (rest : List Char) :
    lexemes (lineBreak level ++ rest) = lexemes rest := by
  have spaces : ∀ count, lexemes (List.replicate count ' ' ++ rest) = lexemes rest := by
    intro count
    induction count with
    | zero => rfl
    | succ count inductionHypothesis =>
      rw [List.replicate_succ, List.cons_append, lexemes_separator rfl, inductionHypothesis]
  rw [lineBreak, List.cons_append, lexemes_separator rfl, spaces]

/-- A line break ends a number. -/
theorem ends_lineBreak (level : Nat) (rest : List Char) : Ends (lineBreak level ++ rest) := by
  intro first begins
  obtain rfl : '\n' = first := by simpa [lineBreak] using begins
  decide

/-- A separator ends a number. -/
theorem ends_comma (rest : List Char) : Ends (',' :: rest) := by
  intro first begins
  obtain rfl : ',' = first := by simpa using begins
  decide

/-- What follows the first item of a list ends a number if what follows the list does. -/
theorem ends_prettyItems (level : Nat) (items : List Json) {rest : List Char}
    (ends : Ends rest) : Ends (prettyItems level items ++ rest) := by
  cases items with
  | nil => exact ends
  | cons item items =>
    rw [prettyItems]
    exact ends_comma _

/-- What follows the first of some members ends a number if what follows them all does. -/
theorem ends_prettyMembers (level : Nat) (members : List (String × Json)) {rest : List Char}
    (ends : Ends rest) : Ends (prettyMembers level members ++ rest) := by
  rcases members with _ | ⟨⟨key, value⟩, members⟩
  · exact ends
  · rw [prettyMembers]
    exact ends_comma _

/-- A key and its colon are two lexemes. -/
theorem lexemes_key (key : String) (rest : List Char) :
    lexemes (quote key ++ ':' :: ' ' :: rest) =
      .string (some key) :: .colon :: lexemes rest := by
  have colon : first? (':' :: ' ' :: rest) = some (.colon, ' ' :: rest) := rfl
  rw [lexemes_first (Lexeme.first?_quote key _), lexemes_first colon, lexemes_separator rfl]

mutual

/-- The lexemes of a written value are those of its structure. -/
theorem lexemes_pretty (level : Nat) (value : Json) {rest : List Char} (ends : Ends rest) :
    lexemes (value.pretty level ++ rest) = Lexeme.ofValue value ++ lexemes rest := by
  match value with
  | .null => exact lexemes_first rfl
  | .bool true => exact lexemes_first rfl
  | .bool false => exact lexemes_first rfl
  | .number value => exact lexemes_first (Lexeme.first?_number value ends)
  | .string value => exact lexemes_first (Lexeme.first?_quote value rest)
  | .array [] =>
    have opened : first? ('[' :: ']' :: rest) = some (.openArray, ']' :: rest) := rfl
    have closed : first? (']' :: rest) = some (.closeArray, rest) := rfl
    rw [pretty, List.cons_append, List.cons_append, List.nil_append, lexemes_first opened,
      lexemes_first closed]
    rfl
  | .array (first :: items) =>
    have opened : ∀ behind, first? ('[' :: behind) = some (.openArray, behind) := fun _ => rfl
    have closed : first? (']' :: rest) = some (.closeArray, rest) := rfl
    have afterItems := ends_lineBreak level (']' :: rest)
    have afterFirst := ends_prettyItems (level + 1) items afterItems
    simp only [pretty, Lexeme.ofValue, List.append_assoc, List.cons_append, List.nil_append]
    rw [lexemes_first (opened _), lexemes_lineBreak, lexemes_pretty (level + 1) first afterFirst,
      lexemes_prettyItems (level + 1) items afterItems, lexemes_lineBreak, lexemes_first closed]
  | .object [] =>
    have opened : first? ('{' :: '}' :: rest) = some (.openObject, '}' :: rest) := rfl
    have closed : first? ('}' :: rest) = some (.closeObject, rest) := rfl
    rw [pretty, List.cons_append, List.cons_append, List.nil_append, lexemes_first opened,
      lexemes_first closed]
    rfl
  | .object ((key, value) :: members) =>
    have opened : ∀ behind, first? ('{' :: behind) = some (.openObject, behind) := fun _ => rfl
    have closed : first? ('}' :: rest) = some (.closeObject, rest) := rfl
    have afterMembers := ends_lineBreak level ('}' :: rest)
    have afterFirst := ends_prettyMembers (level + 1) members afterMembers
    simp only [pretty, Lexeme.ofValue, List.append_assoc, List.cons_append, List.nil_append]
    rw [lexemes_first (opened _), lexemes_lineBreak, lexemes_key,
      lexemes_pretty (level + 1) value afterFirst,
      lexemes_prettyMembers (level + 1) members afterMembers, lexemes_lineBreak,
      lexemes_first closed]
termination_by structural value

/-- The lexemes of the written items after the first are those of their structure. -/
theorem lexemes_prettyItems (level : Nat) (items : List Json) {rest : List Char}
    (ends : Ends rest) :
    lexemes (prettyItems level items ++ rest) = Lexeme.ofItems items ++ lexemes rest := by
  match items with
  | [] => rfl
  | item :: items =>
    have comma : ∀ behind, first? (',' :: behind) = some (.comma, behind) := fun _ => rfl
    have afterItem := ends_prettyItems level items ends
    simp only [prettyItems, Lexeme.ofItems, List.append_assoc, List.cons_append]
    rw [lexemes_first (comma _), lexemes_lineBreak, lexemes_pretty level item afterItem,
      lexemes_prettyItems level items ends]
termination_by structural items

/-- The lexemes of the written members after the first are those of their structure. -/
theorem lexemes_prettyMembers (level : Nat) (members : List (String × Json)) {rest : List Char}
    (ends : Ends rest) :
    lexemes (prettyMembers level members ++ rest) =
      Lexeme.ofMembers members ++ lexemes rest := by
  match members with
  | [] => rfl
  | (key, value) :: members =>
    have comma : ∀ behind, first? (',' :: behind) = some (.comma, behind) := fun _ => rfl
    have afterMember := ends_prettyMembers level members ends
    simp only [prettyMembers, Lexeme.ofMembers, List.append_assoc, List.cons_append]
    rw [lexemes_first (comma _), lexemes_lineBreak, lexemes_key,
      lexemes_pretty level value afterMember, lexemes_prettyMembers level members ends]
termination_by structural members

end

/-- A whole text that is written for a value has the lexemes of that value. -/
theorem lexemes_prettyText (value : Json) :
    lexemes value.prettyText.toList = Lexeme.ofValue value := by
  have ends : Ends [] := nofun
  have read := lexemes_pretty 0 value ends
  have nothing : lexemes [] = [] := by
    rw [lexemes]
    rfl
  rw [List.append_nil, nothing, List.append_nil] at read
  rw [prettyText, String.toList_ofList, read]

/-- The end of a container ends a number. -/
theorem ends_close {bracket : Char} (closes : bracket = ']' ∨ bracket = '}') (rest : List Char) :
    Ends (bracket :: rest) := by
  intro first begins
  obtain rfl : bracket = first := by simpa using begins
  rcases closes with rfl | rfl <;> decide

/-- On one line, what follows the first item of a list ends a number if what follows the list
does. -/
theorem ends_compactItems (items : List Json) {rest : List Char} (ends : Ends rest) :
    Ends (compactItems items ++ rest) := by
  cases items with
  | nil => exact ends
  | cons item items =>
    rw [compactItems]
    exact ends_comma _

/-- On one line, what follows the first of some members ends a number if what follows them all
does. -/
theorem ends_compactMembers (members : List (String × Json)) {rest : List Char}
    (ends : Ends rest) : Ends (compactMembers members ++ rest) := by
  rcases members with _ | ⟨⟨key, value⟩, members⟩
  · exact ends
  · rw [compactMembers]
    exact ends_comma _

/-- On one line, a key and its colon are two lexemes. -/
theorem lexemes_compactKey (key : String) (rest : List Char) :
    lexemes (quote key ++ ':' :: rest) = .string (some key) :: .colon :: lexemes rest := by
  have colon : first? (':' :: rest) = some (.colon, rest) := rfl
  rw [lexemes_first (Lexeme.first?_quote key _), lexemes_first colon]

mutual

/-- The lexemes of a value that is written on one line are those of its structure. -/
theorem lexemes_compact (value : Json) {rest : List Char} (ends : Ends rest) :
    lexemes (value.compact ++ rest) = Lexeme.ofValue value ++ lexemes rest := by
  match value with
  | .null => exact lexemes_first rfl
  | .bool true => exact lexemes_first rfl
  | .bool false => exact lexemes_first rfl
  | .number value => exact lexemes_first (Lexeme.first?_number value ends)
  | .string value => exact lexemes_first (Lexeme.first?_quote value rest)
  | .array [] =>
    have opened : first? ('[' :: ']' :: rest) = some (.openArray, ']' :: rest) := rfl
    have closed : first? (']' :: rest) = some (.closeArray, rest) := rfl
    rw [compact, List.cons_append, List.cons_append, List.nil_append, lexemes_first opened,
      lexemes_first closed]
    rfl
  | .array (first :: items) =>
    have opened : ∀ behind, first? ('[' :: behind) = some (.openArray, behind) := fun _ => rfl
    have closed : first? (']' :: rest) = some (.closeArray, rest) := rfl
    have afterItems := ends_close (.inl rfl) rest
    have afterFirst := ends_compactItems items afterItems
    simp only [compact, Lexeme.ofValue, List.append_assoc, List.cons_append, List.nil_append]
    rw [lexemes_first (opened _), lexemes_compact first afterFirst,
      lexemes_compactItems items afterItems, lexemes_first closed]
  | .object [] =>
    have opened : first? ('{' :: '}' :: rest) = some (.openObject, '}' :: rest) := rfl
    have closed : first? ('}' :: rest) = some (.closeObject, rest) := rfl
    rw [compact, List.cons_append, List.cons_append, List.nil_append, lexemes_first opened,
      lexemes_first closed]
    rfl
  | .object ((key, value) :: members) =>
    have opened : ∀ behind, first? ('{' :: behind) = some (.openObject, behind) := fun _ => rfl
    have closed : first? ('}' :: rest) = some (.closeObject, rest) := rfl
    have afterMembers := ends_close (.inr rfl) rest
    have afterFirst := ends_compactMembers members afterMembers
    simp only [compact, Lexeme.ofValue, List.append_assoc, List.cons_append, List.nil_append]
    rw [lexemes_first (opened _), lexemes_compactKey, lexemes_compact value afterFirst,
      lexemes_compactMembers members afterMembers, lexemes_first closed]
termination_by structural value

/-- The lexemes of items that are written on one line after the first are those of their
structure. -/
theorem lexemes_compactItems (items : List Json) {rest : List Char} (ends : Ends rest) :
    lexemes (compactItems items ++ rest) = Lexeme.ofItems items ++ lexemes rest := by
  match items with
  | [] => rfl
  | item :: items =>
    have comma : ∀ behind, first? (',' :: behind) = some (.comma, behind) := fun _ => rfl
    have afterItem := ends_compactItems items ends
    simp only [compactItems, Lexeme.ofItems, List.append_assoc, List.cons_append]
    rw [lexemes_first (comma _), lexemes_compact item afterItem, lexemes_compactItems items ends]
termination_by structural items

/-- The lexemes of members that are written on one line after the first are those of their
structure. -/
theorem lexemes_compactMembers (members : List (String × Json)) {rest : List Char}
    (ends : Ends rest) :
    lexemes (compactMembers members ++ rest) = Lexeme.ofMembers members ++ lexemes rest := by
  match members with
  | [] => rfl
  | (key, value) :: members =>
    have comma : ∀ behind, first? (',' :: behind) = some (.comma, behind) := fun _ => rfl
    have afterMember := ends_compactMembers members ends
    simp only [compactMembers, Lexeme.ofMembers, List.append_assoc, List.cons_append]
    rw [lexemes_first (comma _), lexemes_compactKey, lexemes_compact value afterMember,
      lexemes_compactMembers members ends]
termination_by structural members

end

/-- A whole text that is written on one line for a value has the lexemes of that value. -/
theorem lexemes_compactText (value : Json) :
    lexemes value.compactText.toList = Lexeme.ofValue value := by
  have ends : Ends [] := nofun
  have read := lexemes_compact value ends
  have nothing : lexemes [] = [] := by
    rw [lexemes]
    rfl
  rw [List.append_nil, nothing, List.append_nil] at read
  rw [compactText, String.toList_ofList, read]

end CampusRules.Json
