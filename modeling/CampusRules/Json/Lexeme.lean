import CampusRules.Json.Basic

/-!
# The lexemes of JSON text

A lexeme is a bracket, a separator, a word, a number or a string. Two lexemes are
well formed as text but stand for no value: a number beyond the largest finite
float, and a string with an unpaired surrogate escape. They may be skipped but
not used, so they stay in the list without a value.

`lexemes` splits a text up to its end or to the first place where no lexeme
begins; there the list ends with `stray`, and what follows is dropped.
-/

namespace CampusRules.Json

/-- A lexeme of JSON text. -/
inductive Lexeme where
  | openArray
  | closeArray
  | openObject
  | closeObject
  | comma
  | colon
  | null
  | bool (value : Bool)
  | number (value : Option Number)
  | string (value : Option String)
  | stray
  deriving DecidableEq

namespace Lexeme

/-- The blanks that may stand between lexemes. -/
def isSeparator (character : Char) : Bool :=
  character == ' ' || character == '\n' || character == '\t' || character == '\r'

/-- The number that a literal stands for. Without point and exponent it is an
integer if that fits, except that a negative zero is a float; a literal beyond
the finite floats has no value.

A float is taken to be rounded once, to the one nearest to the literal. This is an
assumption on the reader of texts: one that also rounds on the way ends one unit beside
that for some literals of many digits. -/
def numberValue (decimal : Decimal) (isWhole : Bool) : Option Number :=
  let integer : Int := if decimal.negative then -decimal.significand else decimal.significand
  if fitting : isWhole ∧ Number.Fits integer ∧ ¬(decimal.negative ∧ decimal.significand = 0) then
    some (.integer integer fitting.2.1)
  else match decimal.toQuantity with
    | .finite value => some (.float value)
    | _ => none

/-- Splits off the digits of the whole part: a single zero, or digits that do not
begin with zero. -/
def wholeDigits? (text : List Char) : Option (List Char × List Char) :=
  match text.takeWhile isDigit with
  | [] => none
  | ['0'] => some (['0'], text.dropWhile isDigit)
  | '0' :: _ => none
  | digits => some (digits, text.dropWhile isDigit)

/-- Splits off a fraction, if there is a point; a point needs a digit. -/
def fractionDigits? (text : List Char) : Option (List Char × List Char) :=
  match text with
  | '.' :: rest =>
    if rest.takeWhile isDigit = [] then none
    else some (rest.takeWhile isDigit, rest.dropWhile isDigit)
  | rest => some ([], rest)

/-- Splits off the digits of an exponent behind its letter. -/
def exponentDigits? (text : List Char) : Option (Option Int × List Char) :=
  let (negative, rest) := Decimal.splitSign text
  let digits := rest.takeWhile isDigit
  if digits = [] then none
  else some (some (if negative then -(numeral digits : Int) else numeral digits),
    rest.dropWhile isDigit)

/-- Splits off an exponent, if there is one; its absence is not an error. -/
def exponent? (text : List Char) : Option (Option Int × List Char) :=
  match text with
  | 'e' :: rest => exponentDigits? rest
  | 'E' :: rest => exponentDigits? rest
  | rest => some (none, rest)

/-- Splits off a number literal behind an optional minus sign. -/
def number? (negative : Bool) (text : List Char) : Option (Lexeme × List Char) := do
  let (whole, afterWhole) ← wholeDigits? text
  let (fraction, afterFraction) ← fractionDigits? afterWhole
  let (exponent, rest) ← exponent? afterFraction
  let decimal : Decimal :=
    ⟨negative, numeral (whole ++ fraction), exponent.getD 0 - fraction.length⟩
  some (.number (numberValue decimal (fraction.isEmpty && exponent.isNone)), rest)

/-- The value of four hexadecimal digits. -/
def fourHex? (first second third fourth : Char) : Option Nat := do
  let a ← radixDigit? 16 first
  let b ← radixDigit? 16 second
  let c ← radixDigit? 16 third
  let d ← radixDigit? 16 fourth
  some (((a * 16 + b) * 16 + c) * 16 + d)

/-- Reads the rest of a string behind its opening quote. `written` holds the
characters so far, latest first; `leading` is a leading surrogate that waits for
its partner; `sound` turns false at an unpaired surrogate. -/
def stringTail (written : List Char) (leading : Option Nat) (sound : Bool) :
    List Char → Option (Lexeme × List Char)
  | [] => none
  | '"' :: rest =>
    some (.string (if sound && leading.isNone then some (String.ofList written.reverse) else none),
      rest)
  | '\\' :: 'u' :: first :: second :: third :: fourth :: rest =>
    match fourHex? first second third fourth with
    | none => none
    | some unit =>
      if 0xDC00 ≤ unit ∧ unit ≤ 0xDFFF then
        match leading with
        | some lead =>
          stringTail (Char.ofNat ((lead - 0xD800) * 0x400 + (unit - 0xDC00) + 0x10000) :: written)
            none sound rest
        | none => stringTail written none false rest
      else if 0xD800 ≤ unit ∧ unit ≤ 0xDBFF then
        stringTail written (some unit) (sound && leading.isNone) rest
      else stringTail (Char.ofNat unit :: written) none (sound && leading.isNone) rest
  | '\\' :: letter :: rest =>
    let plain : Option Char := match letter with
      | '"' => some '"'
      | '\\' => some '\\'
      | '/' => some '/'
      | 'b' => some '\x08'
      | 'f' => some '\x0c'
      | 'n' => some '\n'
      | 'r' => some '\r'
      | 't' => some '\t'
      | _ => none
    match plain with
    | none => none
    | some character => stringTail (character :: written) none (sound && leading.isNone) rest
  | character :: rest =>
    if character.toNat < 0x20 ∨ character = '\\' then none
    else stringTail (character :: written) none (sound && leading.isNone) rest

/-- Splits off the lexeme that a text begins with; blanks are not skipped. -/
def first? : List Char → Option (Lexeme × List Char)
  | '[' :: rest => some (.openArray, rest)
  | ']' :: rest => some (.closeArray, rest)
  | '{' :: rest => some (.openObject, rest)
  | '}' :: rest => some (.closeObject, rest)
  | ',' :: rest => some (.comma, rest)
  | ':' :: rest => some (.colon, rest)
  | 'n' :: 'u' :: 'l' :: 'l' :: rest => some (.null, rest)
  | 't' :: 'r' :: 'u' :: 'e' :: rest => some (.bool true, rest)
  | 'f' :: 'a' :: 'l' :: 's' :: 'e' :: rest => some (.bool false, rest)
  | '"' :: rest => stringTail [] none true rest
  | '-' :: rest => number? true rest
  | text => number? false text

theorem length_dropWhile_le {α : Type} (keep : α → Bool) (items : List α) :
    (items.dropWhile keep).length ≤ items.length :=
  (List.dropWhile_sublist keep).length_le

theorem length_dropWhile_lt {α : Type} (keep : α → Bool) (items : List α)
    (taken : items.takeWhile keep ≠ []) : (items.dropWhile keep).length < items.length := by
  have parts := congrArg List.length (List.takeWhile_append_dropWhile (p := keep) (l := items))
  simp only [List.length_append] at parts
  have positive : 0 < (items.takeWhile keep).length := List.length_pos_iff.mpr taken
  omega

theorem wholeDigits?_shorter {text digits rest : List Char}
    (split : wholeDigits? text = some (digits, rest)) : rest.length < text.length := by
  unfold wholeDigits? at split
  have taken : text.takeWhile isDigit ≠ [] := by
    intro none_taken
    simp [none_taken] at split
  have shorter := length_dropWhile_lt isDigit text taken
  split at split <;> simp_all

theorem fractionDigits?_shorter {text digits rest : List Char}
    (split : fractionDigits? text = some (digits, rest)) : rest.length ≤ text.length := by
  unfold fractionDigits? at split
  split at split
  · split at split
    · simp at split
    · simp only [Option.some.injEq, Prod.mk.injEq] at split
      have := length_dropWhile_le isDigit
      simp only [← split.2, List.length_cons]
      exact Nat.le_succ_of_le (this _)
  · simp_all

theorem splitSign_shorter (text : List Char) :
    (Decimal.splitSign text).2.length ≤ text.length := by
  unfold Decimal.splitSign
  split <;> simp

theorem exponent?_shorter {text rest : List Char} {value : Option Int}
    (split : exponent? text = some (value, rest)) : rest.length ≤ text.length := by
  have behind : ∀ {tail : List Char}, exponentDigits? tail = some (value, rest) →
      rest.length ≤ tail.length := by
    intro tail found
    unfold exponentDigits? at found
    have signed := splitSign_shorter tail
    have dropped := length_dropWhile_le isDigit (Decimal.splitSign tail).2
    split at found
    rename_i sign unsigned parts
    rw [parts] at signed dropped
    simp only at found
    split at found
    · simp at found
    · simp only [Option.some.injEq, Prod.mk.injEq] at found
      rw [← found.2]
      exact Nat.le_trans dropped signed
  unfold exponent? at split
  split at split
  · exact Nat.le_succ_of_le (behind split)
  · exact Nat.le_succ_of_le (behind split)
  · simp_all

theorem number?_shorter {negative : Bool} {text rest : List Char} {lexeme : Lexeme}
    (split : number? negative text = some (lexeme, rest)) : rest.length < text.length := by
  unfold number? at split
  simp only [Option.bind_eq_bind, Option.bind_eq_some_iff, Prod.exists] at split
  obtain ⟨whole, afterWhole, wholeSplit, fraction, afterFraction, fractionSplit,
    exponent, afterExponent, exponentSplit, done⟩ := split
  simp only [Option.some.injEq, Prod.mk.injEq] at done
  have first := wholeDigits?_shorter wholeSplit
  have second := fractionDigits?_shorter fractionSplit
  have third := exponent?_shorter exponentSplit
  rw [← done.2]
  omega

theorem stringTail_shorter {written text rest : List Char} {leading : Option Nat} {sound : Bool}
    {lexeme : Lexeme} (split : stringTail written leading sound text = some (lexeme, rest)) :
    rest.length < text.length := by
  fun_induction stringTail written leading sound text <;> simp_all <;> omega

theorem first?_shorter {text rest : List Char} {lexeme : Lexeme}
    (split : first? text = some (lexeme, rest)) : rest.length < text.length := by
  unfold first? at split
  split at split
  all_goals first
    | (simp only [Option.some.injEq, Prod.mk.injEq] at split
       simp only [← split.2, List.length_cons]; omega)
    | exact Nat.lt_succ_of_lt (stringTail_shorter split)
    | exact Nat.lt_succ_of_lt (number?_shorter split)
    | exact number?_shorter split

end Lexeme

/-- The lexemes of a text, up to its end or to the first place where none begins. -/
def lexemes (text : List Char) : List Lexeme :=
  let trimmed := text.dropWhile Lexeme.isSeparator
  match _found : Lexeme.first? trimmed with
  | none => if trimmed.isEmpty then [] else [.stray]
  | some (lexeme, rest) => lexeme :: lexemes rest
termination_by text.length
decreasing_by
  exact Nat.lt_of_lt_of_le (Lexeme.first?_shorter _found)
    (Lexeme.length_dropWhile_le _ text)

end CampusRules.Json
