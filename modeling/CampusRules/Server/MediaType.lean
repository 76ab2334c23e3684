/-!
# Media types

Whether the content type of a request says that its body is JSON. A media type is
two tokens with a slash between them, the second perhaps with a suffix behind its
last plus sign, and parameters behind semicolons. It is JSON when the first token
is `application` and the second, without its suffix, or the suffix is `json`, in
any case. One that is not well-formed is not JSON.
-/

namespace CampusRules.MediaType

/-- Whether a character may stand in a token. -/
def isTokenCharacter (character : Char) : Bool :=
  character.isAlphanum || "!#$%&'*+-.^_`|~".toList.contains character

/-- Where a reader of parameters stands. -/
inductive Place where
  | between
  | name
  | valueStart
  | value
  | quotedStart
  | quoted
  | afterQuoted
  deriving DecidableEq

/-- The place after one more character. -/
def advance? (place : Place) (character : Char) : Option Place :=
  let isToken := isTokenCharacter character
  let mayBeQuoted := 32 ≤ character.toNat && character.toNat < 127
  match place with
  | .between => if character = ' ' then some .between else if isToken then some .name else none
  | .name => if isToken then some .name else if character = '=' then some .valueStart else none
  | .valueStart =>
    if character = '"' then some .quotedStart else if isToken then some .value else none
  | .value => if isToken then some .value else if character = ';' then some .between else none
  | .quotedStart => if mayBeQuoted then some .quoted else none
  | .quoted =>
    if character = '"' then some .afterQuoted else if mayBeQuoted then some .quoted else none
  | .afterQuoted =>
    if character = ';' then some .between
    else if character = ' ' then some .afterQuoted
    else none

/-- Whether parameters may end at a place. -/
def Place.mayEnd : Place → Bool
  | .between | .valueStart | .value | .afterQuoted => true
  | .name | .quotedStart | .quoted => false

/-- Whether a text, from behind the first semicolon on, is a list of parameters. -/
def areParameters (text : List Char) : Bool :=
  (text.foldlM advance? Place.between).any Place.mayEnd

/-- A token without the suffix behind its last plus sign, and that suffix. A plus
sign at the start begins no suffix. -/
def splitSuffix (token : List Char) : List Char × Option (List Char) :=
  let suffix := (token.reverse.takeWhile (· != '+')).reverse
  let base := token.take (token.length - suffix.length - 1)
  if token.contains '+' ∧ base ≠ [] then (base, some suffix) else (token, none)

/-- Whether a word is another one in any case. -/
def isWord (word : String) (text : List Char) : Bool := text.map Char.toLower == word.toList

/-- Whether a content type says that a body is JSON. -/
def isJson (contentType : String) : Bool :=
  let text := contentType.toList
  let first := text.takeWhile (· != '/')
  let rest := (text.drop first.length).drop 1
  let second := rest.takeWhile (· != ';')
  let parameters := (rest.drop second.length).drop 1
  let (base, suffix) := splitSuffix second
  isWord "application" first && second.all isTokenCharacter && areParameters parameters &&
    (isWord "json" base || suffix.any (isWord "json"))

end CampusRules.MediaType
