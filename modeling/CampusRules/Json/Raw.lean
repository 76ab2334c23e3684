import CampusRules.Json.Lexeme

/-!
# Raw JSON trees

A raw tree is what can be made out of a text before anyone asks what it should
mean. It keeps duplicate keys and the order of members, and it keeps the place
where a text stops being JSON: a container whose text breaks off is not `ended`,
and a value that is missing is `broken`. A text breaks off, too, where a key should
stand and something else does.

Some parts of a text can be skipped but not used: a number beyond the finite
floats, a string with an unpaired surrogate, and a container nested more than
`nestingLimit` deep. They are `unfit`, wrapped around what a skipping reader
would still go through.

`Raw.build` makes the tree from lexemes with an explicit stack of open
containers, one lexeme at a time. `Raw.value?` is the JSON value of a tree
without any fault; of duplicate members the last one counts.
-/

namespace CampusRules.Json

/-- The key of a raw member. A `garbled` key has an unpaired surrogate. -/
inductive Key where
  | text (key : String)
  | garbled
  deriving DecidableEq

/-- A JSON text as far as it goes. -/
inductive Raw where
  | null
  | bool (value : Bool)
  | number (value : Number)
  | string (value : String)
  | array (items : List Raw) (ended : Bool)
  | object (members : List (Key × Raw)) (ended : Bool)
  | unfit (skipped : Raw)
  | broken
  deriving Inhabited

namespace Raw

/-- How many arrays and objects may be open at once in a value that is used. -/
def nestingLimit : Nat := 127

/-- An open container with its contents so far, latest first. An open object may
have a key that waits for its value. -/
inductive Frame where
  | items (done : List Raw)
  | members (done : List (Key × Raw)) (waiting : Option Key)

/-- What may come next inside the innermost open container. -/
inductive Stage where
  | value
  | firstItem
  | afterItem
  | firstKey
  | nextKey
  | colon
  | afterMember
  deriving DecidableEq

/-- Marks a container unfit if it was opened below too many others. -/
def limitNesting (outer : List Frame) (container : Raw) : Raw :=
  if outer.length < nestingLimit then container else .unfit container

/-- Closes all open containers at a place where the text is broken. The innermost
value, if any, is the part of a container that had been read. -/
def abandon (inner : Option Raw) : List Frame → Raw
  | [] => inner.getD .broken
  | .items done :: outer =>
    abandon (some (limitNesting outer (.array (done.reverse ++ inner.toList) false))) outer
  | .members done waiting :: outer =>
    let last := waiting.toList.map fun key => (key, inner.getD .broken)
    abandon (some (limitNesting outer (.object (done.reverse ++ last) false))) outer

/-- The stack and stage after a value is complete; without an open container the
value is the whole tree. -/
def accept (value : Raw) : List Frame → Raw ⊕ (List Frame × Stage)
  | [] => .inl value
  | .items done :: outer => .inr (.items (value :: done) :: outer, .afterItem)
  | .members done waiting :: outer =>
    let member := waiting.toList.map fun key => (key, value)
    .inr (.members (member ++ done) none :: outer, .afterMember)

/-- The value of a lexeme that is a whole value by itself. -/
def scalar? : Lexeme → Option Raw
  | .null => some .null
  | .bool value => some (.bool value)
  | .number (some value) => some (.number value)
  | .string (some value) => some (.string value)
  | .number none | .string none => some (.unfit .null)
  | _ => none

/-- The stack and stage after a lexeme where a value may begin. -/
def beginValue (lexeme : Lexeme) (stack : List Frame) : Option (Raw ⊕ (List Frame × Stage)) :=
  match lexeme with
  | .openArray => some (.inr (.items [] :: stack, .firstItem))
  | .openObject => some (.inr (.members [] none :: stack, .firstKey))
  | other => (scalar? other).map (accept · stack)

/-- The stack and stage after the innermost container is closed. -/
def close (stack : List Frame) : Option (Raw ⊕ (List Frame × Stage)) :=
  match stack with
  | .items done :: outer => some (accept (limitNesting outer (.array done.reverse true)) outer)
  | .members done _ :: outer =>
    some (accept (limitNesting outer (.object done.reverse true)) outer)
  | [] => none

/-- The stack and stage after a key. -/
def takeKey (key : Key) (stack : List Frame) : Option (Raw ⊕ (List Frame × Stage)) :=
  match stack with
  | .members done _ :: outer => some (.inr (.members done (some key) :: outer, .colon))
  | _ => none

/-- The stack and stage after a lexeme where a key must stand. -/
def beginMember (lexeme : Lexeme) (stack : List Frame) : Option (Raw ⊕ (List Frame × Stage)) :=
  match lexeme with
  | .string (some key) => takeKey (.text key) stack
  | .string none => takeKey .garbled stack
  | _ => none

/-- One step of the builder: the finished tree, or the stack and stage to go on
with; nothing where the lexeme has no place. -/
def step (stack : List Frame) (stage : Stage) (lexeme : Lexeme) :
    Option (Raw ⊕ (List Frame × Stage)) :=
  match stage with
  | .value => beginValue lexeme stack
  | .firstItem => if lexeme = .closeArray then close stack else beginValue lexeme stack
  | .afterItem =>
    if lexeme = .closeArray then close stack
    else if lexeme = .comma then some (.inr (stack, .value)) else none
  | .firstKey => if lexeme = .closeObject then close stack else beginMember lexeme stack
  | .nextKey => beginMember lexeme stack
  | .colon => if lexeme = .colon then some (.inr (stack, .value)) else none
  | .afterMember =>
    if lexeme = .closeObject then close stack
    else if lexeme = .comma then some (.inr (stack, .nextKey)) else none

/-- Builds the tree that begins the lexemes, and returns the lexemes behind it. -/
def build (stack : List Frame) (stage : Stage) : List Lexeme → Raw × List Lexeme
  | [] => (abandon none stack, [])
  | lexeme :: rest =>
    match step stack stage lexeme with
    | none => (abandon none stack, rest)
    | some (.inl finished) => (finished, rest)
    | some (.inr (nextStack, nextStage)) => build nextStack nextStage rest

/-- The tree that a text begins with; what stands behind it is not looked at. -/
def ofStart (text : String) : Raw := (build [] .value (lexemes text.toList)).1

/-- The tree of a whole text, behind which only separators may stand. -/
def ofText (text : String) : Raw :=
  match build [] .value (lexemes text.toList) with
  | (tree, []) => tree
  | (_, _ :: _) => .broken

mutual

/-- The value of a tree without faults. -/
def value? : Raw → Option Json
  | .null => some .null
  | .bool value => some (.bool value)
  | .number value => some (.number value)
  | .string value => some (.string value)
  | .array items true => (itemValues? items).map .array
  | .object members true => (memberValues? members []).map .object
  | .array _ false | .object _ false | .unfit _ | .broken => none
termination_by structural tree => tree

/-- The values of a list of trees without faults. -/
def itemValues? : List Raw → Option (List Json)
  | [] => some []
  | item :: items => do
    let value ← item.value?
    let values ← itemValues? items
    some (value :: values)
termination_by structural trees => trees

/-- The members so far with those of a list of raw members put into them, in
order. -/
def memberValues? : List (Key × Raw) → Members → Option Members
  | [], done => some done
  | (.text key, tree) :: members, done => do
    let value ← tree.value?
    memberValues? members (done.put key value)
  | (_, _) :: _, _ => none
termination_by structural members => members

end

mutual

/-- Whether a reader that skips a tree gets through it. -/
def skippable : Raw → Bool
  | .array items ended => ended && skippableItems items
  | .object members ended => ended && skippableMembers members
  | .unfit skipped => skipped.skippable
  | .broken => false
  | _ => true
termination_by structural tree => tree

/-- Whether every tree of a list can be skipped. -/
def skippableItems : List Raw → Bool
  | [] => true
  | item :: items => item.skippable && skippableItems items
termination_by structural trees => trees

/-- Whether every raw member can be skipped; so can a garbled key. -/
def skippableMembers : List (Key × Raw) → Bool
  | [] => true
  | (_, tree) :: members => tree.skippable && skippableMembers members
termination_by structural members => members

end

mutual

/-- The raw tree of a value. -/
def ofValue : Json → Raw
  | .null => .null
  | .bool value => .bool value
  | .number value => .number value
  | .string value => .string value
  | .array items => .array (ofItems items) true
  | .object members => .object (ofMembers members) true
termination_by structural value => value

/-- The raw trees of a list of values. -/
def ofItems : List Json → List Raw
  | [] => []
  | item :: items => ofValue item :: ofItems items
termination_by structural values => values

/-- The raw members of a list of members. -/
def ofMembers : List (String × Json) → List (Key × Raw)
  | [] => []
  | (key, value) :: members => (.text key, ofValue value) :: ofMembers members
termination_by structural members => members

end
end Raw

/-- Reads a whole text as one JSON value. -/
def parse? (text : String) : Option Json := (Raw.ofText text).value?

end CampusRules.Json
