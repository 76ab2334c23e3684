import CampusRules.Action.Handoff
import CampusRules.Failure
import CampusRules.Json.Printer
import CampusRules.Template

/-!
# Preparing what an action hands over

A message is filled in parameter by parameter, in a fixed order, and the first
parameter that is missing or of the wrong shape decides the failure. Nothing has
been handed to anyone by then.

There are three ways to take a parameter. A *literal* is used as it stands. A
*templated text* has its template filled in and is then rendered. A *templated
mapping* has the templates in its values filled in, at any depth; absent or
`null`, it is empty.
-/

namespace CampusRules

/-- What makes it impossible to fill in a message. -/
inductive Unfit where
  | missing (key : String)
  | notMapping (key : String) (value : Json)
  deriving DecidableEq

/-- The failure that reports an unfit parameter. -/
def Unfit.failure : Unfit → Failure
  | missing key => .invalidAction ("missing parameter '" ++ key ++ "'")
  | notMapping key value =>
    .invalidAction ("parameter '" ++ key ++ "' must be an object, got " ++ value.compactText)

namespace Parameters

/-- A literal parameter, if it is there: a string as it stands, any other value as
JSON. -/
def literal? (parameters : Members) (key : String) : Option String :=
  (parameters.lookup key).map fun value =>
    match value with
    | .string text => text
    | other => other.compactText

/-- A literal parameter that must be there. -/
def literal (parameters : Members) (key : String) : Except Unfit String :=
  match literal? parameters key with
  | some text => .ok text
  | none => .error (.missing key)

/-- A templated text, which must be there. -/
def text (parameters : Members) (context : Json) (key : String) : Except Unfit String :=
  match parameters.lookup key with
  | some value => .ok (Coercion.stringify (some (Template.interpolate value context)))
  | none => .error (.missing key)

/-- A templated mapping. -/
def mapping (parameters : Members) (context : Json) (key : String) : Except Unfit Members :=
  match parameters.lookup key with
  | none | some .null => .ok []
  | some (.object members) => .ok (Template.interpolateMembers context members)
  | some other => .error (.notMapping key other)

end Parameters

namespace Action

open Parameters

/-- The message that an action hands over on a context. -/
def prepare (action : Action) (context : Json) : Except Unfit Handoff :=
  let parameters := action.parameters
  match action.kind with
  | .email => do
    let recipient ← text parameters context "to"
    let subject ← text parameters context "subject"
    let values ← mapping parameters context "variables"
    .ok (.email ⟨recipient, subject, literal? parameters "template", values⟩)
  | .notification => do
    let userId ← text parameters context "userId"
    let title ← text parameters context "title"
    let message ← text parameters context "message"
    .ok (.notification ⟨userId, (literal? parameters "type").getD "info", title, message⟩)
  | .updateRecord => do
    let table ← literal parameters "table"
    let filter ← mapping parameters context "where"
    let data ← mapping parameters context "data"
    .ok (.updateRecord ⟨table, (literal? parameters "operation").getD "update", filter, data⟩)
  | .createRecord => do
    let table ← literal parameters "table"
    let data ← mapping parameters context "data"
    .ok (.createRecord ⟨table, data⟩)
  | .calculate => do
    let operation ← literal parameters "operation"
    .ok (.calculate
      ⟨operation, literal? parameters "field", parameters.lookup "weights"⟩ context)
  | .generateReport => .ok (.generateReport parameters context)
  | .aiAction => do
    let _ ← literal parameters "operation"
    let prompt ← text parameters context "prompt"
    .ok (.prompt prompt)

end Action
end CampusRules
