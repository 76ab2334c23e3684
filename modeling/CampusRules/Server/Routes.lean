import CampusRules.Engine.Command
import CampusRules.Json.Bytes
import CampusRules.Server.MediaType
import CampusRules.Server.Percent

/-!
# The requests that the server answers

Rules are resources below `/api/v1/rules`; events and the schedule can be run by
request. A path is matched segment by segment as it was sent, and only then is the
part that names a rule or an event decoded. A fixed segment has precedence over one
that names a rule, so a rule called `active` cannot be reached by its name.

A request is refused at the first of these that applies: there is no such path, the
path has no such method, its name is not a text, the body is not announced as JSON,
it is too long, it is not JSON, or it is JSON of another shape. Until then nothing has
happened. A body is bytes, which need not be a text.
-/

namespace CampusRules

/-- The methods that the server tells apart. -/
inductive Method where
  | get
  | head
  | post
  | patch
  | delete
  | options
  | other (name : String)
  deriving DecidableEq

/-- A request. -/
structure Request where
  method : Method
  target : String
  contentType : Option String
  body : ByteArray

/-- A response; without a body that is JSON it has none here. -/
structure Response where
  status : Nat
  body : Option Json
  deriving DecidableEq

/-- What a path leads to. Names are still encoded. -/
inductive Route where
  | health
  | rules
  | activeRules
  | rule (name : String)
  | execution (name : String)
  | event (name : String)
  | scheduleRun
  | stream
  deriving DecidableEq

namespace Method

/-- The method with a name. -/
def ofText (name : String) : Method :=
  match name with
  | "GET" => get
  | "HEAD" => head
  | "POST" => post
  | "PATCH" => patch
  | "DELETE" => delete
  | "OPTIONS" => options
  | unknown => other unknown

end Method

namespace Failure

/-- The status that reports a failure. -/
def status : Failure → Nat
  | notFound _ => 404
  | duplicateRule _ => 409
  | invalidTrigger _ | invalidCondition _ | invalidAction _ | invalidTimeFormat _ => 400
  | handlerFailed _ | storage _ | json _ => 500

end Failure

namespace Response

/-- A response without a body. -/
def plain (status : Nat) : Response := ⟨status, none⟩

/-- A response that reports success. -/
def success (data : Json) (status : Nat := 200) : Response :=
  ⟨status, some (.object [("success", .bool true), ("data", data)])⟩

/-- A response that reports a failure. -/
def failure (failure : Failure) : Response :=
  ⟨failure.status,
    some (.object [("success", .bool false), ("error", .string failure.message)])⟩

/-- A response without its body, as a request for the head alone gets it. -/
def headOnly (response : Response) : Response := { response with body := none }

end Response

namespace Route

/-- The path of a target: what stands before a query or a fragment. -/
def pathOf (target : String) : List Char :=
  target.toList.takeWhile fun character => character != '?' && character != '#'

/-- The segments of a path, each behind its slash. -/
def segments (path : List Char) : List String :=
  ((Text.split '/' path).drop 1).map String.ofList

/-- The route of a list of segments. The last segment of a path is never empty. -/
def ofSegments? : List String → Option Route
  | ["health"] => some health
  | ["ws"] => some stream
  | "api" :: "v1" :: below =>
    match below with
    | ["rules"] => some rules
    | ["rules", "active"] => some activeRules
    | ["rules", name] => if name = "" then none else some (rule name)
    | ["rules", name, "execute"] => some (execution name)
    | ["events", name] => if name = "" then none else some (event name)
    | ["schedule", "run"] => some scheduleRun
    | _ => none
  | _ => none

/-- The route of a target. -/
def ofTarget? (target : String) : Option Route := ofSegments? (segments (pathOf target))

/-- Whether a route has a method. -/
def allows : Route → Method → Bool
  | health, .get | activeRules, .get | stream, .get => true
  | rules, .get | rules, .post => true
  | rule _, .get | rule _, .patch | rule _, .delete => true
  | execution _, .post | event _, .post | scheduleRun, .post => true
  | _, _ => false

end Route

namespace Server

variable {σ : Type}

/-- How many bytes a body may have. -/
def bodyLimit : Nat := 2097152

/-- Reads the body of a request, or gives the status that refuses it. -/
def readBody {α : Type} (request : Request) (read : Json.Raw → Except Json.Refusal α) :
    Except Nat α :=
  if !request.contentType.any MediaType.isJson then .error 415
  else if bodyLimit < request.body.size then .error 413
  else match read (.ofStart (Json.Bytes.text request.body)) with
    | .ok value => .ok value
    | .error .malformed => .error 400
    | .error .mismatched => .error 422

/-- Goes on with what was read, or refuses with a status; then nothing happens. -/
def andThen {α : Type} (read : Except Nat α) (engine : Engine σ)
    (goOn : α → Response × Engine σ) : Response × Engine σ :=
  match read with
  | .ok value => goOn value
  | .error status => (.plain status, engine)

/-- Decodes the name in a path. -/
def readName (name : String) : Except Nat String :=
  match Percent.decode? name with
  | some decoded => .ok decoded
  | none => .error 400

/-- The response that shows a rule, or that there is none. -/
def showRule (id : String) (engine : Engine σ) : Response :=
  match engine.find? id with
  | some rule => .success rule.toJson
  | none => .failure (.notFound id)

/-- Registers a rule. -/
def createRule (request : Request) (engine : Engine σ) : Response × Engine σ :=
  andThen (readBody request NewRule.read) engine fun new =>
    match engine.add new with
    | (.ok id, after) => (.success (.object [("id", .string id)]) 201, after)
    | (.error failure, after) => (.failure failure, after)

/-- Changes a rule. -/
def changeRule (name : String) (request : Request) (engine : Engine σ) : Response × Engine σ :=
  andThen (readName name) engine fun id =>
    andThen (readBody request RuleChange.read) engine fun change =>
      match engine.update id change with
      | (.ok true, after) => (showRule id after, after)
      | (.ok false, after) => (.failure (.notFound id), after)
      | (.error failure, after) => (.failure failure, after)

/-- Removes a rule. -/
def deleteRule (name : String) (engine : Engine σ) : Response × Engine σ :=
  andThen (readName name) engine fun id =>
    match engine.remove id with
    | (.ok true, after) => (.success (.object [("removed", .string id)]), after)
    | (.ok false, after) => (.failure (.notFound id), after)
    | (.error failure, after) => (.failure failure, after)

/-- The identifiers of rules that ran. -/
def ranIds (ids : List String) : Json := .array (ids.map .string)

/-- Carries out a rule on the body as its context. -/
def executeRule (collaborators : Collaborators σ) (name : String) (request : Request)
    (engine : Engine σ) : Response × Engine σ :=
  andThen (readName name) engine fun id =>
    andThen (readBody request Json.Raw.readValue) engine fun context =>
      let (ran, after) := engine.execute collaborators id context
      (.success (.object [("id", .string id), ("executed", .bool ran)]), after)

/-- Tells the engine of an event, with the body as its context. -/
def triggerEvent (collaborators : Collaborators σ) (name : String) (request : Request)
    (engine : Engine σ) : Response × Engine σ :=
  andThen (readName name) engine fun event =>
    andThen (readBody request Json.Raw.readValue) engine fun context =>
      let (ids, after) := engine.trigger collaborators event context
      (.success (.object [("event", .string event), ("executed", ranIds ids)]), after)

/-- Runs the schedule by the clock. -/
def runSchedule (collaborators : Collaborators σ) (engine : Engine σ) : Response × Engine σ :=
  let (ids, after) := engine.runScheduleNow collaborators
  (.success (.object [("executed", ranIds ids)]), after)

/-- Answers a request to a route that has its method. -/
def serve (collaborators : Collaborators σ) (route : Route) (request : Request)
    (engine : Engine σ) : Response × Engine σ :=
  match route, request.method with
  | .health, _ => (⟨200, some (.object [("status", .string "ok")])⟩, engine)
  | .rules, .post => createRule request engine
  | .rules, _ => (.success (Rule.listToJson engine.rules), engine)
  | .activeRules, _ => (.success (Rule.listToJson engine.activeRules), engine)
  | .rule name, .patch => changeRule name request engine
  | .rule name, .delete => deleteRule name engine
  | .rule name, _ => andThen (readName name) engine fun id => (showRule id engine, engine)
  | .execution name, _ => executeRule collaborators name request engine
  | .event name, _ => triggerEvent collaborators name request engine
  | .scheduleRun, _ => runSchedule collaborators engine
  | .stream, _ => (.plain 400, engine)

/-- Answers a request. A request for options is answered for any path; one for the
head alone is answered as the request for the whole would be, without the body,
except that the stream of events has no head. -/
def handle (collaborators : Collaborators σ) (request : Request) (engine : Engine σ) :
    Response × Engine σ :=
  if request.method = .options then (.plain 200, engine)
  else match Route.ofTarget? request.target with
    | none => (.plain 404, engine)
    | some route =>
      if request.method = .head ∧ route ≠ .stream ∧ route.allows .get then
        let (response, after) := serve collaborators route { request with method := .get } engine
        (response.headOnly, after)
      else if route.allows request.method then serve collaborators route request engine
      else (.plain 405, engine)

end Server
end CampusRules
