import CampusRules.Server.Stream

/-!
# A connection to the stream

A connection goes on step by step while the engine sends events. The server greets the client, then
subscribes to the engine, and from then on forwards what is sent, one event after the other. What is
forwarded is underway until the client receives it. An event that is sent while `Event.capacity` of
them are still to be forwarded pushes out the oldest. The server is told how many were lost, and the
client is not.
-/

namespace CampusRules

/-- How far the server has got with a connection. With a subscription there are events that are
still to be forwarded. -/
inductive Connection.Phase where
  | silent
  | greeted
  | subscribed (pending : List Event)
  deriving DecidableEq

/-- A connection: what is on its way to the client, what the client has received, and how many
events were lost. -/
structure Connection where
  phase : Connection.Phase := .silent
  underway : List Json := []
  received : List Json := []
  lost : Nat := 0
  deriving DecidableEq

namespace Connection

/-- A step of the server or of the client, or an event that the engine sends. -/
inductive Move where
  | greet
  | subscribe
  | forward
  | receive
  | send (event : Event)
  deriving DecidableEq

/-- The connection after a step. A step that is not possible does nothing. -/
def step (connection : Connection) (move : Move) : Connection :=
  match move, connection.phase, connection.underway with
  | .greet, .silent, underway =>
    { connection with phase := .greeted, underway := underway ++ [greeting] }
  | .subscribe, .greeted, _ => { connection with phase := .subscribed [] }
  | .forward, .subscribed (event :: rest), underway =>
    { connection with phase := .subscribed rest, underway := underway ++ [event.toJson] }
  | .receive, _, message :: rest =>
    { connection with underway := rest, received := connection.received ++ [message] }
  | .send event, .subscribed pending, _ =>
    { connection with
      phase := .subscribed (Event.kept (pending ++ [event]))
      lost := connection.lost + Event.lost (pending ++ [event]) }
  | _, _, _ => connection

/-- The connection after steps in a row. -/
def run (connection : Connection) (moves : List Move) : Connection := moves.foldl step connection

/-- A connection after its first steps. -/
def after (moves : List Move) : Connection := ({} : Connection).run moves

/-- The event that a step sends, if it does. -/
def Move.sent? : Move → Option Event
  | send event => some event
  | _ => none

/-- The events that are sent in steps, in order. -/
def sentIn (moves : List Move) : List Event := moves.filterMap Move.sent?

/-- The events that are still to be forwarded. -/
def pending (connection : Connection) : List Event :=
  match connection.phase with
  | .subscribed pending => pending
  | _ => []

/-- What the client has received and will receive if no more is sent. -/
def delivered (connection : Connection) : List Json :=
  connection.received ++ connection.underway ++ connection.pending.map Event.toJson

end Connection
end CampusRules
