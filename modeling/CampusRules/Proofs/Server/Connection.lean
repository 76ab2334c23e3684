import CampusRules.Server.Connection
import Mathlib.Data.List.Induction

/-!
# What a client of the stream receives

A client that keeps up receives the greeting and then the events that are sent after the server has
subscribed, each once and in order. But the server greets first and subscribes then. The client may
have the greeting already while the server has not subscribed yet, and events that are sent in
between never reach it. So it receives all that is sent after it was greeted exactly if there are
none of these.
-/

namespace CampusRules.Connection

variable {connection : Connection}

/-- Steps in a row are done one row after the other. -/
theorem run_append (connection : Connection) (first second : List Move) :
    connection.run (first ++ second) = (connection.run first).run second :=
  List.foldl_append

/-- What is sent in a row of steps is sent in one row after the other. -/
theorem sentIn_append (first second : List Move) :
    sentIn (first ++ second) = sentIn first ++ sentIn second :=
  List.filterMap_append

/-- Where no more events are to be forwarded than a listener may have pending, none is lost. -/
theorem kept_of_lost {events : List Event} (none_lost : Event.lost events = 0) :
    Event.kept events = events := by
  rw [Event.kept, none_lost, List.drop_zero]

/-- Before the server has subscribed, there is nothing but its greeting. -/
structure Opens (connection : Connection) : Prop where
  silent : connection.phase = .silent → connection.delivered = []
  greeted : connection.phase = .greeted → connection.delivered = [greeting]

/-- A step keeps to this. -/
theorem Opens.step (opens : connection.Opens) (move : Move) : (connection.step move).Opens := by
  obtain ⟨phase, underway, received, lost⟩ := connection
  obtain ⟨silent, greeted⟩ := opens
  unfold Connection.step
  split
  · rename_i phase_silent
    obtain rfl : phase = .silent := phase_silent
    obtain ⟨empty, nothing⟩ : received = [] ∧ underway = [] := by
      simpa [delivered, pending] using silent rfl
    refine ⟨by simp, fun _ => ?_⟩
    simp [delivered, pending, empty, nothing]
  · exact ⟨by simp, by simp⟩
  · exact ⟨by simp, by simp⟩
  · rename_i message rest there
    obtain rfl : underway = message :: rest := there
    constructor
    · simpa [delivered, pending] using silent
    · simpa [delivered, pending] using greeted
  · exact ⟨by simp, by simp⟩
  · exact ⟨silent, greeted⟩

/-- A connection that begins keeps to this. -/
theorem opens_run (moves : List Move) : (after moves).Opens := by
  suffices general : ∀ connection : Connection, connection.Opens → (connection.run moves).Opens from
    general {} ⟨fun _ => rfl, by simp⟩
  induction moves with
  | nil => exact fun _ opens => opens
  | cons move rest inductionHypothesis =>
    exact fun connection opens => inductionHypothesis _ (opens.step move)

/-- Behind a subscription, a step adds what it sends to what is delivered, unless some is lost. -/
theorem step_subscribed {events : List Event} (subscribed : connection.phase = .subscribed events)
    (move : Move) :
    (∃ later, (connection.step move).phase = .subscribed later) ∧
      connection.lost ≤ (connection.step move).lost ∧
      ((connection.step move).lost = connection.lost → (connection.step move).delivered =
        connection.delivered ++ (sentIn [move]).map Event.toJson) := by
  obtain ⟨phase, underway, received, lost⟩ := connection
  obtain rfl : phase = .subscribed events := subscribed
  cases move with
  | greet | subscribe =>
    exact ⟨⟨events, rfl⟩, Nat.le_refl _, fun _ => by simp [step, sentIn, Move.sent?]⟩
  | forward =>
    cases events with
    | nil => exact ⟨⟨[], rfl⟩, Nat.le_refl _, fun _ => by simp [step, sentIn, Move.sent?]⟩
    | cons event rest =>
      refine ⟨⟨rest, rfl⟩, Nat.le_refl _, fun _ => ?_⟩
      simp [step, sentIn, Move.sent?, delivered, pending]
  | receive =>
    cases underway with
    | nil => exact ⟨⟨events, rfl⟩, Nat.le_refl _, fun _ => by simp [step, sentIn, Move.sent?]⟩
    | cons message rest =>
      refine ⟨⟨events, rfl⟩, Nat.le_refl _, fun _ => ?_⟩
      simp [step, sentIn, Move.sent?, delivered, pending]
  | send event =>
    refine ⟨⟨_, rfl⟩, Nat.le_add_right _ _, fun same => ?_⟩
    have none_lost : Event.lost (events ++ [event]) = 0 := Nat.add_eq_left.mp same
    simp [step, sentIn, Move.sent?, delivered, pending, kept_of_lost none_lost]

/-- Behind a subscription, all that is sent is delivered in order, unless some is lost. -/
theorem run_subscribed {events : List Event} (subscribed : connection.phase = .subscribed events)
    (moves : List Move) :
    (∃ later, (connection.run moves).phase = .subscribed later) ∧
      connection.lost ≤ (connection.run moves).lost ∧
      ((connection.run moves).lost = connection.lost → (connection.run moves).delivered =
        connection.delivered ++ (sentIn moves).map Event.toJson) := by
  induction moves generalizing connection events with
  | nil => exact ⟨⟨events, subscribed⟩, Nat.le_refl _, fun _ => by simp [run, sentIn]⟩
  | cons move rest inductionHypothesis =>
    obtain ⟨⟨next, still⟩, first, here⟩ := step_subscribed subscribed move
    obtain ⟨later, others, behind⟩ := inductionHypothesis still
    have run_cons : connection.run (move :: rest) = (connection.step move).run rest := rfl
    rw [run_cons]
    refine ⟨later, Nat.le_trans first others, fun same => ?_⟩
    have sent : sentIn (move :: rest) = sentIn [move] ++ sentIn rest := sentIn_append [move] rest
    rw [behind (by omega), here (by omega), sent, List.map_append, List.append_assoc]

/-- Two prefixes of a list, and what is behind them: the one is not longer than the other exactly if
what is behind it ends with what is behind the other. -/
theorem prefix_iff_suffix {before behind early late : List Event}
    (same : before ++ behind = early ++ late) : before <+: early ↔ late <:+ behind := by
  constructor
  · rintro ⟨between, rfl⟩
    rw [List.append_assoc, List.append_cancel_left_eq] at same
    exact ⟨between, same.symm⟩
  · rintro ⟨between, rfl⟩
    rw [← List.append_assoc, List.append_cancel_right_eq] at same
    exact ⟨between, same⟩

/-- What a listener keeps does not depend on events that it has lost. -/
theorem kept_drop {events : List Event} {gone : Nat} (few : gone ≤ Event.lost events) :
    Event.kept (events.drop gone) = Event.kept events := by
  have more : gone + Event.lost (events.drop gone) = Event.lost events := by
    unfold Event.lost at few ⊢
    rw [List.length_drop]
    omega
  calc Event.kept (events.drop gone)
      = (events.drop gone).drop (Event.lost (events.drop gone)) := rfl
    _ = events.drop (gone + Event.lost (events.drop gone)) := List.drop_drop
    _ = Event.kept events := by rw [more]; rfl

/-- What a listener keeps of events and one more is what it keeps of all of them. -/
theorem kept_concat (events : List Event) (event : Event) :
    Event.kept (Event.kept events ++ [event]) = Event.kept (events ++ [event]) := by
  have within : Event.lost events ≤ events.length := Nat.sub_le _ _
  have shifted : Event.kept events ++ [event] = (events ++ [event]).drop (Event.lost events) :=
    (List.drop_append_of_le_length within).symm
  rw [shifted]
  refine kept_drop ?_
  unfold Event.lost
  rw [List.length_append]
  omega

/-- Of events that are sent before any is forwarded, those are to be forwarded that a listener
keeps. -/
theorem run_sends (events : List Event) (subscribed : connection.phase = .subscribed []) :
    (connection.run (events.map .send)).phase = .subscribed (Event.kept events) ∧
      (connection.run (events.map .send)).underway = connection.underway ∧
      (connection.run (events.map .send)).received = connection.received := by
  induction events using List.reverseRecOn with
  | nil => exact ⟨subscribed, rfl, rfl⟩
  | append_singleton events event inductionHypothesis =>
    obtain ⟨phase, underway, received⟩ := inductionHypothesis
    have last : connection.run ((events ++ [event]).map .send) =
        (connection.run (events.map .send)).step (.send event) := by
      rw [List.map_append, run_append]
      rfl
    rw [last]
    simp only [step, phase, underway, received, kept_concat]
    exact ⟨trivial, trivial, trivial⟩

/-- A connection that serves its client only when all events are sent is that of a client in an
audience. -/
theorem run_served (events : List Event) (subscribed : connection.phase = .subscribed [])
    (quiet : connection.underway = []) {audience : Audience} {client : Nat}
    (present : audience.present[client]? = some true) :
    (audience.receive events)[client]? = some ((Event.kept events).map Event.toJson) ∧
      (connection.run (events.map .send)).delivered =
        connection.received ++ (Event.kept events).map Event.toJson := by
  obtain ⟨phase, underway, received⟩ := run_sends events subscribed
  constructor
  · simp [Audience.receive, present]
  · simp [delivered, pending, phase, underway, received, quiet]

/-- Behind the greeting, all that is sent after the subscription is delivered, unless some is
lost. -/
theorem delivered_after {before behind : List Move} (greeted : (after before).phase = .greeted)
    (keepsUp : (after (before ++ .subscribe :: behind)).lost = 0) :
    (after (before ++ .subscribe :: behind)).delivered =
      greeting :: (sentIn behind).map Event.toJson := by
  have joined : after (before ++ .subscribe :: behind) =
      ((after before).step .subscribe).run behind := run_append _ _ _
  have subscription : (after before).step .subscribe =
      { after before with phase := .subscribed [] } := by
    simp only [step, greeted]
  have subscribed : ((after before).step .subscribe).phase = .subscribed [] := by
    rw [subscription]
  have opened : ((after before).step .subscribe).delivered = [greeting] := by
    rw [← (opens_run before).greeted greeted, subscription]
    simp [delivered, pending, greeted]
  obtain ⟨_, least, delivers⟩ := run_subscribed subscribed behind
  rw [joined] at keepsUp ⊢
  have none_lost : ((after before).step .subscribe).lost = 0 := Nat.le_zero.mp (keepsUp ▸ least)
  rw [delivers (keepsUp.trans none_lost.symm), opened]
  rfl

/-- A client that does not fall behind by more events than it may receives the greeting, and then
exactly those events that are sent after the server has subscribed, each once and in order. It may
receive the greeting before that. Then it misses what is sent until the subscription, and receives
all that is sent after the greeting only if nothing is. -/
theorem client_receives_what_follows_subscription {moves before behind early late : List Move}
    (subscribes : moves = before ++ .subscribe :: behind)
    (greeted : (after before).phase = .greeted) (hears : moves = early ++ .receive :: late)
    (keepsUp : (after moves).lost = 0) :
    let expected := greeting :: (sentIn behind).map Event.toJson
    (after moves).delivered = expected ∧ (after moves).received <+: expected ∧
      (sentIn late <:+ sentIn behind ↔ sentIn before <+: sentIn early) := by
  intro expected
  have delivers : (after moves).delivered = expected := by
    subst subscribes
    exact delivered_after greeted keepsUp
  have whole : sentIn before ++ sentIn behind = sentIn early ++ sentIn late := by
    have sent := congrArg sentIn (subscribes.symm.trans hears)
    rw [sentIn_append, sentIn_append] at sent
    exact sent
  refine ⟨delivers, ?_, (prefix_iff_suffix whole).symm⟩
  rw [← delivers, delivered, List.append_assoc]
  exact List.prefix_append _ _

/-- A client that has its greeting only when the server has subscribed receives everything. -/
theorem late_greeting_misses_nothing :
    let moves : List Move := [.greet, .subscribe, .send (.created "first"), .receive,
      .send (.created "second"), .forward, .forward, .receive, .receive]
    (after moves).received =
        [greeting, (Event.created "first").toJson, (Event.created "second").toJson] ∧
      sentIn (moves.drop 4) <:+ sentIn (moves.drop 2) := by
  intro moves
  obtain ⟨greeted, keepsUp, empty, nothing⟩ :
      (after (moves.take 1)).phase = .greeted ∧
        (after moves).lost = 0 ∧ (after moves).underway = [] ∧
        (after moves).pending = [] := by
    decide +kernel
  have subscribes : moves = moves.take 1 ++ .subscribe :: moves.drop 2 := rfl
  have hears : moves = moves.take 3 ++ .receive :: moves.drop 4 := rfl
  obtain ⟨delivered, _, whole⟩ :=
    client_receives_what_follows_subscription subscribes greeted hears keepsUp
  refine ⟨?_, whole.mpr (List.nil_prefix)⟩
  rw [Connection.delivered, empty, nothing, List.map_nil, List.append_nil, List.append_nil]
    at delivered
  exact delivered

/-- A client that has its greeting before the server has subscribed misses what is sent in between,
although it never falls behind. -/
theorem early_greeting_misses_event :
    let moves : List Move := [.greet, .receive, .send (.created "first"), .subscribe,
      .send (.created "second"), .forward, .receive]
    (after (moves.take 2)).received = [greeting] ∧
      sentIn (moves.drop 2) = [.created "first", .created "second"] ∧
      (after moves).lost = 0 ∧
      (after moves).received = [greeting, (Event.created "second").toJson] ∧
      (after moves).delivered = (after moves).received := by
  decide +kernel

end CampusRules.Connection
