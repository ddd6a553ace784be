import Mathlib.Logic.Basic

/-! The connection to the notification service. Each synchronous call on a
trigger is two steps: the state update, and the notification after it. -/

namespace WalletDaemon.PusherConnection

structure PusherFrame where
  event : String
  channel : Option String
deriving DecidableEq, Repr

/-- The worker a trigger belongs to. -/
inductive Target
  | transaction
  | wallet
deriving DecidableEq, Repr

/-- `offline` is also the delay before the next attempt. At `forcing` and
`forced` the triggers are forced in turn, and at `recorded` an event has been
recorded but not notified yet. -/
inductive Connection
  | offline
  | establishing
  | authenticating
  | subscribing (channel : String)
  | forcing (target : Target) (channel : String)
  | forced (target : Target) (channel : String)
  | listening (channel : String)
  | recorded (target : Target) (channel : String)
deriving DecidableEq, Repr

/-- What happens to the connection. `frame` is a text message, without a frame
where it does not parse; `lost` is any other error, a timeout or a close; `goOn`
is the next step of the connection's own code. -/
inductive SocketEvent
  | connected
  | authenticated (channel : String)
  | frame (frame : Option PusherFrame)
  | lost
  | goOn
deriving DecidableEq, Repr

inductive Update
  | force
  | recordEvent
deriving DecidableEq, Repr

/-- What a step does to the triggers. -/
inductive Signal
  | quiet
  | update (target : Target) (update : Update)
  | notify (target : Target)
deriving DecidableEq, Repr

/-- A frame before the connection is established. -/
def establish (frame : PusherFrame) : Connection :=
  if frame.event = "pusher:connection_established" then .authenticating
  else if frame.event = "pusher:error" then .offline
  else .establishing

/-- A frame before the subscription is confirmed. Notifications are dropped. -/
def subscribe (expected : String) (frame : PusherFrame) : Connection :=
  if frame.event = "pusher_internal:subscription_succeeded" ∧ frame.channel = some expected then
    .forcing .transaction expected
  else if frame.event = "pusher:error" then .offline
  else .subscribing expected

/-- A frame on the subscription; those of another channel are passed over. -/
def route (channel : String) (frame : PusherFrame) : Connection × Signal :=
  if frame.channel.any (· ≠ channel) then (.listening channel, .quiet)
  else if frame.event = "TransactionCreated" then
    (.recorded .transaction channel, .update .transaction .recordEvent)
  else if frame.event = "ManagedWalletRequested" then
    (.recorded .wallet channel, .update .wallet .recordEvent)
  else if frame.event = "pusher:error" then (.offline, .quiet)
  else (.listening channel, .quiet)

def step : Connection → SocketEvent → Option (Connection × Signal)
  | .offline, .connected => some (.establishing, .quiet)
  | .establishing, .frame (some frame) => some (establish frame, .quiet)
  | .establishing, .frame none => some (.offline, .quiet)
  | .establishing, .lost => some (.offline, .quiet)
  | .authenticating, .authenticated channel => some (.subscribing channel, .quiet)
  | .authenticating, .lost => some (.offline, .quiet)
  | .subscribing channel, .frame (some frame) => some (subscribe channel frame, .quiet)
  | .subscribing _, .frame none => some (.offline, .quiet)
  | .subscribing _, .lost => some (.offline, .quiet)
  | .forcing target channel, .goOn => some (.forced target channel, .update target .force)
  | .forced .transaction channel, .goOn => some (.forcing .wallet channel, .notify .transaction)
  | .forced .wallet channel, .goOn => some (.listening channel, .notify .wallet)
  | .listening channel, .frame (some frame) => some (route channel frame)
  | .listening _, .frame none => some (.offline, .quiet)
  | .listening _, .lost => some (.offline, .quiet)
  | .recorded target channel, .goOn => some (.listening channel, .notify target)
  | _, _ => none

/-- A call on the trigger is between its state update and its notification. -/
def MidCall (target : Target) : Connection → Prop
  | .forced called _ => called = target
  | .recorded called _ => called = target
  | _ => False

/-- What a signal is to the trigger of `target`, from the connection's state
before and after it. -/
inductive Meant (target : Target) (before after : Connection) : Signal → Prop
  | update (update : Update) : MidCall target after → Meant target before after (.update target update)
  | notify : Meant target before after (.notify target)
  | other {signal : Signal} : (∀ update, signal ≠ .update target update) →
      signal ≠ .notify target → ¬ MidCall target before → Meant target before after signal

theorem Meant.quiet {target : Target} {before after : Connection} (calm : ¬ MidCall target before) :
    Meant target before after .quiet := .other nofun nofun calm

theorem meant_update {target called : Target} {before after : Connection} (update : Update)
    (calm : ¬ MidCall target before) (calls : called = target → MidCall target after) :
    Meant target before after (.update called update) := by
  by_cases same : called = target
  · subst same
    exact .update update (calls rfl)
  · exact .other (by simp [same]) nofun calm

theorem meant_notify {target called : Target} {before after : Connection}
    (calls : MidCall target before → called = target) :
    Meant target before after (.notify called) := by
  by_cases same : called = target
  · subst same
    exact .notify
  · exact .other nofun (by simp [same]) fun mid => same (calls mid)

theorem route_meant (target : Target) (channel : String) (frame : PusherFrame) :
    Meant target (.listening channel) (route channel frame).1 (route channel frame).2 := by
  have calm : ¬ MidCall target (.listening channel) := id
  unfold route
  split
  · exact .quiet calm
  split
  · exact meant_update _ calm id
  split
  · exact meant_update _ calm id
  split
  · exact .quiet calm
  · exact .quiet calm

theorem step_meant {target : Target} {before after : Connection} {e : SocketEvent} {signal : Signal}
    (h : step before e = some (after, signal)) : Meant target before after signal := by
  cases before with
  | offline => 
    cases e <;> cases h
    exact .quiet id
  | establishing =>
    cases e with
    | frame frame => cases frame <;> cases h <;> exact .quiet id
    | lost =>
      cases h
      exact .quiet id
    | _ => cases h
  | authenticating =>
    cases e <;> cases h <;> exact .quiet id
  | subscribing channel =>
    cases e with
    | frame frame => cases frame <;> cases h <;> exact .quiet id
    | lost =>
      cases h
      exact .quiet id
    | _ => cases h
  | forcing called channel =>
    cases e <;> cases h
    exact meant_update _ id id
  | forced called channel =>
    cases called <;> cases e <;> cases h <;> exact meant_notify id
  | listening channel =>
    cases e with
    | frame frame =>
      cases frame with
      | none =>
        cases h
        exact .quiet id
      | some frame =>
        have routed : route channel frame = (after, signal) := Option.some.inj h
        simpa [routed] using route_meant target channel frame
    | lost =>
      cases h
      exact .quiet id
    | _ => cases h
  | recorded called channel =>
    cases e <;> cases h
    exact meant_notify id

end WalletDaemon.PusherConnection
