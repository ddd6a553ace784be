import WalletDaemon.PusherConnection
import WalletDaemon.PusherError
import WalletDaemon.Retry
import WalletDaemon.Transition

/-! The notification connection in time: the handshake, the keepalive and the pause
before the next attempt. What the service sends, whether a write succeeds and how
JSON is read are left open. Times are in milliseconds. A timer is taken when it is
due, and a write takes no time. -/

namespace WalletDaemon.PusherSession

open PusherConnection PusherError Retry

def handshakeTimeout : Nat := 30000

def pongTimeout : Nat := 30000

def minStableSubscription : Nat := 30000

def platformHttpTimeout : Nat := 30000

def minActivityTimeoutSecs : Nat := 1

def maxActivityTimeoutSecs : Nat := 600

/-- The server's timeout in seconds, clamped. -/
def activityTimeout (secs : Nat) : Nat :=
  1000 * max minActivityTimeoutSecs (min secs maxActivityTimeoutSecs)

theorem activityTimeout_bounds (secs : Nat) :
    1000 ≤ activityTimeout secs ∧ activityTimeout secs ≤ 600000 := by
  unfold activityTimeout minActivityTimeoutSecs maxActivityTimeoutSecs
  omega

section Settings

def validComponent (value : String) : Bool :=
  !value.isEmpty && value.toList.all fun c => c.isAlphanum || c = '-' || c = '_'

def defaultPusherAppKey : String := "8ab7ab8c519e8f59b635"

def defaultPusherCluster : String := "us2"

/-- Settings are only built of valid components. -/
structure Settings where
  appKey : String
  cluster : String
  validKey : validComponent appKey = true
  validCluster : validComponent cluster = true

def fromEnv (pusherAppKey pusherCluster : Option String) : Except String Settings :=
  let appKey := pusherAppKey.getD defaultPusherAppKey
  let cluster := pusherCluster.getD defaultPusherCluster
  if validKey : validComponent appKey = true then
    if validCluster : validComponent cluster = true then
      .ok ⟨appKey, cluster, validKey, validCluster⟩
    else .error "PUSHER_CLUSTER may only contain letters, numbers, '-' and '_'"
  else .error "PUSHER_APP_KEY may only contain letters, numbers, '-' and '_'"

def Settings.url (settings : Settings) : String :=
  "wss://ws-" ++ settings.cluster ++ ".pusher.com/app/" ++ settings.appKey ++ "?protocol=7"

/-- What is read is kept as it is, or refused. -/
theorem fromEnv_ok_iff {pusherAppKey pusherCluster : Option String} {settings : Settings} :
    fromEnv pusherAppKey pusherCluster = .ok settings ↔
      settings.appKey = pusherAppKey.getD defaultPusherAppKey ∧
        settings.cluster = pusherCluster.getD defaultPusherCluster := by
  obtain ⟨appKey, cluster, validKey, validCluster⟩ := settings
  dsimp only [fromEnv]
  constructor
  · intro read
    split_ifs at read
    cases read
    exact ⟨rfl, rfl⟩
  · rintro ⟨rfl, rfl⟩
    rw [dif_pos validKey, dif_pos validCluster]

end Settings

structure ConnectionEstablished where
  socketId : String
  activityTimeout : Nat
deriving DecidableEq, Repr

structure PusherSubscription where
  auth : String
  channel : String
deriving DecidableEq, Repr

structure Frame where
  frame : PusherFrame
  data : Value

/-- `serde_json`, with the text of its errors. -/
structure Json where
  fromStr : String → Except String Value
  established : Value → Except String ConnectionEstablished

/-- A string holds the data once more, as JSON. -/
def decodeData (json : Json) : Value → Except String ConnectionEstablished
  | .string encoded => (json.fromStr encoded).bind json.established
  | value => json.established value

/-- A websocket message; a text is a frame or the error of reading it. `other` is a
pong, a binary message or a raw frame. -/
inductive Message
  | text (frame : Except String Frame)
  | ping (payload : Bytes)
  | other
  | close (frame : String)

inductive Inbound
  | message (message : Message)
  | transport (error : String)
  | ended

inductive Outgoing
  | subscribe (channel auth : String)
  | pusherPing
  | pusherPong
  | pong (payload : Bytes)
deriving DecidableEq, Repr

inductive ConnectionError
  | connectTimedOut
  | establishTimedOut
  | subscribeTimedOut
  | pingTimedOut
  | streamEnded
  | closed (frame : String)
  | pusher (data : Value)
  | other (text : String)

def ConnectionError.toText (json : Json) : ConnectionError → String
  | .connectTimedOut => "timed out connecting to Pusher"
  | .establishTimedOut => "timed out waiting for Pusher connection establishment"
  | .subscribeTimedOut => "timed out waiting for Pusher subscription confirmation"
  | .pingTimedOut => "Pusher ping timed out"
  | .streamEnded => "Pusher WebSocket stream ended"
  | .closed frame => "Pusher closed the connection: " ++ frame
  | .pusher data => pusherError (fun text => (json.fromStr text).toOption) data
  | .other text => text

inductive Shown
  | connect (url : String)
  | heard (inbound : Inbound)
  | authenticate (socketId : String)
  | granted (subscription : PusherSubscription)
  | send (message : Outgoing)
  | setConnected (connected : Bool)
  | signal (signal : Signal)
  | listen (channel : String) (activityTimeout : Nat)
  | connectFailed (error : ConnectionError)
  | listenFailed (error : ConnectionError)

structure Listening where
  channel : String
  activityTimeout : Nat
  subscribedAt : Nat
  activityDeadline : Nat
  pongDeadline : Option Nat
deriving DecidableEq, Repr

def Listening.deadline (l : Listening) : Nat := l.pongDeadline.getD l.activityDeadline

/-- Any inbound traffic proves that the connection is alive. -/
def Listening.alive (l : Listening) (now : Nat) : Listening :=
  { l with activityDeadline := now + l.activityTimeout, pongDeadline := none }

/-- `secs` is the server's activity timeout. The code goes on by itself from
`forcing`, `forced`, `recorded` and `retrying`. -/
inductive Phase
  | connecting (deadline : Nat)
  | establishing (deadline : Nat)
  | authenticating (deadline secs : Nat)
  | subscribing (deadline : Nat) (channel : String) (secs : Nat)
  | forcing (target : Target) (channel : String) (secs : Nat)
  | forced (target : Target) (channel : String) (secs : Nat)
  | listening (l : Listening)
  | recorded (target : Target) (l : Listening)
  | retrying
  | sleeping (deadline : Nat)
deriving DecidableEq, Repr

def Phase.deadline : Phase → Option Nat
  | .connecting deadline => some deadline
  | .establishing deadline => some deadline
  | .authenticating deadline _ => some deadline
  | .subscribing deadline _ _ => some deadline
  | .listening l => some l.deadline
  | .sleeping deadline => some deadline
  | _ => none

def Phase.subscription : Phase → Option Listening
  | .listening l => some l
  | .recorded _ l => some l
  | _ => none

structure Session where
  now : Nat
  phase : Phase
  failures : Nat
  connected : Bool
deriving DecidableEq, Repr

def reconnectBackoffAttempt (currentAttempt connectedFor : Nat) : Nat :=
  if minStableSubscription ≤ connectedFor then 0 else currentAttempt

namespace Session

def connectFailed (s : Session) (error : ConnectionError) (seen : List Shown) :
    Session × List Shown :=
  ({ s with phase := .retrying, connected := false },
    .setConnected false :: .connectFailed error :: seen)

def listenFailed (s : Session) (l : Listening) (error : ConnectionError) (seen : List Shown) :
    Session × List Shown :=
  ({ s with
      phase := .retrying
      failures := reconnectBackoffAttempt s.failures (s.now - l.subscribedAt)
      connected := false },
    .setConnected false :: .listenFailed error :: seen)

def connect (settings : Settings) (s : Session) : Session × List Shown :=
  ({ s with phase := .connecting (s.now + handshakeTimeout) }, [.connect settings.url])

end Session

inductive Received
  | frame (frame : Frame)
  | again (reply : Option Outgoing)
  | failed (error : ConnectionError)

def receiveProtocolFrame : Inbound → Received
  | .ended => .failed .streamEnded
  | .transport error => .failed (.other error)
  | .message (.text (.ok frame)) => .frame frame
  | .message (.text (.error error)) => .failed (.other error)
  | .message (.ping payload) => .again (some (.pong payload))
  | .message .other => .again none
  | .message (.close frame) => .failed (.closed frame)

section Steps

variable (json : Json) (settings : Settings)

/-- A write, which fails with the text of `refused`. -/
def write (s : Session) (message : Outgoing) (refused : Option String) (seen : List Shown)
    (fail : ConnectionError → List Shown → Session × List Shown) : Session × List Shown :=
  match refused with
  | some error => fail (.other error) seen
  | none => (s, .send message :: seen)

def onEstablishing (s : Session) (frame : Frame) (seen : List Shown) : Session × List Shown :=
  if frame.frame.event = "pusher:connection_established" then
    match decodeData json frame.data with
    | .ok established =>
      ({ s with phase := .authenticating (s.now + platformHttpTimeout) established.activityTimeout },
        .authenticate established.socketId :: seen)
    | .error error => s.connectFailed (.other error) seen
  else if frame.frame.event = "pusher:error" then s.connectFailed (.pusher frame.data) seen
  else (s, seen)

def onSubscribing (s : Session) (expected : String) (secs : Nat) (frame : Frame)
    (refused : Option String) (seen : List Shown) : Session × List Shown :=
  if frame.frame.event = "pusher_internal:subscription_succeeded" ∧
      frame.frame.channel = some expected then
    ({ s with phase := .forcing .transaction expected secs, connected := true },
      .setConnected true :: seen)
  else if frame.frame.event = "pusher:error" then s.connectFailed (.pusher frame.data) seen
  else if frame.frame.event = "pusher:ping" then
    write s .pusherPong refused seen s.connectFailed
  else (s, seen)

def onFrame (s : Session) (l : Listening) (frame : Frame) (refused : Option String)
    (seen : List Shown) : Session × List Shown :=
  if frame.frame.channel.any (· ≠ l.channel) then (s, seen)
  else if frame.frame.event = "TransactionCreated" then
    ({ s with phase := .recorded .transaction l },
      .signal (.update .transaction .recordEvent) :: seen)
  else if frame.frame.event = "ManagedWalletRequested" then
    ({ s with phase := .recorded .wallet l }, .signal (.update .wallet .recordEvent) :: seen)
  else if frame.frame.event = "pusher:ping" then
    write s .pusherPong refused seen (s.listenFailed l)
  else if frame.frame.event = "pusher:error" then s.listenFailed l (.pusher frame.data) seen
  else (s, seen)

def onListening (s : Session) (l : Listening) (inbound : Inbound) (refused : Option String)
    (seen : List Shown) : Session × List Shown :=
  match inbound with
  | .ended => s.listenFailed l .streamEnded seen
  | .transport error => s.listenFailed l (.other error) seen
  | .message message =>
    let l := l.alive s.now
    let s := { s with phase := .listening l }
    match message with
    | .text (.ok frame) => onFrame s l frame refused seen
    | .text (.error error) => s.listenFailed l (.other error) seen
    | .ping payload => write s (.pong payload) refused seen (s.listenFailed l)
    | .other => (s, seen)
    | .close frame => s.listenFailed l (.closed frame) seen

/-- The ping was not answered, or is sent now. -/
def onSilence (s : Session) (l : Listening) (refused : Option String) : Session × List Shown :=
  if l.pongDeadline.isSome then s.listenFailed l .pingTimedOut []
  else
    write { s with
        phase := .listening { l with
          pongDeadline := some (s.now + min pongTimeout l.activityTimeout) } }
      .pusherPing refused [] (s.listenFailed l)

def onHandshake (s : Session) (inbound : Inbound) (refused : Option String)
    (onFrame : Frame → List Shown → Session × List Shown) : Session × List Shown :=
  let seen := [Shown.heard inbound]
  match receiveProtocolFrame inbound with
  | .frame frame => onFrame frame seen
  | .again (some reply) => write s reply refused seen s.connectFailed
  | .again none => (s, seen)
  | .failed error => s.connectFailed error seen

/-- `refused` is the error of the write that the event leads to, if that fails. -/
inductive Event
  | connected
  | connectRefused (error : String)
  | received (inbound : Inbound) (refused : Option String)
  | authenticated (reply : Except String PusherSubscription) (refused : Option String)
  | timeUp (refused : Option String)
  | goOn
  | retry (jitterPercent : Nat)
  | pass (time : Nat)

/-- The timer of a phase is due. The request for the signature fails by itself then. -/
def timeUp (s : Session) (refused : Option String) : Option (Session × List Shown) :=
  match s.phase with
  | .connecting _ => some (s.connectFailed .connectTimedOut [])
  | .establishing _ => some (s.connectFailed .establishTimedOut [])
  | .subscribing _ _ _ => some (s.connectFailed .subscribeTimedOut [])
  | .listening l => some (onSilence s l refused)
  | .sleeping _ => some (s.connect settings)
  | _ => none

def goOn (s : Session) : Option (Session × List Shown) :=
  match s.phase with
  | .forcing target channel secs =>
    some ({ s with phase := .forced target channel secs }, [.signal (.update target .force)])
  | .forced .transaction channel secs =>
    some ({ s with phase := .forcing .wallet channel secs }, [.signal (.notify .transaction)])
  | .forced .wallet channel secs =>
    let timeout := activityTimeout secs
    some ({ s with phase := .listening ⟨channel, timeout, s.now, s.now + timeout, none⟩ },
      [.listen channel timeout, .signal (.notify .wallet)])
  | .recorded target l => some ({ s with phase := .listening l }, [.signal (.notify target)])
  | _ => none

def step (s : Session) : Event → Option (Session × List Shown)
  | .connected =>
    match s.phase with
    | .connecting _ => some ({ s with phase := .establishing (s.now + handshakeTimeout) }, [])
    | _ => none
  | .connectRefused error =>
    match s.phase with
    | .connecting _ => some (s.connectFailed (.other error) [])
    | _ => none
  | .received inbound refused =>
    match s.phase with
    | .establishing _ => some (onHandshake s inbound refused (onEstablishing json s))
    | .subscribing _ channel secs =>
      some (onHandshake s inbound refused fun frame => onSubscribing s channel secs frame refused)
    | .listening l => some (onListening s l inbound refused [.heard inbound])
    | _ => none
  | .authenticated reply refused =>
    match s.phase, reply with
    | .authenticating _ secs, .ok subscription =>
      some (write { s with
          phase := .subscribing (s.now + handshakeTimeout) subscription.channel secs }
        (.subscribe subscription.channel subscription.auth) refused [.granted subscription]
        s.connectFailed)
    | .authenticating _ _, .error error => some (s.connectFailed (.other error) [])
    | _, _ => none
  | .timeUp refused => if s.phase.deadline.any (· ≤ s.now) then timeUp settings s refused else none
  | .goOn => goOn s
  | .retry jitterPercent =>
    match s.phase with
    | .retrying =>
      if 80 ≤ jitterPercent ∧ jitterPercent ≤ 120 then
        some ({ s with
          phase := .sleeping (s.now + jitteredExponentialDelay jitterPercent s.failures)
          failures := saturatingSucc s.failures }, [])
      else none
    | _ => none
  | .pass time =>
    if s.phase.deadline.any (s.now + time ≤ ·) then some ({ s with now := s.now + time }, []) else none

end Steps

/-- A reply to a ping of either kind. -/
def Outgoing.answers : Outgoing → Bool
  | .pusherPong => true
  | .pong _ => true
  | _ => false

/-- The reply that a message gets, if any. -/
def Replies : Message → Option Outgoing → Prop
  | .ping payload, reply => reply = some (.pong payload)
  | .text (.ok frame), some reply => reply = .pusherPong ∧ frame.frame.event = "pusher:ping"
  | _, reply => reply = none

theorem Replies.answers {message : Message} {reply : Option Outgoing}
    (h : Replies message reply) : reply.all Outgoing.answers = true := by
  cases message with
  | ping payload =>
    obtain rfl : reply = _ := h
    rfl
  | text frame =>
    cases frame with
    | error error =>
      obtain rfl : reply = none := h
      rfl
    | ok frame =>
      cases reply with
      | none => rfl
      | some sent =>
        obtain rfl := h.1
        rfl
  | other =>
    obtain rfl : reply = none := h
    rfl
  | close frame =>
    obtain rfl : reply = none := h
    rfl

def Phase.inHandshake : Phase → Bool
  | .connecting _ => true
  | .establishing _ => true
  | .authenticating _ _ => true
  | .subscribing _ _ _ => true
  | _ => false

def eventName : Target → String
  | .transaction => "TransactionCreated"
  | .wallet => "ManagedWalletRequested"

/-- A message that tells of work for a target, on its channel or on none. -/
def Inbound.notifies (channel : String) (target : Target) : Inbound → Bool
  | .message (.text (.ok frame)) =>
    frame.frame.event = eventName target && frame.frame.channel.all (· = channel)
  | _ => false

/-- What may be shown before a failure. -/
def Seen (seen : List Shown) : Prop :=
  seen = [] ∨ (∃ inbound, seen = [.heard inbound]) ∨ ∃ subscription, seen = [.granted subscription]

inductive Stepped (json : Json) (settings : Settings) (s : Session) : Session × List Shown → Prop
  | pass (deadline time : Nat) : s.phase.deadline = some deadline → s.now + time ≤ deadline →
      Stepped json settings s ({ s with now := s.now + time }, [])
  | connected (deadline : Nat) : s.phase = .connecting deadline →
      Stepped json settings s ({ s with phase := .establishing (s.now + handshakeTimeout) }, [])
  | failed (error : ConnectionError) (seen : List Shown) : s.phase.inHandshake = true →
      Seen seen →
      Stepped json settings s (s.connectFailed error seen)
  | waited (message : Message) (reply : Option Outgoing) :
      ((∃ deadline, s.phase = .establishing deadline) ∨
        ∃ deadline channel secs, s.phase = .subscribing deadline channel secs) →
      Replies message reply →
      Stepped json settings s (s, (reply.map Shown.send).toList ++ [.heard (.message message)])
  | established (deadline : Nat) (frame : Frame) (established : ConnectionEstablished) :
      s.phase = .establishing deadline → frame.frame.event = "pusher:connection_established" →
      decodeData json frame.data = .ok established →
      Stepped json settings s
        ({ s with phase := .authenticating (s.now + platformHttpTimeout) established.activityTimeout },
          [.authenticate established.socketId, .heard (.message (.text (.ok frame)))])
  | granted (deadline secs : Nat) (subscription : PusherSubscription) :
      s.phase = .authenticating deadline secs →
      Stepped json settings s
        ({ s with phase := .subscribing (s.now + handshakeTimeout) subscription.channel secs },
          [.send (.subscribe subscription.channel subscription.auth), .granted subscription])
  | subscribed (deadline : Nat) (channel : String) (secs : Nat) (frame : Frame) :
      s.phase = .subscribing deadline channel secs →
      frame.frame.event = "pusher_internal:subscription_succeeded" →
      frame.frame.channel = some channel →
      Stepped json settings s
        ({ s with phase := .forcing .transaction channel secs, connected := true },
          [.setConnected true, .heard (.message (.text (.ok frame)))])
  | force (target : Target) (channel : String) (secs : Nat) :
      s.phase = .forcing target channel secs →
      Stepped json settings s
        ({ s with phase := .forced target channel secs }, [.signal (.update target .force)])
  | forceNext (channel : String) (secs : Nat) : s.phase = .forced .transaction channel secs →
      Stepped json settings s
        ({ s with phase := .forcing .wallet channel secs }, [.signal (.notify .transaction)])
  | listen (channel : String) (secs : Nat) : s.phase = .forced .wallet channel secs →
      Stepped json settings s
        ({ s with
            phase := .listening ⟨channel, activityTimeout secs, s.now, s.now + activityTimeout secs,
              none⟩ },
          [.listen channel (activityTimeout secs), .signal (.notify .wallet)])
  | notify (target : Target) (l : Listening) : s.phase = .recorded target l →
      Stepped json settings s ({ s with phase := .listening l }, [.signal (.notify target)])
  | heard (l : Listening) (message : Message) (reply : Option Outgoing) : s.phase = .listening l →
      Replies message reply → (∀ target, Inbound.notifies l.channel target (.message message) = false) →
      Stepped json settings s
        ({ s with phase := .listening (l.alive s.now) },
          (reply.map Shown.send).toList ++ [.heard (.message message)])
  | recorded (l : Listening) (target : Target) (frame : Frame) : s.phase = .listening l →
      frame.frame.event = eventName target → frame.frame.channel.all (· = l.channel) = true →
      Stepped json settings s
        ({ s with phase := .recorded target (l.alive s.now) },
          [.signal (.update target .recordEvent), .heard (.message (.text (.ok frame)))])
  | lost (l : Listening) (error : ConnectionError) (seen : List Shown) : s.phase = .listening l →
      error ≠ .pingTimedOut →
      (seen = [] ∨ ∃ inbound, seen = [.heard inbound] ∧
        ∀ target, inbound.notifies l.channel target = false) →
      Stepped json settings s (s.listenFailed l error seen)
  | ping (l : Listening) : s.phase = .listening l → l.pongDeadline = none →
      l.activityDeadline ≤ s.now →
      Stepped json settings s
        ({ s with
            phase := .listening { l with
              pongDeadline := some (s.now + min pongTimeout l.activityTimeout) } },
          [.send .pusherPing])
  | silent (l : Listening) (deadline : Nat) : s.phase = .listening l →
      l.pongDeadline = some deadline → deadline ≤ s.now →
      Stepped json settings s (s.listenFailed l .pingTimedOut [])
  | retry (jitterPercent : Nat) : s.phase = .retrying → 80 ≤ jitterPercent → jitterPercent ≤ 120 →
      Stepped json settings s
        ({ s with
            phase := .sleeping (s.now + jitteredExponentialDelay jitterPercent s.failures)
            failures := saturatingSucc s.failures }, [])
  | reconnect (deadline : Nat) : s.phase = .sleeping deadline → deadline ≤ s.now →
      Stepped json settings s (s.connect settings)

theorem Seen.of_lost {seen : List Shown} {quiet : Inbound → Prop}
    (kind : seen = [] ∨ ∃ inbound, seen = [.heard inbound] ∧ quiet inbound) : Seen seen := by
  rcases kind with none_ | ⟨inbound, heard, _⟩
  · exact .inl none_
  · exact .inr (.inl ⟨inbound, heard⟩)

section Cases

variable {json : Json} {settings : Settings} {s : Session} {result : Session × List Shown}

theorem onHandshake_cases (phase : s.phase.inHandshake = true)
    (waits : (∃ deadline, s.phase = .establishing deadline) ∨
      ∃ deadline channel secs, s.phase = .subscribing deadline channel secs)
    {onFrame : Frame → List Shown → Session × List Shown}
    (frames : ∀ frame, Stepped json settings s
      (onFrame frame [.heard (.message (.text (.ok frame)))]))
    (inbound : Inbound) (refused : Option String) :
    Stepped json settings s (onHandshake s inbound refused onFrame) := by
  have fails : ∀ error, Stepped json settings s (s.connectFailed error [.heard inbound]) :=
    fun error => .failed error _ phase (.inr (.inl ⟨inbound, rfl⟩))
  unfold onHandshake
  cases inbound with
  | ended => exact fails _
  | transport error => exact fails _
  | message message =>
    cases message with
    | text frame =>
      cases frame with
      | error error => exact fails _
      | ok frame => exact frames frame
    | ping payload =>
      cases refused with
      | none => exact .waited _ (some (.pong payload)) waits rfl
      | some error => exact fails _
    | other => exact .waited _ none waits rfl
    | close frame => exact fails _

theorem onEstablishing_cases {deadline : Nat} (phase : s.phase = .establishing deadline)
    (frame : Frame) :
    Stepped json settings s
      (onEstablishing json s frame [.heard (.message (.text (.ok frame)))]) := by
  have inside : s.phase.inHandshake = true := by
    rw [phase]
    rfl
  unfold onEstablishing
  split
  · rename_i event
    split
    · rename_i established decoded
      exact .established deadline frame established phase event decoded
    · exact .failed _ _ inside (.inr (.inl ⟨_, rfl⟩))
  split
  · exact .failed _ _ inside (.inr (.inl ⟨_, rfl⟩))
  · exact .waited _ none (.inl ⟨deadline, phase⟩) rfl

theorem onSubscribing_cases {deadline secs : Nat} {channel : String}
    (phase : s.phase = .subscribing deadline channel secs) (frame : Frame)
    (refused : Option String) :
    Stepped json settings s
      (onSubscribing s channel secs frame refused [.heard (.message (.text (.ok frame)))]) := by
  have inside : s.phase.inHandshake = true := by
    rw [phase]
    rfl
  have waits : (∃ deadline, s.phase = .establishing deadline) ∨
      ∃ deadline channel secs, s.phase = .subscribing deadline channel secs :=
    .inr ⟨deadline, channel, secs, phase⟩
  unfold onSubscribing
  split
  · rename_i confirmed
    exact .subscribed deadline channel secs frame phase confirmed.1 confirmed.2
  split
  · exact .failed _ _ inside (.inr (.inl ⟨_, rfl⟩))
  split
  · rename_i event
    cases refused with
    | none => exact .waited _ (some .pusherPong) waits ⟨rfl, event⟩
    | some error => exact .failed _ _ inside (.inr (.inl ⟨_, rfl⟩))
  · exact .waited _ none waits rfl

theorem notifies_eq_false {channel : String} {frame : Frame}
    (quiet : frame.frame.channel.any (· ≠ channel) = true ∨
      ∀ target, frame.frame.event ≠ eventName target) (target : Target) :
    Inbound.notifies channel target (.message (.text (.ok frame))) = false := by
  rw [Inbound.notifies, Bool.and_eq_false_iff]
  rcases quiet with foreign | other
  · right
    cases named : frame.frame.channel with
    | none => simp [named] at foreign
    | some theirs => simpa [named] using foreign
  · exact .inl (decide_eq_false (other target))

theorem onListening_cases {l : Listening} (phase : s.phase = .listening l) (inbound : Inbound)
    (refused : Option String) :
    Stepped json settings s (onListening s l inbound refused [.heard inbound]) := by
  have fails : ∀ error, error ≠ .pingTimedOut →
      (∀ target, inbound.notifies l.channel target = false) →
      Stepped json settings s (s.listenFailed l error [.heard inbound]) :=
    fun error other quiet => .lost l error _ phase other (.inr ⟨inbound, rfl, quiet⟩)
  unfold onListening
  cases inbound with
  | ended => exact fails _ nofun fun _ => rfl
  | transport error => exact fails _ nofun fun _ => rfl
  | message message =>
    cases message with
    | text frame =>
      cases frame with
      | error error => exact fails _ nofun fun _ => rfl
      | ok frame =>
        dsimp only [onFrame]
        split
        · rename_i foreign
          exact .heard l _ none phase rfl (notifies_eq_false (.inl foreign))
        rename_i mine
        have channel : frame.frame.channel.all (· = l.channel) = true := by
          cases named : frame.frame.channel with
          | none => rfl
          | some other =>
            rw [named] at mine
            have same : ¬ other ≠ l.channel := fun apart => mine (decide_eq_true apart)
            simpa using same
        split
        · rename_i event
          exact .recorded l .transaction frame phase event channel
        rename_i transaction
        split
        · rename_i event
          exact .recorded l .wallet frame phase event channel
        rename_i wallet
        have quiet : ∀ target, Inbound.notifies l.channel target (.message (.text (.ok frame))) =
            false := by
          refine notifies_eq_false (.inr fun target => ?_)
          cases target
          · exact transaction
          · exact wallet
        split
        · rename_i event
          cases refused with
          | none => exact .heard l _ (some .pusherPong) phase ⟨rfl, event⟩ quiet
          | some error => exact fails _ nofun quiet
        split
        · exact fails _ nofun quiet
        · exact .heard l _ none phase rfl quiet
    | ping payload =>
      cases refused with
      | none => exact .heard l _ (some (.pong payload)) phase rfl fun _ => rfl
      | some error => exact fails _ nofun fun _ => rfl
    | other => exact .heard l _ none phase rfl fun _ => rfl
    | close frame => exact fails _ nofun fun _ => rfl

theorem timeUp_cases {refused : Option String} (due : s.phase.deadline.any (· ≤ s.now) = true)
    (h : timeUp settings s refused = some result) : Stepped json settings s result := by
  unfold timeUp at h
  cases phase : s.phase with
  | listening l =>
    rw [phase] at h due
    cases h
    have late : l.deadline ≤ s.now := by simpa [Phase.deadline] using due
    unfold onSilence
    cases pong : l.pongDeadline with
    | none =>
      have quiet : l.activityDeadline ≤ s.now := by simpa [Listening.deadline, pong] using late
      cases refused with
      | none => exact .ping l phase pong quiet
      | some error => exact .lost l _ _ phase nofun (.inl rfl)
    | some deadline =>
      exact .silent l deadline phase pong (by simpa [Listening.deadline, pong] using late)
  | sleeping deadline =>
    rw [phase] at h due
    cases h
    exact .reconnect deadline phase (by simpa [Phase.deadline] using due)
  | connecting _ =>
    rw [phase] at h
    cases h
    exact .failed _ _ (by rw [phase]; rfl) (.inl rfl)
  | establishing _ =>
    rw [phase] at h
    cases h
    exact .failed _ _ (by rw [phase]; rfl) (.inl rfl)
  | subscribing _ _ _ =>
    rw [phase] at h
    cases h
    exact .failed _ _ (by rw [phase]; rfl) (.inl rfl)
  | _ =>
    rw [phase] at h
    cases h

theorem goOn_cases (h : goOn s = some result) : Stepped json settings s result := by
  unfold goOn at h
  cases phase : s.phase with
  | forcing target channel secs =>
    rw [phase] at h
    cases h
    exact .force target channel secs phase
  | forced target channel secs =>
    rw [phase] at h
    cases target with
    | transaction =>
      cases h
      exact .forceNext channel secs phase
    | wallet =>
      cases h
      exact .listen channel secs phase
  | recorded target l =>
    rw [phase] at h
    cases h
    exact .notify target l phase
  | _ =>
    rw [phase] at h
    cases h

theorem step_cases {e : Event} (h : step json settings s e = some result) :
    Stepped json settings s result := by
  cases e with
  | connected =>
    simp only [step] at h
    split at h
    · rename_i deadline phase
      cases h
      exact .connected deadline phase
    · cases h
  | connectRefused error =>
    simp only [step] at h
    split at h
    · rename_i deadline phase
      cases h
      exact .failed _ _ (by rw [phase]; rfl) (.inl rfl)
    · cases h
  | received inbound refused =>
    simp only [step] at h
    split at h
    · rename_i deadline phase
      cases h
      exact onHandshake_cases (by rw [phase]; rfl) (.inl ⟨deadline, phase⟩)
        (onEstablishing_cases phase) inbound refused
    · rename_i deadline channel secs phase
      cases h
      exact onHandshake_cases (by rw [phase]; rfl) (.inr ⟨deadline, channel, secs, phase⟩)
        (fun frame => onSubscribing_cases phase frame refused) inbound refused
    · rename_i l phase
      cases h
      exact onListening_cases phase inbound refused
    · cases h
  | authenticated reply refused =>
    simp only [step] at h
    split at h
    · rename_i deadline secs subscription phase
      cases h
      cases refused with
      | none => exact .granted deadline secs subscription phase
      | some error =>
        exact .failed _ _ (by rw [phase]; rfl) (.inr (.inr ⟨subscription, rfl⟩))
    · rename_i deadline secs error phase
      cases h
      exact .failed _ _ (by rw [phase]; rfl) (.inl rfl)
    · cases h
  | timeUp refused =>
    simp only [step] at h
    split at h
    · rename_i due
      exact timeUp_cases due h
    · cases h
  | goOn => exact goOn_cases h
  | retry jitterPercent =>
    simp only [step] at h
    split at h
    · rename_i phase
      split at h
      · rename_i bounds
        cases h
        exact .retry jitterPercent phase bounds.1 bounds.2
      · cases h
    · cases h
  | pass time =>
    simp only [step] at h
    split at h
    · rename_i ahead
      cases h
      obtain ⟨deadline, timer, later⟩ := (Option.any_eq_true _ _).mp ahead
      exact .pass deadline time timer (by simpa using later)
    · cases h

end Cases

def initial (settings : Settings) (now : Nat) : Session × List Shown :=
  Session.connect settings { now, phase := .retrying, failures := 0, connected := false }

abbrev Log := List (Nat × Shown)

def stampedStep (json : Json) (settings : Settings) (s : Session) (e : Event) :
    Option (Session × Log) :=
  (step json settings s e).map fun t => (t.1, t.2.map (Prod.mk s.now))

def start (settings : Settings) (now : Nat) : Session × Log :=
  ((initial settings now).1, (initial settings now).2.map (Prod.mk now))

/-- A run from the start. Its log says what was shown and when, newest first. -/
abbrev Runs (json : Json) (settings : Settings) (now : Nat) (es : List Event)
    (reached : Session × Log) : Prop :=
  Transition.Path (Transition.traced (stampedStep json settings)) (start settings now) es reached

/-- What holds at the start and is kept by every step holds in every run. -/
theorem Runs.invariant {json : Json} {settings : Settings} {now : Nat} {es : List Event}
    {reached : Session × Log} (runs : Runs json settings now es reached)
    {I : Session → Log → Prop} (first : I (start settings now).1 (start settings now).2)
    (preserve : ∀ s log t shown, I s log → Stepped json settings s (t, shown) →
      I t (shown.map (Prod.mk s.now) ++ log)) : I reached.1 reached.2 := by
  refine Transition.Path.invariant (I := fun at_ => I at_.1 at_.2) ?_ runs first
  rintro ⟨s, log⟩ e ⟨t, later⟩ holds ⟨shown, stepped, rfl⟩
  obtain ⟨⟨u, os⟩, taken, same⟩ := Option.map_eq_some_iff.mp stepped
  obtain ⟨rfl, rfl⟩ := Prod.mk.inj same
  exact preserve s log u os holds (step_cases taken)

section Example

def defaultSettings : Settings :=
  ⟨defaultPusherAppKey, defaultPusherCluster, by decide, by decide⟩

/-- Reads the fields of an object, and no text. -/
def plainJson : Json where
  fromStr _ := .error "expected value at line 1 column 1"
  established data :=
    match data.get "socket_id", data.get "activity_timeout" with
    | some (.string socketId), some (.integer secs) => .ok ⟨socketId, secs.toNat⟩
    | _, _ => .error "missing field"

def handshake (socketId channel : String) (secs : Nat) : List Event :=
  [.connected,
    .received (.message (.text (.ok ⟨⟨"pusher:connection_established", none⟩,
      .object [("socket_id", .string socketId), ("activity_timeout", .integer secs)]⟩))) none,
    .authenticated (.ok ⟨"key:signature", channel⟩) none,
    .received (.message (.text (.ok ⟨⟨"pusher_internal:subscription_succeeded", some channel⟩,
      .null⟩))) none,
    .goOn, .goOn, .goOn, .goOn]

theorem plainJson_established (socketId : String) (secs : Nat) :
    plainJson.established (.object [("socket_id", .string socketId),
      ("activity_timeout", .integer secs)]) = .ok ⟨socketId, secs⟩ := rfl

theorem handshake_run (settings : Settings) (now : Nat) (socketId channel : String) (secs : Nat) :
    (Transition.run (Transition.traceStep (stampedStep plainJson settings)) (start settings now)
        (handshake socketId channel secs)).map Prod.fst =
      some ⟨now, .listening ⟨channel, activityTimeout secs, now, now + activityTimeout secs, none⟩,
        0, true⟩ := by
  simp [handshake, Transition.run, Transition.traceStep, stampedStep, start, initial,
    Session.connect, step, onHandshake, receiveProtocolFrame, onEstablishing, onSubscribing,
    decodeData, plainJson_established, goOn, write]

theorem handshake_runs (settings : Settings) (now : Nat) (socketId channel : String) (secs : Nat) :
    ∃ log, Runs plainJson settings now (handshake socketId channel secs)
      (⟨now, .listening ⟨channel, activityTimeout secs, now, now + activityTimeout secs, none⟩,
        0, true⟩, log) := by
  obtain ⟨⟨s, log⟩, ran, rfl⟩ := Option.map_eq_some_iff.mp
    (handshake_run settings now socketId channel secs)
  exact ⟨log, Transition.Path.of_traced_run ran⟩

theorem Runs.then {json : Json} {settings : Settings} {now : Nat} {es fs : List Event}
    {middle reached : Session × Log} (runs : Runs json settings now es middle)
    (more : Transition.run (Transition.traceStep (stampedStep json settings)) middle fs =
      some reached) : Runs json settings now (es ++ fs) reached :=
  runs.trans (Transition.Path.of_traced_run more)

end Example

end WalletDaemon.PusherSession
