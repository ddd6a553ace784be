import WalletDaemon.PusherSession

/-! What a subscription rests on. Nothing is signed, subscribed to, forced or recorded
but for what the service and the platform said on the same connection. -/

namespace WalletDaemon.PusherSession

open PusherConnection Transition

/-- How far the connection is: its socket, the channel it subscribed to, whether it
counts as connected, which triggers it forced, and whether it listens. -/
structure Standing where
  socketId : Option String
  channel : Option String
  online : Bool
  forced : List Target
  listening : Bool
deriving DecidableEq, Repr

def Standing.none : Standing := ⟨Option.none, Option.none, false, [], false⟩

/-- A standing does not outlive its connection. -/
def standing : Log → Standing
  | [] => .none
  | (_, .connect _) :: _ => .none
  | (_, .setConnected false) :: _ => .none
  | (_, .authenticate socketId) :: earlier =>
    { standing earlier with socketId := some socketId }
  | (_, .send (.subscribe channel _)) :: earlier =>
    { standing earlier with channel := some channel }
  | (_, .setConnected true) :: earlier => { standing earlier with online := true }
  | (_, .signal (.update target .force)) :: earlier =>
    { standing earlier with forced := target :: (standing earlier).forced }
  | (_, .listen _ _) :: earlier => { standing earlier with listening := true }
  | _ :: earlier => standing earlier

def Phase.standing (socketId : String) : Phase → Standing
  | .authenticating _ _ => { Standing.none with socketId := some socketId }
  | .subscribing _ channel _ => ⟨some socketId, some channel, false, [], false⟩
  | .forcing .transaction channel _ => ⟨some socketId, some channel, true, [], false⟩
  | .forced .transaction channel _ => ⟨some socketId, some channel, true, [.transaction], false⟩
  | .forcing .wallet channel _ => ⟨some socketId, some channel, true, [.transaction], false⟩
  | .forced .wallet channel _ =>
    ⟨some socketId, some channel, true, [.wallet, .transaction], false⟩
  | .listening l => ⟨some socketId, some l.channel, true, [.wallet, .transaction], true⟩
  | .recorded _ l => ⟨some socketId, some l.channel, true, [.wallet, .transaction], true⟩
  | _ => .none

/-- The trigger that has been updated and not notified yet. -/
def Phase.midCall : Phase → Option Target
  | .forced target _ _ => some target
  | .recorded target _ => some target
  | _ => none

def Just (o : Shown) (log : Log) : Prop := log.head?.map Prod.snd = some o

def JustHeard (log : Log) (p : Frame → Prop) : Prop :=
  ∃ frame, Just (.heard (.message (.text (.ok frame)))) log ∧ p frame

/-- What each thing that is done rests on. -/
def subscriptionReason (json : Json) : Nat × Shown → Log → Prop
  | (_, .authenticate socketId), earlier => standing earlier = .none ∧
    JustHeard earlier fun frame => frame.frame.event = "pusher:connection_established" ∧
      ∃ established, decodeData json frame.data = .ok established ∧ established.socketId = socketId
  | (_, .send (.subscribe channel auth)), earlier =>
    (∃ socketId, standing earlier = { Standing.none with socketId := some socketId }) ∧
      Just (.granted ⟨auth, channel⟩) earlier
  | (_, .setConnected true), earlier => ∃ socketId channel,
    standing earlier = ⟨some socketId, some channel, false, [], false⟩ ∧
      JustHeard earlier fun frame =>
        frame.frame.event = "pusher_internal:subscription_succeeded" ∧
          frame.frame.channel = some channel
  | (_, .signal (.update target .force)), earlier => ∃ socketId channel forced,
    standing earlier = ⟨some socketId, some channel, true, forced, false⟩ ∧ target ∉ forced
  | (_, .listen channel _), earlier => ∃ socketId,
    standing earlier = ⟨some socketId, some channel, true, [.wallet, .transaction], false⟩
  | (_, .signal (.update target .recordEvent)), earlier => ∃ socketId channel,
    standing earlier = ⟨some socketId, some channel, true, [.wallet, .transaction], true⟩ ∧
      JustHeard earlier fun frame => frame.frame.event = eventName target ∧
        frame.frame.channel.all (· = channel) = true
  | (_, .signal (.notify target)), earlier =>
    ∃ update, Just (.signal (.update target update)) earlier
  | (_, .send .pusherPong), earlier =>
    JustHeard earlier fun frame => frame.frame.event = "pusher:ping"
  | (_, .send (.pong payload)), earlier => Just (.heard (.message (.ping payload))) earlier
  | _, _ => True

structure Standard (json : Json) (s : Session) (log : Log) : Prop where
  standing : ∃ socketId, standing log = s.phase.standing socketId
  connected : s.connected = (PusherSession.standing log).online
  midCall : ∀ target, s.phase.midCall = some target →
    ∃ update, Just (.signal (.update target update)) log
  justified : Justified (subscriptionReason json) log

section Preserved

variable {json : Json} {s : Session} {log : Log}

theorem Standard.between {t : Session} {later : Log}
    (stands : ∃ socketId, PusherSession.standing later = t.phase.standing socketId)
    (connected : t.connected = (PusherSession.standing later).online)
    (calm : t.phase.midCall = .none)
    (justified : Justified (subscriptionReason json) later) : Standard json t later where
  standing := stands
  connected := connected
  midCall := by
    intro target at_
    rw [calm] at at_
    cases at_
  justified := justified

theorem standing_reply (now : Nat) {message : Message} {reply : Option Outgoing}
    (replies : Replies message reply) (log : Log) :
    standing (((reply.map Shown.send).toList ++ [Shown.heard (.message message)]).map (Prod.mk now) ++
      log) = standing log := by
  have answers := replies.answers
  cases reply with
  | none => rfl
  | some sent => cases sent <;> first | rfl | cases answers

theorem justified_reply (now : Nat) {message : Message} {reply : Option Outgoing}
    (replies : Replies message reply) {log : Log} (before : Justified (subscriptionReason json) log) :
    Justified (subscriptionReason json)
      (((reply.map Shown.send).toList ++ [Shown.heard (.message message)]).map (Prod.mk now) ++
        log) := by
  cases reply with
  | none => exact ⟨trivial, before⟩
  | some sent =>
    refine ⟨?_, trivial, before⟩
    cases message with
    | ping payload =>
      obtain rfl := Option.some.inj replies
      exact rfl
    | text frame =>
      cases frame with
      | error error => cases replies
      | ok frame =>
        obtain ⟨rfl, event⟩ := replies
        exact ⟨frame, rfl, event⟩
    | other => cases replies
    | close frame => cases replies

theorem justified_failed {seen : List Shown} (now : Nat) {failed : Shown}
    (kind : Seen seen)
    (free : ∀ earlier, subscriptionReason json (now, failed) earlier)
    (before : Justified (subscriptionReason json) log) :
    Justified (subscriptionReason json)
      ((Shown.setConnected false :: failed :: seen).map (Prod.mk now) ++ log) := by
  rcases kind with rfl | ⟨inbound, rfl⟩ | ⟨subscription, rfl⟩
  · exact ⟨trivial, free _, before⟩
  · exact ⟨trivial, free _, trivial, before⟩
  · exact ⟨trivial, free _, trivial, before⟩

end Preserved

theorem stepped_standard {json : Json} {settings : Settings} {s t : Session} {log : Log}
    {shown : List Shown} (before : Standard json s log)
    (stepped : Stepped json settings s (t, shown)) :
    Standard json t (shown.map (Prod.mk s.now) ++ log) := by
  obtain ⟨⟨socketId, stands⟩, connected, midCall, justified⟩ := before
  generalize same : (t, shown) = result at stepped
  cases stepped with
  | pass deadline time timer ahead =>
    cases same
    exact ⟨⟨socketId, stands⟩, connected, midCall, justified⟩
  | connected deadline phase =>
    cases same
    rw [phase] at stands
    exact .between ⟨socketId, stands⟩ connected rfl justified
  | failed error seen phase kind =>
    cases same
    exact .between ⟨socketId, rfl⟩ rfl rfl
      (justified_failed s.now kind (fun _ => trivial) justified)
  | waited message reply phase replies =>
    cases same
    refine .between ⟨socketId, (standing_reply s.now replies log).trans stands⟩ ?_ ?_
      (justified_reply s.now replies justified)
    · rw [standing_reply s.now replies log]
      exact connected
    · rcases phase with ⟨deadline, phase⟩ | ⟨deadline, channel, secs, phase⟩ <;> rw [phase] <;> rfl
  | established deadline frame established phase event decoded =>
    cases same
    rw [phase] at stands
    refine .between ⟨established.socketId, ?_⟩ ?_ rfl
      ⟨⟨stands, frame, rfl, event, established, decoded, rfl⟩, trivial, justified⟩
    · exact congrArg (fun st : Standing => { st with socketId := some established.socketId }) stands
    · exact connected
  | granted deadline secs subscription phase =>
    cases same
    rw [phase] at stands
    refine .between ⟨socketId, ?_⟩ connected rfl
      ⟨⟨⟨socketId, stands⟩, rfl⟩, trivial, justified⟩
    exact congrArg (fun st : Standing => { st with channel := some subscription.channel }) stands
  | subscribed deadline channel secs frame phase event mine =>
    cases same
    rw [phase] at stands
    refine .between ⟨socketId, ?_⟩ rfl rfl
      ⟨⟨socketId, channel, stands, frame, rfl, event, mine⟩, trivial, justified⟩
    exact congrArg (fun st : Standing => { st with online := true }) stands
  | force target channel secs phase =>
    cases same
    rw [phase] at stands
    have forced := congrArg (fun st : Standing => { st with forced := target :: st.forced }) stands
    refine ⟨⟨socketId, ?_⟩, connected, ?_, ?_, justified⟩
    · cases target <;> exact forced
    · intro called at_
      cases at_
      exact ⟨.force, rfl⟩
    · cases target
      · exact ⟨socketId, channel, [], stands, by simp⟩
      · exact ⟨socketId, channel, [.transaction], stands, by simp⟩
  | forceNext channel secs phase =>
    cases same
    have call := midCall .transaction (by rw [phase]; rfl)
    rw [phase] at stands
    exact .between ⟨socketId, stands⟩ connected rfl ⟨call, justified⟩
  | listen channel secs phase =>
    cases same
    have call := midCall .wallet (by rw [phase]; rfl)
    rw [phase] at stands
    refine .between ⟨socketId, ?_⟩ connected rfl
      ⟨⟨socketId, stands⟩, call, justified⟩
    exact congrArg (fun st : Standing => { st with listening := true }) stands
  | notify target l phase =>
    cases same
    have call := midCall target (by rw [phase]; rfl)
    rw [phase] at stands
    exact .between ⟨socketId, stands⟩ connected rfl ⟨call, justified⟩
  | heard l message reply phase replies quiet =>
    cases same
    have kept := standing_reply s.now replies log
    rw [phase] at stands
    refine .between ⟨socketId, kept.trans stands⟩ ?_ rfl
      (justified_reply s.now replies justified)
    rw [kept]
    exact connected
  | recorded l target frame phase event mine =>
    cases same
    rw [phase] at stands
    refine ⟨⟨socketId, stands⟩, connected, ?_,
      ⟨socketId, l.channel, stands, frame, rfl, event, mine⟩, trivial, justified⟩
    intro called at_
    cases at_
    exact ⟨.recordEvent, rfl⟩
  | lost l error seen phase other kind =>
    cases same
    exact .between ⟨socketId, rfl⟩ rfl rfl
      (justified_failed s.now (.of_lost kind) (fun _ => trivial) justified)
  | ping l phase unasked late =>
    cases same
    rw [phase] at stands
    exact .between ⟨socketId, stands⟩ connected rfl ⟨trivial, justified⟩
  | silent l deadline phase asked late =>
    cases same
    exact .between ⟨socketId, rfl⟩ rfl rfl
      (justified_failed s.now (.inl rfl) (fun _ => trivial) justified)
  | retry jitterPercent phase low high =>
    cases same
    rw [phase] at stands
    exact .between ⟨socketId, stands⟩ connected rfl justified
  | reconnect deadline phase late =>
    cases same
    rw [phase] at stands
    refine .between ⟨socketId, rfl⟩ ?_ rfl ⟨trivial, justified⟩
    rw [stands] at connected
    exact connected

/-- The socket is authenticated and the channel subscribed to as the service and the
platform say. The daemon counts as connected from the confirmation of that channel to
the end of the subscription, forces both triggers once before it listens, and records
only events that were heard on the subscription. -/
theorem subscription_justified {json : Json} {settings : Settings} {now : Nat} {es : List Event}
    {reached : Session × Log} (runs : Runs json settings now es reached) :
    reached.1.connected = (standing reached.2).online ∧
    (∃ socketId, standing reached.2 = reached.1.phase.standing socketId) ∧
    Justified (subscriptionReason json) reached.2 := by
  have standard : Standard json reached.1 reached.2 := by
    refine runs.invariant ?_ fun _ _ _ _ => stepped_standard
    exact .between ⟨"", rfl⟩ rfl rfl ⟨trivial, trivial⟩
  exact ⟨standard.connected, standard.standing, standard.justified⟩

def announcement (channel : String) : Inbound :=
  .message (.text (.ok ⟨⟨"TransactionCreated", some channel⟩, .object []⟩))

theorem announcement_recorded (json : Json) (settings : Settings) (now : Nat) (channel : String)
    (timeout : Nat) (log : Log) :
    run (traceStep (stampedStep json settings))
        (⟨now, .listening ⟨channel, timeout, now, now + timeout, none⟩, 0, true⟩, log)
        [.received (announcement channel) none, .goOn] =
      some (⟨now, .listening ⟨channel, timeout, now, now + timeout, none⟩, 0, true⟩,
        (now, .signal (.notify .transaction)) ::
          (now, .signal (.update .transaction .recordEvent)) ::
            (now, .heard (announcement channel)) :: log) := by
  simp [run, traceStep, stampedStep, step, announcement, onListening, onFrame, Listening.alive, goOn]

theorem subscription_justified_run :
    ∃ log, Runs plainJson defaultSettings 0
        (handshake "1.2" "private-daemon" 120 ++
          [.received (announcement "private-daemon") none, .goOn])
        (⟨0, .listening ⟨"private-daemon", 120000, 0, 120000, none⟩, 0, true⟩,
          (0, .signal (.notify .transaction)) ::
            (0, .signal (.update .transaction .recordEvent)) :: log) ∧
      (standing log).online = true ∧
      subscriptionReason plainJson (0, .signal (.update .transaction .recordEvent)) log := by
  obtain ⟨log, runs⟩ := handshake_runs defaultSettings 0 "1.2" "private-daemon" 120
  have recorded := runs.then (announcement_recorded plainJson defaultSettings 0 _ _ log)
  have standard := subscription_justified recorded
  exact ⟨_, recorded, standard.1.symm, standard.2.2.2.1⟩

end WalletDaemon.PusherSession
