import WalletDaemon.PusherSession

/-! How soon a dead subscription is noticed. -/

namespace WalletDaemon.PusherSession

open PusherConnection Retry Transition

section Silence

def timeoutOf : Log → Nat
  | [] => 0
  | (_, .listen _ timeout) :: _ => timeout
  | _ :: earlier => timeoutOf earlier

/-- When the last message came in, or listening began. -/
def quietSince : Log → Nat
  | [] => 0
  | (t, .listen _ _) :: _ => t
  | (t, .heard (.message _)) :: _ => t
  | _ :: earlier => quietSince earlier

def pings : Log → Nat
  | [] => 0
  | (_, .listen _ _) :: _ => 0
  | (_, .heard (.message _)) :: _ => 0
  | (_, .send .pusherPing) :: earlier => pings earlier + 1
  | _ :: earlier => pings earlier

/-- When the silence is taken for the end of the connection, after one ping. -/
def silenceLimit (log : Log) : Nat :=
  quietSince log + timeoutOf log + min pongTimeout (timeoutOf log)

/-- A ping follows a whole timeout of silence, and a subscription is given up at the
limit only. -/
def keepaliveReason : Nat × Shown → Log → Prop
  | (t, .send .pusherPing), earlier =>
    pings earlier = 0 ∧ t = quietSince earlier + timeoutOf earlier
  | (t, .listenFailed .pingTimedOut), earlier => pings earlier = 1 ∧ t = silenceLimit earlier
  | _, _ => True

structure Lively (l : Listening) (now : Nat) (log : Log) : Prop where
  timeout : timeoutOf log = l.activityTimeout
  lower : 1000 ≤ l.activityTimeout
  upper : l.activityTimeout ≤ 600000
  activity : l.activityDeadline = quietSince log + l.activityTimeout
  unasked : l.pongDeadline = none → pings log = 0
  asked : ∀ deadline, l.pongDeadline = some deadline →
    pings log = 1 ∧ deadline = silenceLimit log
  ahead : now ≤ l.deadline

def Live (s : Session) (log : Log) : Prop :=
  (∀ l, s.phase.subscription = some l → Lively l s.now log) ∧ Justified keepaliveReason log

theorem Live.off {s : Session} {log : Log} (off : s.phase.subscription = none)
    (justified : Justified keepaliveReason log) : Live s log := by
  refine ⟨fun l at_ => ?_, justified⟩
  rw [off] at at_
  cases at_

theorem Live.on {s : Session} {l : Listening} {log : Log} (on : s.phase.subscription = some l)
    (lively : Lively l s.now log) (justified : Justified keepaliveReason log) : Live s log := by
  refine ⟨fun other at_ => ?_, justified⟩
  obtain rfl := Option.some.inj (on.symm.trans at_)
  exact lively

theorem timeoutOf_reply (now : Nat) (reply : Option Outgoing) (log : Log) :
    timeoutOf (((reply.map Shown.send).toList.map (Prod.mk now)) ++ log) = timeoutOf log := by
  cases reply <;> rfl

theorem quietSince_reply (now : Nat) (reply : Option Outgoing) (log : Log) :
    quietSince (((reply.map Shown.send).toList.map (Prod.mk now)) ++ log) = quietSince log := by
  cases reply <;> rfl

theorem pings_reply (now : Nat) {reply : Option Outgoing}
    (answers : reply.all Outgoing.answers = true) (log : Log) :
    pings (((reply.map Shown.send).toList.map (Prod.mk now)) ++ log) = pings log := by
  cases reply with
  | none => rfl
  | some message => cases message <;> first | rfl | cases answers

theorem keepaliveReason_reply (now : Nat) {reply : Option Outgoing}
    (answers : reply.all Outgoing.answers = true) {log : Log}
    (h : Justified keepaliveReason log) :
    Justified keepaliveReason (((reply.map Shown.send).toList.map (Prod.mk now)) ++ log) := by
  cases reply with
  | none => exact h
  | some message => cases message <;> first | exact ⟨trivial, h⟩ | cases answers

theorem Lively.alive {l : Listening} {now : Nat} {log : Log} (h : Lively l now log) {later : Log}
    (timeout : timeoutOf later = timeoutOf log) (heard : quietSince later = now)
    (none_ : pings later = 0) : Lively (l.alive now) now later where
  timeout := timeout.trans h.timeout
  lower := h.lower
  upper := h.upper
  activity := by
    rw [heard]
    rfl
  unasked _ := none_
  asked := by simp [Listening.alive]
  ahead := Nat.le_add_right _ _

theorem justified_connectFailed (s : Session) (error : ConnectionError) {seen : List Shown}
    {log : Log} (before : Justified keepaliveReason log)
    (kind : Seen seen) :
    Justified keepaliveReason ((s.connectFailed error seen).2.map (Prod.mk s.now) ++ log) := by
  rcases kind with rfl | ⟨inbound, rfl⟩ | ⟨subscription, rfl⟩
  · exact ⟨trivial, trivial, before⟩
  · exact ⟨trivial, trivial, trivial, before⟩
  · exact ⟨trivial, trivial, trivial, before⟩

theorem stepped_live {json : Json} {settings : Settings} {s t : Session} {log : Log}
    {shown : List Shown} (live : Live s log) (stepped : Stepped json settings s (t, shown)) :
    Live t (shown.map (Prod.mk s.now) ++ log) := by
  obtain ⟨lively, justified⟩ := live
  generalize same : (t, shown) = result at stepped
  cases stepped with
  | pass deadline time timer ahead =>
    cases same
    refine ⟨fun l at_ => ?_, justified⟩
    cases phase : s.phase with
    | listening other =>
      simp only [phase, Phase.subscription, Option.some.injEq] at at_
      subst at_
      have before := lively other (by simp only [phase, Phase.subscription])
      simp only [phase, Phase.deadline, Option.some.injEq] at timer
      exact { before with ahead := timer ▸ ahead }
    | recorded target other => simp [phase, Phase.deadline] at timer
    | _ => simp [phase, Phase.subscription] at at_
  | connected deadline phase =>
    cases same
    exact .off rfl justified
  | failed error seen phase kind =>
    cases same
    exact .off rfl (justified_connectFailed s error justified kind)
  | waited message reply phase replies =>
    cases same
    refine .off ?_ ?_
    · rcases phase with ⟨deadline, phase⟩ | ⟨deadline, channel, secs, phase⟩ <;> rw [phase] <;> rfl
    · rw [List.map_append, List.append_assoc]
      exact keepaliveReason_reply s.now replies.answers ⟨trivial, justified⟩
  | established deadline frame established phase event decoded =>
    cases same
    exact .off rfl ⟨trivial, trivial, justified⟩
  | granted deadline secs subscription phase =>
    cases same
    exact .off rfl ⟨trivial, trivial, justified⟩
  | subscribed deadline channel secs frame phase event mine =>
    cases same
    exact .off rfl ⟨trivial, trivial, justified⟩
  | force target channel secs phase =>
    cases same
    exact .off rfl ⟨trivial, justified⟩
  | forceNext channel secs phase =>
    cases same
    exact .off rfl ⟨trivial, justified⟩
  | listen channel secs phase =>
    cases same
    have bounds := activityTimeout_bounds secs
    exact .on rfl ⟨rfl, bounds.1, bounds.2, rfl, fun _ => rfl, by simp, Nat.le_add_right _ _⟩
      ⟨trivial, trivial, justified⟩
  | notify target l phase =>
    cases same
    have before := lively l (by rw [phase]; rfl)
    exact .on rfl ⟨before.timeout, before.lower, before.upper, before.activity, before.unasked,
      before.asked, before.ahead⟩ ⟨trivial, justified⟩
  | heard l message reply phase replies quiet =>
    cases same
    rw [List.map_append, List.append_assoc]
    exact .on rfl
      ((lively l (by rw [phase]; rfl)).alive (timeoutOf_reply _ _ _) (quietSince_reply _ _ _)
        (pings_reply _ replies.answers _))
      (keepaliveReason_reply s.now replies.answers ⟨trivial, justified⟩)
  | recorded l target frame phase event mine =>
    cases same
    exact .on rfl ((lively l (by rw [phase]; rfl)).alive rfl rfl rfl) ⟨trivial, trivial, justified⟩
  | lost l error seen phase other kind =>
    cases same
    have reason : ∀ earlier, keepaliveReason (s.now, .listenFailed error) earlier := by
      intro earlier
      cases error with
      | pingTimedOut => exact absurd rfl other
      | _ => trivial
    rcases kind with rfl | ⟨inbound, rfl, _⟩
    · exact .off rfl ⟨trivial, reason _, justified⟩
    · exact .off rfl ⟨trivial, reason _, trivial, justified⟩
  | ping l phase unasked late =>
    cases same
    have before := lively l (by rw [phase]; rfl)
    have now_ : s.now = quietSince log + l.activityTimeout := by
      have ahead := before.ahead
      have deadline := before.activity
      rw [Listening.deadline, unasked, Option.getD_none] at ahead
      omega
    have none_ := before.unasked unasked
    refine .on rfl ⟨before.timeout, before.lower, before.upper, before.activity, by simp, ?_,
      Nat.le_add_right _ _⟩ ⟨⟨none_, ?_⟩, justified⟩
    · rintro deadline at_
      obtain rfl := Option.some.inj at_
      refine ⟨congrArg (· + 1) none_, ?_⟩
      simp only [silenceLimit, List.map_cons, List.map_nil, List.singleton_append, quietSince,
        timeoutOf, before.timeout, now_]
    · exact now_.trans (congrArg (quietSince log + ·) before.timeout.symm)
  | silent l deadline phase asked late =>
    cases same
    have before := lively l (by rw [phase]; rfl)
    obtain ⟨one, rfl⟩ := before.asked deadline asked
    have now_ : s.now = silenceLimit log := by
      have ahead := before.ahead
      rw [Listening.deadline, asked, Option.getD_some] at ahead
      omega
    exact .off rfl ⟨trivial, ⟨one, now_⟩, justified⟩
  | retry jitterPercent phase low high =>
    cases same
    exact .off rfl justified
  | reconnect deadline phase late =>
    cases same
    exact .off rfl ⟨trivial, justified⟩

/-- A silent subscription is sent one ping after the activity timeout and given up
at the limit, not later and not sooner. -/
theorem silence_detected {json : Json} {settings : Settings} {now : Nat} {es : List Event}
    {reached : Session × Log} (runs : Runs json settings now es reached) :
    (∀ l, reached.1.phase = .listening l →
      1000 ≤ timeoutOf reached.2 ∧ timeoutOf reached.2 ≤ 600000 ∧ pings reached.2 ≤ 1 ∧
      reached.1.now ≤ silenceLimit reached.2 ∧
      (pings reached.2 = 0 → reached.1.now ≤ quietSince reached.2 + timeoutOf reached.2)) ∧
    Justified keepaliveReason reached.2 := by
  have live : Live reached.1 reached.2 :=
    runs.invariant (.off rfl ⟨trivial, trivial⟩) fun _ _ _ _ => stepped_live
  refine ⟨fun l phase => ?_, live.2⟩
  have lively := live.1 l (by rw [phase]; rfl)
  have ahead := lively.ahead
  have deadline := lively.activity
  rw [lively.timeout]
  refine ⟨lively.lower, lively.upper, ?_⟩
  cases asked : l.pongDeadline with
  | none =>
    rw [Listening.deadline, asked, Option.getD_none] at ahead
    rw [lively.unasked asked, silenceLimit, lively.timeout]
    omega
  | some pong =>
    obtain ⟨one, limit⟩ := lively.asked pong asked
    rw [Listening.deadline, asked, Option.getD_some] at ahead
    rw [one]
    omega

section Example

variable (json : Json) (settings : Settings) (now : Nat)

theorem silence_pings (timeout : Nat) (channel : String) (failures : Nat) (log : Log) :
    run (traceStep (stampedStep json settings))
        (⟨now, .listening ⟨channel, timeout, now, now + timeout, none⟩, failures, true⟩, log)
        [.pass timeout, .timeUp none] =
      some (⟨now + timeout, .listening ⟨channel, timeout, now, now + timeout,
          some (now + timeout + min pongTimeout timeout)⟩, failures, true⟩,
        (now + timeout, .send .pusherPing) :: log) := by
  simp [run, traceStep, stampedStep, step, timeUp, onSilence, write, Phase.deadline,
    Listening.deadline]

theorem pong_missed {left : Nat} {l : Listening} (log : Log)
    (asked : l.pongDeadline = some (now + left)) :
    run (traceStep (stampedStep json settings)) (⟨now, .listening l, 0, true⟩, log)
        [.pass left, .timeUp none] =
      some (⟨now + left, .retrying, 0, false⟩,
        (now + left, .setConnected false) :: (now + left, .listenFailed .pingTimedOut) :: log) := by
  simp [run, traceStep, stampedStep, step, timeUp, onSilence, Session.listenFailed, Phase.deadline,
    Listening.deadline, reconnectBackoffAttempt, asked]

end Example

/-- Silence from the start: one ping after two minutes, and thirty seconds for the pong. -/
theorem silence_detected_run :
    ∃ asked, Runs plainJson defaultSettings 0
        (handshake "1.2" "private-daemon" 120 ++ [.pass 120000, .timeUp none])
        (⟨120000, .listening ⟨"private-daemon", 120000, 0, 120000, some 150000⟩, 0, true⟩, asked) ∧
      120000 ≤ silenceLimit asked ∧
      Runs plainJson defaultSettings 0
        (handshake "1.2" "private-daemon" 120 ++ [.pass 120000, .timeUp none] ++
          [.pass 30000, .timeUp none])
        (⟨150000, .retrying, 0, false⟩,
          (150000, .setConnected false) :: (150000, .listenFailed .pingTimedOut) :: asked) ∧
      150000 = silenceLimit asked := by
  obtain ⟨log, runs⟩ := handshake_runs defaultSettings 0 "1.2" "private-daemon" 120
  have pinged := runs.then (silence_pings _ _ 0 120000 "private-daemon" 0 log)
  have lost := pinged.then (pong_missed _ _ 120000 _ rfl)
  refine ⟨_, pinged, ?_, lost, ?_⟩
  · exact ((silence_detected pinged).1 _ rfl).2.2.2.1
  · exact (silence_detected lost).2.2.1.2

end Silence

end WalletDaemon.PusherSession
