import WalletDaemon.PusherSession

/-! How attempts to connect are paced. -/

namespace WalletDaemon.PusherSession

open PusherConnection Retry Transition

/-- What the pace of the attempts depends on: when the last attempt began, when
listening began, when an attempt last ended, and how many ended since a subscription
was stable and when the first of them did. -/
structure Pace where
  attemptedAt : Nat
  listenedAt : Nat
  endedAt : Nat
  ended : Nat
  began : Nat
deriving DecidableEq, Repr

/-- An attempt ended. One that was stable begins anew. -/
def Pace.fail (p : Pace) (now : Nat) (stable : Bool) : Pace :=
  if stable || p.ended = 0 then { p with endedAt := now, ended := 1, began := now }
  else { p with endedAt := now, ended := p.ended + 1 }

def pace : Log → Pace
  | [] => ⟨0, 0, 0, 0, 0⟩
  | (t, .connect _) :: earlier => { pace earlier with attemptedAt := t }
  | (t, .listen _ _) :: earlier => { pace earlier with listenedAt := t }
  | (t, .connectFailed _) :: earlier => (pace earlier).fail t false
  | (t, .listenFailed _) :: earlier =>
    (pace earlier).fail t (minStableSubscription ≤ t - (pace earlier).listenedAt)
  | _ :: earlier => pace earlier

/-- The shortest delays after the first `n` attempts, one after the other. -/
def backoffSum : Nat → Nat
  | 0 => 0
  | n + 1 => backoffSum n + jitteredExponentialDelay 80 n

/-- The handshake has four timers. -/
def handshakeLimit : Nat := 4 * handshakeTimeout

/-- When an attempt may begin, and when the handshake is over. -/
def paceReason : Nat × Shown → Log → Prop
  | (t, .connect _), earlier => earlier = [] ∨
    (0 < (pace earlier).ended ∧
      (pace earlier).endedAt + jitteredExponentialDelay 80 ((pace earlier).ended - 1) ≤ t ∧
      t ≤ (pace earlier).endedAt + jitteredExponentialDelay 120 ((pace earlier).ended - 1) ∧
      (pace earlier).began + backoffSum (pace earlier).ended ≤ t)
  | (t, .connectFailed _), earlier => t ≤ (pace earlier).attemptedAt + handshakeLimit
  | (t, .listen _ _), earlier => t ≤ (pace earlier).attemptedAt + handshakeLimit
  | _, _ => True

def Phase.timers : Phase → Option Nat
  | .connecting _ => some 1
  | .establishing _ => some 2
  | .authenticating _ _ => some 3
  | .subscribing _ _ _ => some 4
  | .forcing _ _ _ => some 4
  | .forced _ _ _ => some 4
  | _ => none

def Phase.waits : Phase → Bool
  | .retrying => true
  | .sleeping _ => true
  | _ => false

/-- `failures` counts the attempts that ended, as a `u32`. -/
def counted (ended : Nat) : Nat := min ended (2 ^ 32 - 1)

structure Paced (s : Session) (log : Log) : Prop where
  nonempty : log ≠ []
  handshake : ∀ k, s.phase.timers = some k →
    s.now ≤ (pace log).attemptedAt + k * handshakeTimeout ∧
    ∀ deadline, s.phase.deadline = some deadline →
      s.now ≤ deadline ∧ deadline ≤ (pace log).attemptedAt + k * handshakeTimeout
  subscribed : ∀ l, s.phase.subscription = some l →
    l.subscribedAt = (pace log).listenedAt ∧ l.subscribedAt ≤ s.now
  failures : s.phase ≠ .retrying → s.failures = counted (pace log).ended
  retrying : s.phase = .retrying → 0 < (pace log).ended ∧
    s.failures = counted ((pace log).ended - 1) ∧ s.now = (pace log).endedAt
  sleeping : ∀ deadline, s.phase = .sleeping deadline → 0 < (pace log).ended ∧
    (pace log).endedAt + jitteredExponentialDelay 80 ((pace log).ended - 1) ≤ deadline ∧
    deadline ≤ (pace log).endedAt + jitteredExponentialDelay 120 ((pace log).ended - 1) ∧
    s.now ≤ deadline
  spread : 0 < (pace log).ended →
    (pace log).began + backoffSum ((pace log).ended - 1) ≤ (pace log).endedAt
  apart : s.phase.waits = false → 0 < (pace log).ended →
    (pace log).began + backoffSum (pace log).ended ≤ s.now
  justified : Justified paceReason log

theorem jitteredExponentialDelay_mono {a b n : Nat} (h : a ≤ b) :
    jitteredExponentialDelay a n ≤ jitteredExponentialDelay b n := by
  have scaled : 1000 * exponentialDelay n * a ≤ 1000 * exponentialDelay n * b :=
    Nat.mul_le_mul_left _ h
  unfold jitteredExponentialDelay
  omega

/-- A `u32` counts far enough for the delay. -/
theorem jitteredExponentialDelay_counted (jitter n : Nat) :
    jitteredExponentialDelay jitter (counted n) = jitteredExponentialDelay jitter n := by
  have same : exponentialDelay (counted n) = exponentialDelay n := by
    unfold counted
    rcases Nat.lt_or_ge n (2 ^ 32 - 1) with small | large
    · rw [Nat.min_eq_left (by omega)]
    · rw [Nat.min_eq_right large, exponentialDelay_capped (by decide),
        exponentialDelay_capped (by omega)]
  unfold jitteredExponentialDelay
  rw [same]

theorem jitteredExponentialDelay_le (jitter n : Nat) :
    jitteredExponentialDelay jitter n ≤ 60000 := by
  unfold jitteredExponentialDelay maxBackoffSecs
  omega

theorem counted_succ (n : Nat) : saturatingSucc (counted n) = counted (n + 1) := by
  unfold saturatingSucc counted
  omega

def Shown.marks : Shown → Bool
  | .connect _ => true
  | .listen _ _ => true
  | .connectFailed _ => true
  | .listenFailed _ => true
  | _ => false

theorem pace_unmarked (now : Nat) {shown : List Shown} (unmarked : shown.any Shown.marks = false)
    (log : Log) : pace (shown.map (Prod.mk now) ++ log) = pace log := by
  induction shown with
  | nil => rfl
  | cons o shown ih =>
    rw [List.any_cons, Bool.or_eq_false_iff] at unmarked
    have rest := ih unmarked.2
    cases o <;> first | exact rest | cases unmarked.1

theorem justified_unmarked (now : Nat) {shown : List Shown}
    (unmarked : shown.any Shown.marks = false) {log : Log} (before : Justified paceReason log) :
    Justified paceReason (shown.map (Prod.mk now) ++ log) := by
  induction shown with
  | nil => exact before
  | cons o shown ih =>
    rw [List.any_cons, Bool.or_eq_false_iff] at unmarked
    have rest := ih unmarked.2
    cases o <;> first | exact ⟨trivial, rest⟩ | cases unmarked.1

theorem pace_connectFailed (s : Session) (error : ConnectionError) {seen : List Shown}
    (unmarked : seen.any Shown.marks = false) (log : Log) :
    pace ((s.connectFailed error seen).2.map (Prod.mk s.now) ++ log) = (pace log).fail s.now false := by
  change (pace (seen.map (Prod.mk s.now) ++ log)).fail s.now false = _
  rw [pace_unmarked s.now unmarked]

theorem pace_listenFailed (s : Session) (l : Listening) (error : ConnectionError)
    {seen : List Shown} (unmarked : seen.any Shown.marks = false) (log : Log) :
    pace ((s.listenFailed l error seen).2.map (Prod.mk s.now) ++ log) =
      (pace log).fail s.now (minStableSubscription ≤ s.now - (pace log).listenedAt) := by
  change (pace (seen.map (Prod.mk s.now) ++ log)).fail s.now
    (minStableSubscription ≤ s.now - (pace (seen.map (Prod.mk s.now) ++ log)).listenedAt) = _
  rw [pace_unmarked s.now unmarked]

section Preserved

variable {s : Session} {log : Log}

theorem Phase.waits_of_timers {phase : Phase} {k : Nat} (timers : phase.timers = some k) :
    phase.waits = false ∧ phase.subscription = none := by
  cases phase <;> first | exact ⟨rfl, rfl⟩ | cases timers

theorem Phase.waits_of_subscription {phase : Phase} {l : Listening}
    (on : phase.subscription = some l) : phase.waits = false ∧ phase.timers = none := by
  cases phase <;> first | exact ⟨rfl, rfl⟩ | cases on

theorem Paced.shake (before : Paced s log) {k : Nat} (timers : s.phase.timers = some k)
    {phase : Phase} (later : Nat) (next : phase.timers = some later) (order : k ≤ later)
    (due : ∀ deadline, phase.deadline = some deadline →
      s.now ≤ deadline ∧ deadline ≤ (pace log).attemptedAt + later * handshakeTimeout)
    (connected : Bool) {shown : List Shown} (unmarked : shown.any Shown.marks = false) :
    Paced { s with phase, connected } (shown.map (Prod.mk s.now) ++ log) := by
  have same := pace_unmarked s.now unmarked log
  have moving := (Phase.waits_of_timers timers).1
  obtain ⟨awake, off⟩ := Phase.waits_of_timers next
  constructor
  · exact List.append_ne_nil_of_right_ne_nil _ before.nonempty
  · intro now_ at_
    obtain rfl := Option.some.inj (next.symm.trans at_)
    have reached := (before.handshake k timers).1
    have longer := Nat.mul_le_mul_right handshakeTimeout order
    rw [same]
    exact ⟨reached.trans (Nat.add_le_add_left longer _), due⟩
  · intro l on
    rw [off] at on
    cases on
  · intro _
    rw [same]
    exact before.failures fun at_ => by simp [at_, Phase.waits] at moving
  · rintro rfl
    cases awake
  · rintro deadline rfl
    cases awake
  · rw [same]
    exact before.spread
  · intro _
    rw [same]
    exact before.apart moving
  · exact justified_unmarked s.now unmarked before.justified

theorem Paced.hear (before : Paced s log) {l : Listening} (on : s.phase.subscription = some l)
    {phase : Phase} (next : Listening) (still : phase.subscription = some next)
    (same : next.subscribedAt = l.subscribedAt) {shown : List Shown}
    (unmarked : shown.any Shown.marks = false) :
    Paced { s with phase } (shown.map (Prod.mk s.now) ++ log) := by
  have kept := pace_unmarked s.now unmarked log
  have moving := (Phase.waits_of_subscription on).1
  obtain ⟨awake, past⟩ := Phase.waits_of_subscription still
  constructor
  · exact List.append_ne_nil_of_right_ne_nil _ before.nonempty
  · intro k at_
    rw [past] at at_
    cases at_
  · intro other at_
    obtain rfl := Option.some.inj (still.symm.trans at_)
    rw [kept, same]
    exact before.subscribed l on
  · intro _
    rw [kept]
    exact before.failures fun at_ => by simp [at_, Phase.waits] at moving
  · rintro rfl
    cases awake
  · rintro deadline rfl
    cases awake
  · rw [kept]
    exact before.spread
  · intro _
    rw [kept]
    exact before.apart moving
  · exact justified_unmarked s.now unmarked before.justified

theorem Paced.fail (before : Paced s log) (moving : s.phase.waits = false) {stable : Bool}
    {failures : Nat} (counts : failures = if stable then 0 else s.failures) {later : Log}
    (nonempty : later ≠ []) (ends : pace later = (pace log).fail s.now stable)
    (justified : Justified paceReason later) :
    Paced { s with phase := .retrying, failures, connected := false } later := by
  have earlier := before.failures fun at_ => by simp [at_, Phase.waits] at moving
  have apart := before.apart moving
  have shape : (pace later).endedAt = s.now ∧ 0 < (pace later).ended ∧
      failures = counted ((pace later).ended - 1) ∧
      (pace later).began + backoffSum ((pace later).ended - 1) ≤ s.now := by
    rw [ends, Pace.fail, counts]
    split
    · rename_i fresh
      refine ⟨rfl, Nat.one_pos, ?_, Nat.le_refl _⟩
      cases stable with
      | true => rfl
      | false => simp only [Bool.false_or, decide_eq_true_eq] at fresh; simp [earlier, fresh]
    · rename_i again
      simp only [Bool.or_eq_true, decide_eq_true_eq, not_or, Bool.not_eq_true] at again
      refine ⟨rfl, Nat.succ_pos _, ?_, apart (by omega)⟩
      rw [again.1]
      exact earlier
  obtain ⟨ended, positive, capped, spread⟩ := shape
  constructor
  · exact nonempty
  · exact fun _ at_ => by cases at_
  · exact fun _ at_ => by cases at_
  · exact fun other => absurd rfl other
  · exact fun _ => ⟨positive, capped, ended.symm⟩
  · exact fun _ at_ => by cases at_
  · exact fun _ => ended.symm ▸ spread
  · exact fun awake => by cases awake
  · exact justified

theorem Paced.listen (before : Paced s log) {channel : String} {secs : Nat}
    (phase : s.phase = .forced .wallet channel secs) :
    Paced { s with
        phase := .listening ⟨channel, activityTimeout secs, s.now, s.now + activityTimeout secs,
          none⟩ }
      ([.listen channel (activityTimeout secs), .signal (.notify .wallet)].map (Prod.mk s.now) ++
        log) := by
  have timers : s.phase.timers = some 4 := by
    rw [phase]
    rfl
  have moving := (Phase.waits_of_timers timers).1
  constructor
  · exact List.cons_ne_nil _ _
  · exact fun _ at_ => by cases at_
  · rintro l at_
    cases at_
    exact ⟨rfl, Nat.le_refl _⟩
  · exact fun _ => before.failures fun at_ => by simp [at_, Phase.waits] at moving
  · exact fun at_ => by cases at_
  · exact fun _ at_ => by cases at_
  · exact before.spread
  · exact fun _ => before.apart moving
  · exact ⟨(before.handshake 4 timers).1, trivial, before.justified⟩

theorem start_paced (settings : Settings) (now : Nat) :
    Paced (start settings now).1 (start settings now).2 := by
  constructor
  · exact List.cons_ne_nil _ _
  · rintro k at_
    cases at_
    refine ⟨Nat.le_add_right _ _, ?_⟩
    rintro _ due
    cases due
    exact ⟨Nat.le_add_right _ _, Nat.le_of_eq (by rw [Nat.one_mul]; rfl)⟩
  · exact fun _ at_ => by cases at_
  · exact fun _ => rfl
  · exact fun at_ => by cases at_
  · exact fun _ at_ => by cases at_
  · exact fun positive => absurd positive (Nat.lt_irrefl 0)
  · exact fun _ positive => absurd positive (Nat.lt_irrefl 0)
  · exact ⟨.inl rfl, trivial⟩

theorem Paced.attempted (before : Paced s log) (shaking : s.phase.inHandshake = true) :
    s.now ≤ (pace log).attemptedAt + handshakeLimit := by
  have late : ∀ k, s.phase.timers = some k → k ≤ 4 → s.now ≤ (pace log).attemptedAt + handshakeLimit := by
    intro k timers few
    have reached := (before.handshake k timers).1
    have longer := Nat.mul_le_mul_right handshakeTimeout few
    unfold handshakeLimit
    omega
  cases phase : s.phase with
  | connecting _ => exact late 1 (by rw [phase]; rfl) (by decide)
  | establishing _ => exact late 2 (by rw [phase]; rfl) (by decide)
  | authenticating _ _ => exact late 3 (by rw [phase]; rfl) (by decide)
  | subscribing _ _ _ => exact late 4 (by rw [phase]; rfl) (by decide)
  | _ =>
    rw [phase] at shaking
    cases shaking

theorem Paced.connectFailed (before : Paced s log) (shaking : s.phase.inHandshake = true)
    (error : ConnectionError) {seen : List Shown} (unmarked : seen.any Shown.marks = false) :
    Paced (s.connectFailed error seen).1
      ((s.connectFailed error seen).2.map (Prod.mk s.now) ++ log) := by
  have awake : s.phase.waits = false := by
    cases phase : s.phase <;> first | rfl | (rw [phase] at shaking; cases shaking)
  refine before.fail awake (by rfl) (List.cons_ne_nil _ _)
    (pace_connectFailed s error unmarked log)
    ⟨trivial, ?_, justified_unmarked s.now unmarked before.justified⟩
  have soon := before.attempted shaking
  rw [← pace_unmarked s.now unmarked log] at soon
  exact soon

theorem Paced.listenFailed (before : Paced s log) {l : Listening} (phase : s.phase = .listening l)
    (error : ConnectionError) {seen : List Shown} (unmarked : seen.any Shown.marks = false) :
    Paced (s.listenFailed l error seen).1
      ((s.listenFailed l error seen).2.map (Prod.mk s.now) ++ log) := by
  have since := (before.subscribed l (by rw [phase]; rfl)).1
  refine before.fail (by rw [phase]; rfl) ?_ (List.cons_ne_nil _ _)
    (pace_listenFailed s l error unmarked log)
    ⟨trivial, trivial, justified_unmarked s.now unmarked before.justified⟩
  rw [reconnectBackoffAttempt, since]
  simp only [decide_eq_true_eq]

theorem Paced.retry (before : Paced s log) (phase : s.phase = .retrying) {jitterPercent : Nat}
    (low : 80 ≤ jitterPercent) (high : jitterPercent ≤ 120) :
    Paced { s with
      phase := .sleeping (s.now + jitteredExponentialDelay jitterPercent s.failures)
      failures := saturatingSucc s.failures } log := by
  obtain ⟨positive, failures, ended⟩ := before.retrying phase
  have delay : jitteredExponentialDelay jitterPercent s.failures =
      jitteredExponentialDelay jitterPercent ((pace log).ended - 1) := by
    rw [failures, jitteredExponentialDelay_counted]
  constructor
  · exact before.nonempty
  · exact fun _ at_ => by cases at_
  · exact fun _ at_ => by cases at_
  · intro _
    change saturatingSucc s.failures = _
    rw [failures, counted_succ, Nat.sub_add_cancel positive]
  · exact fun at_ => by cases at_
  · rintro deadline at_
    cases at_
    have least := jitteredExponentialDelay_mono (n := (pace log).ended - 1) low
    have most := jitteredExponentialDelay_mono (n := (pace log).ended - 1) high
    refine ⟨positive, ?_, ?_, Nat.le_add_right _ _⟩
    · rw [delay]
      omega
    · rw [delay]
      omega
  · exact before.spread
  · exact fun awake => by cases awake
  · exact before.justified

theorem Paced.reconnect (before : Paced s log) {deadline : Nat} (phase : s.phase = .sleeping deadline)
    (late : deadline ≤ s.now) (settings : Settings) :
    Paced (s.connect settings).1 ((s.connect settings).2.map (Prod.mk s.now) ++ log) := by
  obtain ⟨positive, least, most, ahead⟩ := before.sleeping deadline phase
  have apart : (pace log).began + backoffSum (pace log).ended ≤ s.now := by
    have spread := before.spread positive
    obtain ⟨n, ended⟩ := Nat.exists_eq_succ_of_ne_zero (Nat.ne_of_gt positive)
    rw [ended] at least spread ⊢
    simp only [Nat.succ_eq_add_one, Nat.add_sub_cancel, backoffSum] at least spread ⊢
    omega
  constructor
  · exact List.cons_ne_nil _ _
  · rintro k at_
    cases at_
    change s.now ≤ s.now + 1 * handshakeTimeout ∧ _
    refine ⟨Nat.le_add_right _ _, ?_⟩
    rintro _ due
    cases due
    exact ⟨Nat.le_add_right _ _, by rw [Nat.one_mul]; exact Nat.le_refl _⟩
  · exact fun _ at_ => by cases at_
  · exact fun _ => before.failures (by rw [phase]; exact Phase.noConfusion)
  · exact fun at_ => by cases at_
  · exact fun _ at_ => by cases at_
  · exact before.spread
  · exact fun _ _ => apart
  · exact ⟨.inr ⟨positive, least.trans late, ahead.trans most, apart⟩, before.justified⟩

theorem Paced.pass (before : Paced s log) {deadline time : Nat}
    (timer : s.phase.deadline = some deadline) (ahead : s.now + time ≤ deadline) :
    Paced { s with now := s.now + time } log := by
  constructor
  · exact before.nonempty
  · intro k timers
    obtain ⟨reached, due⟩ := before.handshake k timers
    refine ⟨ahead.trans (due deadline timer).2, fun other at_ => ?_⟩
    obtain rfl := Option.some.inj (timer.symm.trans at_)
    exact ⟨ahead, (due deadline timer).2⟩
  · intro l on
    obtain ⟨since, earlier⟩ := before.subscribed l on
    exact ⟨since, earlier.trans (Nat.le_add_right _ _)⟩
  · exact before.failures
  · intro at_
    change s.phase = .retrying at at_
    rw [at_] at timer
    cases timer
  · rintro other at_
    change s.phase = .sleeping other at at_
    obtain ⟨positive, least, most, _⟩ := before.sleeping other at_
    rw [at_] at timer
    obtain rfl := Option.some.inj timer
    exact ⟨positive, least, most, ahead⟩
  · exact before.spread
  · exact fun awake positive => (before.apart awake positive).trans (Nat.le_add_right _ _)
  · exact before.justified

end Preserved

theorem unmarked_seen {seen : List Shown}
    (kind : Seen seen) : seen.any Shown.marks = false := by
  rcases kind with rfl | ⟨inbound, rfl⟩ | ⟨subscription, rfl⟩ <;> rfl

theorem unmarked_reply (reply : Option Outgoing) (inbound : Inbound) :
    ((reply.map Shown.send).toList ++ [Shown.heard inbound]).any Shown.marks = false := by
  cases reply <;> rfl

theorem stepped_paced {json : Json} {settings : Settings} {s t : Session} {log : Log}
    {shown : List Shown} (before : Paced s log) (stepped : Stepped json settings s (t, shown)) :
    Paced t (shown.map (Prod.mk s.now) ++ log) := by
  have timer : ∀ k, s.phase.timers = some k → ∀ deadline, s.now + handshakeTimeout = deadline →
      s.now ≤ deadline ∧ deadline ≤ (pace log).attemptedAt + (k + 1) * handshakeTimeout := by
    rintro k timers _ rfl
    have reached := (before.handshake k timers).1
    rw [Nat.add_mul, Nat.one_mul]
    omega
  generalize same : (t, shown) = result at stepped
  cases stepped with
  | pass deadline time due ahead =>
    cases same
    exact before.pass due ahead
  | connected deadline phase =>
    cases same
    refine before.shake (k := 1) (by rw [phase]; rfl) 2 rfl (by decide) ?_ _ rfl
    exact fun _ due => timer 1 (by rw [phase]; rfl) _ (Option.some.inj due)
  | failed error seen phase kind =>
    cases same
    exact before.connectFailed phase error (unmarked_seen kind)
  | waited message reply phase replies =>
    cases same
    rcases phase with ⟨deadline, phase⟩ | ⟨deadline, channel, secs, phase⟩
    · have timers : s.phase.timers = some 2 := by rw [phase]; rfl
      exact before.shake timers _ timers (Nat.le_refl _) (before.handshake 2 timers).2 _
        (unmarked_reply _ _)
    · have timers : s.phase.timers = some 4 := by rw [phase]; rfl
      exact before.shake timers _ timers (Nat.le_refl _) (before.handshake 4 timers).2 _
        (unmarked_reply _ _)
  | established deadline frame established phase event decoded =>
    cases same
    refine before.shake (k := 2) (by rw [phase]; rfl) 3 rfl (by decide) ?_ _ rfl
    exact fun _ due => timer 2 (by rw [phase]; rfl) _ (Option.some.inj due)
  | granted deadline secs subscription phase =>
    cases same
    refine before.shake (k := 3) (by rw [phase]; rfl) 4 rfl (by decide) ?_ _ rfl
    exact fun _ due => timer 3 (by rw [phase]; rfl) _ (Option.some.inj due)
  | subscribed deadline channel secs frame phase event mine =>
    cases same
    exact before.shake (k := 4) (by rw [phase]; rfl) 4 rfl (by decide)
      (fun _ due => by cases due) _ rfl
  | force target channel secs phase =>
    cases same
    exact before.shake (k := 4) (by rw [phase]; rfl) 4 rfl (by decide)
      (fun _ due => by cases due) _ rfl
  | forceNext channel secs phase =>
    cases same
    exact before.shake (k := 4) (by rw [phase]; rfl) 4 rfl (by decide)
      (fun _ due => by cases due) _ rfl
  | listen channel secs phase =>
    cases same
    exact before.listen phase
  | notify target l phase =>
    cases same
    exact before.hear (l := l) (by rw [phase]; rfl) l rfl rfl rfl
  | heard l message reply phase replies quiet =>
    cases same
    exact before.hear (l := l) (by rw [phase]; rfl) (l.alive s.now) rfl rfl
      (unmarked_reply _ _)
  | recorded l target frame phase event mine =>
    cases same
    exact before.hear (l := l) (by rw [phase]; rfl) (l.alive s.now) rfl rfl rfl
  | lost l error seen phase other kind =>
    cases same
    exact before.listenFailed phase error (unmarked_seen (.of_lost kind))
  | ping l phase unasked late =>
    cases same
    refine before.hear (l := l) (by rw [phase]; rfl) _ rfl ?_ rfl
    rfl
  | silent l deadline phase asked late =>
    cases same
    exact before.listenFailed phase _ rfl
  | retry jitterPercent phase low high =>
    cases same
    exact before.retry phase low high
  | reconnect deadline phase late =>
    cases same
    exact before.reconnect phase late settings

/-- Attempts to connect are spread by the growing delays, a handshake is over within
two minutes, and the next attempt begins within a minute of the end of the last. -/
theorem attempts_paced {json : Json} {settings : Settings} {now : Nat} {es : List Event}
    {reached : Session × Log} (runs : Runs json settings now es reached) :
    (reached.1.phase.inHandshake = true →
      reached.1.now ≤ (pace reached.2).attemptedAt + handshakeLimit) ∧
    (reached.1.phase.waits = true → reached.1.now ≤ (pace reached.2).endedAt + 60000) ∧
    Justified paceReason reached.2 := by
  have paced : Paced reached.1 reached.2 :=
    runs.invariant (start_paced settings now) fun _ _ _ _ => stepped_paced
  refine ⟨paced.attempted, fun waits => ?_, paced.justified⟩
  cases phase : reached.1.phase with
  | retrying => exact (paced.retrying phase).2.2 ▸ Nat.le_add_right _ _
  | sleeping deadline =>
    obtain ⟨_, _, most, ahead⟩ := paced.sleeping deadline phase
    have least := jitteredExponentialDelay_le 120 ((pace reached.2).ended - 1)
    omega
  | _ =>
    rw [phase] at waits
    cases waits

theorem stream_ends (json : Json) (settings : Settings) (now : Nat) (channel : String)
    (timeout : Nat) (log : Log) :
    run (traceStep (stampedStep json settings))
        (⟨now, .listening ⟨channel, timeout, now, now + timeout, none⟩, 0, true⟩, log)
        [.received .ended none, .retry 100, .pass (jitteredExponentialDelay 100 0), .timeUp none] =
      some (⟨now + jitteredExponentialDelay 100 0,
          .connecting (now + jitteredExponentialDelay 100 0 + handshakeTimeout), 1, false⟩,
        (now + jitteredExponentialDelay 100 0, .connect settings.url) ::
          (now, .setConnected false) :: (now, .listenFailed .streamEnded) ::
            (now, .heard .ended) :: log) := by
  simp [run, traceStep, stampedStep, step, onListening, Session.listenFailed,
    reconnectBackoffAttempt, timeUp, Phase.deadline, Session.connect, saturatingSucc]

theorem Pace.fail_endedAt (p : Pace) (now : Nat) (stable : Bool) :
    (p.fail now stable).endedAt = now := by
  unfold Pace.fail
  split <;> rfl

/-- The stream ends when the subscription begins, and the next attempt follows a second
later. -/
theorem attempts_paced_run :
    ∃ log, Runs plainJson defaultSettings 7
        (handshake "1.2" "private-daemon" 120 ++
          [.received .ended none, .retry 100, .pass 1000, .timeUp none])
        (⟨1007, .connecting 31007, 1, false⟩, (1007, .connect defaultSettings.url) :: log) ∧
      (pace log).endedAt = 7 ∧ paceReason (1007, .connect defaultSettings.url) log := by
  obtain ⟨log, runs⟩ := handshake_runs defaultSettings 7 "1.2" "private-daemon" 120
  have again := runs.then (stream_ends plainJson defaultSettings 7 "private-daemon" _ log)
  exact ⟨_, again, Pace.fail_endedAt (pace log) 7 _, (attempts_paced again).2.2.1⟩

end WalletDaemon.PusherSession
