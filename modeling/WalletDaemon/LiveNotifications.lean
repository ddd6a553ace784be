import WalletDaemon.Notifications
import WalletDaemon.Subscription

/-! The connection in time and both pollers, run together. It refines the connection
without time, and what it hears for a worker reaches the worker. -/

namespace WalletDaemon.LiveNotifications

open Notify PusherConnection PusherSession Notifications Transition

/-- A phase without its times. -/
def connection : Phase → Connection
  | .connecting _ => .offline
  | .establishing _ => .establishing
  | .authenticating _ _ => .authenticating
  | .subscribing _ channel _ => .subscribing channel
  | .forcing target channel _ => .forcing target channel
  | .forced target channel _ => .forced target channel
  | .listening l => .listening l.channel
  | .recorded target l => .recorded target l.channel
  | .retrying => .offline
  | .sleeping _ => .offline

def asSignal : Shown → Option Signal
  | .signal signal => some signal
  | _ => none

def signals (shown : List Shown) : List Signal := shown.filterMap asSignal

/-- The signals a step of the connection without time gives. -/
def given : Signal → List Signal
  | .quiet => []
  | signal => [signal]

structure Daemon (N : Type) where
  session : Session
  shown : Log
  transactions : Worker TransactionPoller.State N
  wallets : Worker WalletPoller.State N

/-- The daemon without the times of its connection. -/
def Daemon.system {N : Type} (d : Daemon N) : System N where
  now := d.session.now
  connection := connection d.session.phase
  transactions := d.transactions
  wallets := d.wallets

inductive Action
  | connection (e : Event)
  | transactions (e : WorkerEvent TransactionPoller.Event)
  | wallets (e : WorkerEvent WalletPoller.Event)

section Steps

variable {N : Type} (json : Json) (settings : Settings) (notifier : Notifier N)

def signalled (target : Target) (now : Nat) (shown : List Shown) (l : Station N) : Station N :=
  (signals shown).foldr (fun signal l => l.signalled notifier target now signal) l

def start (now : Nat) : Daemon N where
  session := (PusherSession.start settings now).1
  shown := (PusherSession.start settings now).2
  transactions := ⟨TransactionPoller.initial, Station.initial notifier⟩
  wallets := ⟨WalletPoller.initial, Station.initial notifier⟩

def step (d : Daemon N) : Action → Option (Daemon N)
  | .connection e =>
    (PusherSession.step json settings d.session e).map fun moved =>
      { session := moved.1
        shown := moved.2.map (Prod.mk d.session.now) ++ d.shown
        transactions := { d.transactions with
          station := signalled notifier .transaction d.session.now moved.2 d.transactions.station }
        wallets := { d.wallets with
          station := signalled notifier .wallet d.session.now moved.2 d.wallets.station } }
  | .transactions e =>
    (d.transactions.step notifier transactionLoop d.session.now e).map fun transactions =>
      { d with transactions }
  | .wallets e =>
    (d.wallets.step notifier walletLoop d.session.now e).map fun wallets => { d with wallets }

end Steps

section Refinement

/-- A step of the connection is one step without time, or time passes. -/
theorem stepped_simulated {json : Json} {settings : Settings} {s t : Session} {shown : List Shown}
    (stepped : Stepped json settings s (t, shown)) :
    (∃ time, t.now = s.now + time ∧ connection t.phase = connection s.phase ∧ signals shown = []) ∨
    (t.now = s.now ∧ ∃ e signal,
      PusherConnection.step (connection s.phase) e = some (connection t.phase, signal) ∧
        signals shown = given signal) := by
  have silent : ∀ seen, Seen seen → signals seen = [] := by
    rintro seen (rfl | ⟨inbound, rfl⟩ | ⟨subscription, rfl⟩) <;> rfl
  have replied : ∀ (reply : Option Outgoing) (inbound : Inbound),
      signals ((reply.map Shown.send).toList ++ [.heard inbound]) = [] := by
    intro reply inbound
    cases reply <;> rfl
  generalize same : (t, shown) = result at stepped
  cases stepped with
  | pass deadline time timer ahead =>
    cases same
    exact .inl ⟨time, rfl, rfl, rfl⟩
  | connected deadline phase =>
    cases same
    refine .inr ⟨rfl, .connected, .quiet, ?_, rfl⟩
    rw [phase]
    rfl
  | failed error seen phase kind =>
    cases same
    have quiet := silent seen kind
    cases at_ : s.phase with
    | connecting deadline => exact .inl ⟨0, rfl, rfl, quiet⟩
    | establishing deadline => exact .inr ⟨rfl, .lost, .quiet, rfl, quiet⟩
    | authenticating deadline secs => exact .inr ⟨rfl, .lost, .quiet, rfl, quiet⟩
    | subscribing deadline channel secs => exact .inr ⟨rfl, .lost, .quiet, rfl, quiet⟩
    | _ =>
      rw [at_] at phase
      cases phase
  | waited message reply phase replies =>
    cases same
    exact .inl ⟨0, rfl, rfl, replied _ _⟩
  | established deadline frame established phase event decoded =>
    cases same
    refine .inr ⟨rfl, .frame (some frame.frame), .quiet, ?_, rfl⟩
    simp [phase, connection, PusherConnection.step, establish, event]
  | granted deadline secs subscription phase =>
    cases same
    refine .inr ⟨rfl, .authenticated subscription.channel, .quiet, ?_, rfl⟩
    rw [phase]
    rfl
  | subscribed deadline channel secs frame phase event mine =>
    cases same
    refine .inr ⟨rfl, .frame (some frame.frame), .quiet, ?_, rfl⟩
    simp [phase, connection, PusherConnection.step, subscribe, event, mine]
  | force target channel secs phase =>
    cases same
    refine .inr ⟨rfl, .goOn, .update target .force, ?_, rfl⟩
    rw [phase]
    rfl
  | forceNext channel secs phase =>
    cases same
    refine .inr ⟨rfl, .goOn, .notify .transaction, ?_, rfl⟩
    rw [phase]
    rfl
  | listen channel secs phase =>
    cases same
    refine .inr ⟨rfl, .goOn, .notify .wallet, ?_, rfl⟩
    rw [phase]
    rfl
  | notify target l phase =>
    cases same
    refine .inr ⟨rfl, .goOn, .notify target, ?_, rfl⟩
    rw [phase]
    rfl
  | heard l message reply phase replies quiet =>
    cases same
    refine .inl ⟨0, rfl, ?_, replied _ _⟩
    rw [phase]
    rfl
  | recorded l target frame phase event mine =>
    cases same
    refine .inr ⟨rfl, .frame (some frame.frame), .update target .recordEvent, ?_, rfl⟩
    have own : frame.frame.channel.any (· ≠ l.channel) = false := by
      cases named : frame.frame.channel with
      | none => rfl
      | some theirs => simpa [named] using mine
    rw [phase]
    change some (route l.channel frame.frame) = _
    rw [route, own]
    cases target <;> simp [event, eventName, connection, Listening.alive]
  | lost l error seen phase other kind =>
    cases same
    refine .inr ⟨rfl, .lost, .quiet, ?_, silent seen (.of_lost kind)⟩
    rw [phase]
    rfl
  | ping l phase unasked late =>
    cases same
    refine .inl ⟨0, rfl, ?_, rfl⟩
    rw [phase]
    rfl
  | silent l deadline phase asked late =>
    cases same
    refine .inr ⟨rfl, .lost, .quiet, ?_, rfl⟩
    rw [phase]
    rfl
  | retry jitterPercent phase low high =>
    cases same
    refine .inl ⟨0, rfl, ?_, rfl⟩
    rw [phase]
    rfl
  | reconnect deadline phase late =>
    cases same
    refine .inl ⟨0, rfl, ?_, rfl⟩
    rw [phase]
    rfl

variable {N : Type} {json : Json} {settings : Settings} {notifier : Notifier N}

theorem signalled_given (target : Target) (now : Nat) {shown : List Shown} {signal : Signal}
    (gives : signals shown = given signal) (l : Station N) :
    signalled notifier target now shown l = l.signalled notifier target now signal := by
  rw [signalled, gives]
  cases signal <;> rfl

theorem signalled_silent (target : Target) (now : Nat) {shown : List Shown}
    (silent : signals shown = []) (l : Station N) : signalled notifier target now shown l = l := by
  rw [signalled, silent]
  rfl

theorem step_refines {d d' : Daemon N} {a : Action}
    (h : step json settings notifier d a = some d') :
    ∃ action, Notifications.step notifier d.system action = some d'.system := by
  cases a with
  | connection e =>
    obtain ⟨⟨t, shown⟩, stepped, rfl⟩ := Option.map_eq_some_iff.mp h
    rcases stepped_simulated (step_cases stepped) with
      ⟨time, later, still, silent⟩ | ⟨now, e', signal, moves, gives⟩
    · refine ⟨.pass time, ?_⟩
      simp [Notifications.step, Daemon.system, later, still, signalled_silent, silent]
    · refine ⟨.connection e', ?_⟩
      simp only [Notifications.step, Daemon.system, moves, now, Option.map_some,
        signalled_given _ _ gives]
  | transactions e =>
    obtain ⟨transactions, stepped, rfl⟩ := Option.map_eq_some_iff.mp h
    exact ⟨.transactions e, Option.map_eq_some_iff.mpr ⟨transactions, stepped, rfl⟩⟩
  | wallets e =>
    obtain ⟨wallets, stepped, rfl⟩ := Option.map_eq_some_iff.mp h
    exact ⟨.wallets e, Option.map_eq_some_iff.mpr ⟨wallets, stepped, rfl⟩⟩

theorem run_refines {now : Nat} {actions : List Action} {d : Daemon N}
    (path : Path (ofFn (step json settings notifier)) (start settings notifier now) actions d) :
    ∃ as, Path (ofFn (Notifications.step notifier)) (Notifications.initial notifier now) as
      d.system := by
  induction path with
  | refl => exact ⟨[], .refl⟩
  | snoc _ last ih =>
    obtain ⟨as, before⟩ := ih
    obtain ⟨action, stepped⟩ := step_refines last
    exact ⟨as ++ [action], before.snoc stepped⟩

end Refinement

section Reached

def Standing.hears (st : Standing) (target : Target) (inbound : Inbound) : Bool :=
  st.listening && st.channel.any fun channel => inbound.notifies channel target

/-- The messages for a target that were heard while listening. -/
def heardFor (target : Target) : Log → Nat
  | [] => 0
  | (_, .heard inbound) :: earlier =>
    (Standing.hears (standing earlier) target inbound).toNat + heardFor target earlier
  | _ :: earlier => heardFor target earlier

def subscriptions : Log → Nat
  | [] => 0
  | (_, .listen _ _) :: earlier => subscriptions earlier + 1
  | _ :: earlier => subscriptions earlier

/-- The trigger has been forced for a subscription that does not listen yet. -/
def ahead (target : Target) : Phase → Nat
  | .forced .transaction _ _ => if target = .transaction then 1 else 0
  | .forcing .wallet _ _ => if target = .transaction then 1 else 0
  | .forced .wallet _ _ => 1
  | _ => 0

def updates (target : Target) (update : Update) (shown : List Shown) : Nat :=
  (signals shown).count (.update target update)

section Shown

variable {json : Json} {s : Session} {log : Log} (target : Target) (now : Nat)

theorem heardFor_reply (reply : Option Outgoing) (inbound : Inbound) (log : Log) :
    heardFor target (((reply.map Shown.send).toList ++ [Shown.heard inbound]).map (Prod.mk now) ++ log) =
      (Standing.hears (standing log) target inbound).toNat + heardFor target log := by
  cases reply <;> rfl

theorem subscriptions_reply (reply : Option Outgoing) (inbound : Inbound) (log : Log) :
    subscriptions (((reply.map Shown.send).toList ++ [Shown.heard inbound]).map (Prod.mk now) ++ log) =
      subscriptions log := by
  cases reply <;> rfl

theorem updates_reply (update : Update) (reply : Option Outgoing) (inbound : Inbound) :
    updates target update ((reply.map Shown.send).toList ++ [.heard inbound]) = 0 := by
  cases reply <;> rfl

theorem hears_of_standing {phase : Phase} {socketId : String}
    (stands : standing log = phase.standing socketId) (off : phase.subscription = none)
    (inbound : Inbound) : Standing.hears (standing log) target inbound = false := by
  rw [stands]
  cases phase with
  | forcing target _ _ => cases target <;> rfl
  | forced target _ _ => cases target <;> rfl
  | listening _ => cases off
  | recorded _ _ => cases off
  | _ => rfl

theorem hears_of_listening {l : Listening} {socketId : String}
    (stands : standing log = (Phase.listening l).standing socketId) (inbound : Inbound) :
    Standing.hears (standing log) target inbound = inbound.notifies l.channel target := by
  rw [stands]
  exact Bool.true_and _

theorem heardFor_seen {seen : List Shown} (kind : Seen seen)
    (deaf : ∀ inbound, seen = [.heard inbound] →
      Standing.hears (standing log) target inbound = false) :
    heardFor target (seen.map (Prod.mk now) ++ log) = heardFor target log ∧
      subscriptions (seen.map (Prod.mk now) ++ log) = subscriptions log ∧
      ∀ update, updates target update seen = 0 := by
  rcases kind with rfl | ⟨inbound, rfl⟩ | ⟨subscription, rfl⟩
  · exact ⟨rfl, rfl, fun _ => rfl⟩
  · refine ⟨?_, rfl, fun _ => rfl⟩
    change (Standing.hears (standing log) target inbound).toNat + heardFor target log = _
    rw [deaf inbound rfl]
    exact Nat.zero_add _
  · exact ⟨rfl, rfl, fun _ => rfl⟩

end Shown

/-- Each message for a target updates its trigger in the same step, and each trigger
is forced once for each subscription. -/
structure Delivered (target : Target) (s t : Session) (log later : Log) (shown : List Shown) :
    Prop where
  heard : heardFor target later = updates target .recordEvent shown + heardFor target log
  forced : subscriptions later + ahead target t.phase =
    updates target .force shown + (subscriptions log + ahead target s.phase)

theorem stepped_delivered {json : Json} {settings : Settings} {s t : Session} {log : Log}
    {shown : List Shown} (standard : Standard json s log)
    (stepped : Stepped json settings s (t, shown)) (target : Target) :
    Delivered target s t log (shown.map (Prod.mk s.now) ++ log) shown := by
  obtain ⟨socketId, stands⟩ := standard.standing
  have unheard : ∀ inbound, s.phase.subscription = none →
      Standing.hears (standing log) target inbound = false :=
    fun inbound off => hears_of_standing target stands off inbound
  have one : ∀ inbound, s.phase.subscription = none →
      (Standing.hears (standing log) target inbound).toNat + heardFor target log =
        0 + heardFor target log := by
    intro inbound off
    rw [unheard inbound off]
    rfl
  generalize same : (t, shown) = result at stepped
  cases stepped with
  | pass deadline time timer later =>
    cases same
    exact ⟨(Nat.zero_add _).symm, (Nat.zero_add _).symm⟩
  | connected deadline phase =>
    cases same
    exact ⟨(Nat.zero_add _).symm, by rw [phase]; exact (Nat.zero_add _).symm⟩
  | failed error seen phase kind =>
    cases same
    have off : s.phase.subscription = none ∧ ahead target s.phase = 0 := by
      cases at_ : s.phase <;> first | exact ⟨rfl, rfl⟩ | (rw [at_] at phase; cases phase)
    obtain ⟨heard, kept, quiet⟩ :=
      heardFor_seen target s.now kind (fun inbound _ => unheard inbound off.1)
    refine ⟨?_, ?_⟩
    · change heardFor target (seen.map (Prod.mk s.now) ++ log) = updates target _ seen + _
      rw [heard, quiet, Nat.zero_add]
    · change subscriptions (seen.map (Prod.mk s.now) ++ log) + 0 = updates target _ seen + _
      rw [kept, quiet, off.2, Nat.zero_add]
  | waited message reply phase replies =>
    cases same
    have off : s.phase.subscription = none := by
      rcases phase with ⟨deadline, phase⟩ | ⟨deadline, channel, secs, phase⟩ <;> rw [phase] <;> rfl
    refine ⟨?_, ?_⟩
    · rw [heardFor_reply, updates_reply, unheard _ off]
      rfl
    · rw [subscriptions_reply, updates_reply, Nat.zero_add]
  | established deadline frame established phase event decoded =>
    cases same
    exact ⟨one _ (by rw [phase]; rfl), by rw [phase]; exact (Nat.zero_add _).symm⟩
  | granted deadline secs subscription phase =>
    cases same
    exact ⟨(Nat.zero_add _).symm, by rw [phase]; exact (Nat.zero_add _).symm⟩
  | subscribed deadline channel secs frame phase event mine =>
    cases same
    exact ⟨one _ (by rw [phase]; rfl), by rw [phase]; exact (Nat.zero_add _).symm⟩
  | force called channel secs phase =>
    cases same
    refine ⟨?_, ?_⟩
    · have none_ : updates target .recordEvent [.signal (.update called .force)] = 0 := by
        cases called <;> cases target <;> rfl
      rw [none_]
      exact (Nat.zero_add _).symm
    · rw [phase]
      change subscriptions log + ahead target (.forced called channel secs) = _
      cases called <;> cases target <;> simp [ahead, updates, signals, asSignal, Nat.add_comm]
  | forceNext channel secs phase =>
    cases same
    refine ⟨(Nat.zero_add _).symm, ?_⟩
    rw [phase]
    exact (Nat.zero_add _).symm
  | listen channel secs phase =>
    cases same
    refine ⟨(Nat.zero_add _).symm, ?_⟩
    rw [phase]
    exact (Nat.zero_add _).symm
  | notify called l phase =>
    cases same
    refine ⟨(Nat.zero_add _).symm, ?_⟩
    rw [phase]
    exact (Nat.zero_add _).symm
  | heard l message reply phase replies quiet =>
    cases same
    rw [phase] at stands
    refine ⟨?_, ?_⟩
    · rw [heardFor_reply, updates_reply, hears_of_listening target stands, quiet target]
      rfl
    · rw [subscriptions_reply, updates_reply, phase, Nat.zero_add]
      rfl
  | recorded l called frame phase event mine =>
    cases same
    rw [phase] at stands
    refine ⟨?_, ?_⟩
    · change (Standing.hears (standing log) target _).toNat + heardFor target log = _
      rw [hears_of_listening target stands, Inbound.notifies, event, mine]
      cases called <;> cases target <;> simp [eventName] <;> rfl
    · rw [phase]
      cases called <;> cases target <;> exact (Nat.zero_add _).symm
  | lost l error seen phase other kind =>
    cases same
    rw [phase] at stands
    obtain ⟨heard, kept, quiet⟩ := heardFor_seen target s.now (.of_lost kind) (by
      rintro inbound rfl
      rw [hears_of_listening target stands]
      rcases kind with none_ | ⟨_, same, deaf⟩
      · cases none_
      · cases same
        exact deaf target)
    refine ⟨?_, ?_⟩
    · change heardFor target (seen.map (Prod.mk s.now) ++ log) = updates target _ seen + _
      rw [heard, quiet, Nat.zero_add]
    · change subscriptions (seen.map (Prod.mk s.now) ++ log) + 0 = updates target _ seen + _
      rw [kept, quiet, phase, Nat.zero_add]
      rfl
  | ping l phase unasked late =>
    cases same
    exact ⟨(Nat.zero_add _).symm, by rw [phase]; exact (Nat.zero_add _).symm⟩
  | silent l deadline phase asked late =>
    cases same
    exact ⟨(Nat.zero_add _).symm, by rw [phase]; exact (Nat.zero_add _).symm⟩
  | retry jitterPercent phase low high =>
    cases same
    exact ⟨(Nat.zero_add _).symm, by rw [phase]; exact (Nat.zero_add _).symm⟩
  | reconnect deadline phase late =>
    cases same
    exact ⟨(Nat.zero_add _).symm, by rw [phase]; exact (Nat.zero_add _).symm⟩

variable {N : Type} {json : Json} {settings : Settings} {notifier : Notifier N}

theorem signal_counts (target : Target) (now : Nat) (signal : Signal) (l : Station N) :
    (l.signalled notifier target now signal).log.count .notified =
        l.log.count .notified + (if signal == .update target .recordEvent then 1 else 0) ∧
      (l.signalled notifier target now signal).log.count .resubscribed =
        l.log.count .resubscribed + if signal == .update target .force then 1 else 0 := by
  cases signal with
  | quiet => exact ⟨rfl, rfl⟩
  | notify called => by_cases mine : called = target <;> simp [Station.signalled, mine]
  | update called update =>
    by_cases mine : called = target
    · cases update <;> simp [Station.signalled, Station.updated, mine]
    · simp [Station.signalled, mine]

theorem signalled_counts (target : Target) (now : Nat) (shown : List Shown) (l : Station N) :
    (signalled notifier target now shown l).log.count .notified =
        updates target .recordEvent shown + l.log.count .notified ∧
      (signalled notifier target now shown l).log.count .resubscribed =
        updates target .force shown + l.log.count .resubscribed := by
  unfold signalled updates
  induction signals shown with
  | nil => exact ⟨(Nat.zero_add _).symm, (Nat.zero_add _).symm⟩
  | cons signal rest ih =>
    obtain ⟨notified, resubscribed⟩ := @signal_counts _ notifier target now signal
      (rest.foldr (fun signal l => l.signalled notifier target now signal) l)
    rw [List.foldr_cons, List.count_cons, List.count_cons, notified, resubscribed, ih.1, ih.2]
    exact ⟨by omega, by omega⟩

theorem worker_step_counts {σ ε : Type} {loop : Loop σ ε} {now : Nat} {w w' : Worker σ N}
    {e : WorkerEvent ε} (h : w.step notifier loop now e = some w') :
    w'.station.log.count .notified = w.station.log.count .notified ∧
      w'.station.log.count .resubscribed = w.station.log.count .resubscribed := by
  cases e with
  | poll e =>
    obtain ⟨poller, -, rest⟩ := Option.bind_eq_some_iff.mp h
    obtain ⟨station, called, rfl⟩ := Option.map_eq_some_iff.mp rest
    obtain ⟨state, -, rfl⟩ := Option.map_eq_some_iff.mp called
    change (begun _ ++ w.station.log).count _ = _ ∧ (begun _ ++ w.station.log).count _ = _
    cases loop.call w.poller e <;> simp [begun]
  | proceed =>
    obtain ⟨moved, -, rfl⟩ := Option.map_eq_some_iff.mp h
    exact ⟨rfl, rfl⟩
  | expire =>
    obtain ⟨moved, -, rfl⟩ := Option.map_eq_some_iff.mp h
    exact ⟨rfl, rfl⟩

/-- What has been heard for a target, and each subscription, is in its station's log. -/
structure Reaching (json : Json) (d : Daemon N) : Prop where
  standard : Standard json d.session d.shown
  notified : ∀ target, (d.system.station target).log.count .notified = heardFor target d.shown
  resubscribed : ∀ target, (d.system.station target).log.count .resubscribed =
    subscriptions d.shown + ahead target d.session.phase

theorem start_reaching (now : Nat) : Reaching json (start settings notifier now) where
  standard := .between ⟨"", rfl⟩ rfl rfl ⟨trivial, trivial⟩
  notified target := by cases target <;> rfl
  resubscribed target := by cases target <;> rfl

theorem Reaching.connection_step {d : Daemon N} (before : Reaching json d) {t : Session}
    {shown : List Shown} (stepped : Stepped json settings d.session (t, shown)) :
    Reaching json
      { session := t
        shown := shown.map (Prod.mk d.session.now) ++ d.shown
        transactions := { d.transactions with
          station := signalled notifier .transaction d.session.now shown d.transactions.station }
        wallets := { d.wallets with
          station := signalled notifier .wallet d.session.now shown d.wallets.station } } where
  standard := stepped_standard before.standard stepped
  notified target := by
    rw [(stepped_delivered before.standard stepped target).heard, ← before.notified target]
    cases target <;> exact (signalled_counts _ _ _ _).1
  resubscribed target := by
    rw [(stepped_delivered before.standard stepped target).forced, ← before.resubscribed target]
    cases target <;> exact (signalled_counts _ _ _ _).2

theorem step_reaching {d d' : Daemon N} {a : Action} (before : Reaching json d)
    (h : step json settings notifier d a = some d') : Reaching json d' := by
  cases a with
  | connection e =>
    obtain ⟨⟨t, shown⟩, stepped, rfl⟩ := Option.map_eq_some_iff.mp h
    exact before.connection_step (step_cases stepped)
  | transactions e =>
    obtain ⟨transactions, stepped, rfl⟩ := Option.map_eq_some_iff.mp h
    obtain ⟨notified, resubscribed⟩ := worker_step_counts stepped
    refine ⟨before.standard, fun target => ?_, fun target => ?_⟩
    · cases target
      · exact notified.trans (before.notified .transaction)
      · exact before.notified .wallet
    · cases target
      · exact resubscribed.trans (before.resubscribed .transaction)
      · exact before.resubscribed .wallet
  | wallets e =>
    obtain ⟨wallets, stepped, rfl⟩ := Option.map_eq_some_iff.mp h
    obtain ⟨notified, resubscribed⟩ := worker_step_counts stepped
    refine ⟨before.standard, fun target => ?_, fun target => ?_⟩
    · cases target
      · exact before.notified .transaction
      · exact notified.trans (before.notified .wallet)
    · cases target
      · exact before.resubscribed .transaction
      · exact resubscribed.trans (before.resubscribed .wallet)

/-- The daemon whose connection keeps time runs as the system without time does. Every
message for a worker that is heard on the subscription, and every subscription, reaches
the worker's trigger, and a worker that waits idly with its trigger unarmed has looked
since. -/
theorem heard_work_is_looked_up (documented : notifier.Documented) {now : Nat}
    {actions : List Action} {d : Daemon N}
    (path : Path (ofFn (step json settings notifier)) (start settings notifier now) actions d)
    (target : Target) :
    (∃ as, Path (ofFn (Notifications.step notifier)) (Notifications.initial notifier now) as
      d.system) ∧
    (d.system.station target).log.count .notified = heardFor target d.shown ∧
    (d.system.station target).log.count .resubscribed =
      subscriptions d.shown + ahead target d.session.phase ∧
    (d.system.Idle target → ¬ (d.system.station target).trigger.state.Armed →
      Covered (d.system.station target).log) := by
  obtain ⟨as, refined⟩ := run_refines path
  have sound : d.system.Sound notifier :=
    refined.invariant (fun _ _ _ inv stepped => step_sound documented inv stepped)
      (initial_sound now)
  have reaching : Reaching json d :=
    path.invariant (fun _ _ _ inv stepped => step_reaching inv stepped) (start_reaching now)
  refine ⟨⟨as, refined⟩, reaching.notified target, reaching.resubscribed target, fun idle => ?_⟩
  cases target with
  | transaction =>
    refine sound.transactions.covered ?_
    rintro ⟨-, ⟨phase, -⟩ | phase⟩
    · exact TransactionPoller.Phase.noConfusion (idle.symm.trans phase)
    · exact TransactionPoller.Phase.noConfusion (idle.symm.trans phase)
  | wallet =>
    refine sound.wallets.covered ?_
    rintro ⟨-, ⟨phase, -⟩ | phase⟩
    · exact WalletPoller.Phase.noConfusion (idle.symm.trans phase)
    · exact WalletPoller.Phase.noConfusion (idle.symm.trans phase)

/-- A lookup that finds nothing, and the wait after it. -/
def emptyLookup : List Action :=
  [.transactions (.poll .begin), .transactions (.poll (.reply (Platform.answers none) false)),
    .transactions (.poll .start), .transactions .proceed, .transactions .proceed]

def subscribed : List Action :=
  (handshake "1.2" "private-daemon" 120).map .connection ++
    [.connection (.received (announcement "private-daemon") none), .connection .goOn]

/-- The sleeping poller is woken by the subscription and a message on it, and is idle
again after its lookup. -/
theorem heard_work_is_looked_up_subscribed :
    ∃ d : Daemon Slot, Path (ofFn (step plainJson defaultSettings slot))
        (start defaultSettings slot 0)
        (.transactions (.poll .start) :: emptyLookup ++ subscribed ++
          [.transactions .proceed, .transactions .proceed, .transactions (.poll .wake)] ++
          emptyLookup) d ∧
      d.system.Idle .transaction ∧ subscriptions d.shown = 1 ∧ heardFor .transaction d.shown = 1 ∧
      (d.system.station .transaction).log.count .notified = heardFor .transaction d.shown ∧
      (d.system.station .transaction).log.count .resubscribed = subscriptions d.shown ∧
      Covered (d.system.station .transaction).log := by
  have path : Path (ofFn (step plainJson defaultSettings slot)) (start defaultSettings slot 0)
      (.transactions (.poll .start) :: emptyLookup ++ subscribed ++
        [.transactions .proceed, .transactions .proceed, .transactions (.poll .wake)] ++
        emptyLookup) _ := Path.of_run rfl
  have reached := heard_work_is_looked_up slot_documented path .transaction
  refine ⟨_, path, rfl, rfl, rfl, reached.2.1, reached.2.2.1, reached.2.2.2 rfl ?_⟩
  rintro (forced | pending)
  · exact Bool.false_ne_true forced
  · exact Nat.lt_irrefl 0 pending

end Reached

end WalletDaemon.LiveNotifications
