import WalletDaemon.PusherConnection
import WalletDaemon.Transition
import WalletDaemon.TransactionPoller
import WalletDaemon.WalletPoller
import WalletDaemon.WorkTrigger

/-! The notification connection and both pollers, run together. Any of them may
take its next step at any time, and the poll timer may end a wait at any time.
A notification or a new subscription has reached a trigger once its state is
updated; from then on the trigger is armed until a fresh lookup begins. -/

namespace WalletDaemon.Notifications

open Notify WorkTrigger PusherConnection Transition

inductive Entry
  | notified
  | resubscribed
  | lookupStarted
deriving DecidableEq, Repr

/-- A trigger, the wait on it, and a log of what reached it and of the fresh
lookups begun, newest first. -/
structure Station (N : Type) where
  trigger : Inner N
  wait : Wait
  log : List Entry

/-- A poller: its steps, what each calls on the trigger, and the wait a state
is in. -/
structure Loop (σ ε : Type) where
  step : σ → ε → Option σ
  call : σ → ε → Call
  wait : σ → Wait

structure Worker (σ N : Type) where
  poller : σ
  station : Station N

inductive WorkerEvent (ε : Type)
  | poll (e : ε)
  | proceed
  | expire

section Calls

open Retry

/-- The call at the end of a scan that has no batch to send. -/
def finishCall (fresh deferred : Bool) : Call :=
  if fresh then .finishEmptyLookup else .finishBatch true deferred

section Transactions

open TransactionPoller

/-- An idle tick is awaited before the call. -/
def endCall (s : State) (fresh deferred : Bool) : Call :=
  if idleChains s = ∅ then finishCall fresh deferred else .none

def transactionReplyCall (s : State) (fresh deferred : Bool)
    (send : Platform.Send (Option PendingPage)) : Call :=
  match getPendingTransactions send with
  | .ok (requests, nextCursor) =>
    if requests.isEmpty then
      if shouldContinueEmptyDrain s.cursor nextCursor s.unproductivePages then .none
      else endCall s fresh deferred
    else .none
  | .error error =>
    if error = Platform.noTransactionsMsg then endCall s fresh deferred else .finishEmptyLookup

def transactionCall (s : State) : Event → Call
  | .begin => if s.cursor.isNone then .beginFreshLookup else .none
  | .reply send deferred =>
    match s.phase with
    | .lookup fresh => transactionReplyCall s fresh deferred send
    | _ => .none
  | .ack _ deferred =>
    match s.phase with
    | .sent nextCursor => .finishBatch nextCursor.isNone deferred
    | .idleSent fresh => finishCall fresh deferred
    | _ => .none
  | _ => .none

def transactionLoop : Loop State Event where
  step s e := (TransactionPoller.step s e).map Prod.fst
  call := transactionCall
  wait s :=
    match s.phase with
    | .idleWait => waitUntilReady
    | .retryWait => waitForNewEvent
    | _ => .absent

end Transactions

section Wallets

open WalletPoller

def walletReplyCall (s : State) (fresh deferred : Bool)
    (send : Platform.Send (Option PendingPage)) : Call :=
  match getPendingWallets send with
  | .ok (requests, nextCursor) =>
    if requests.isEmpty then
      if shouldContinueEmptyDrain s.cursor nextCursor s.emptyPages then .none
      else finishCall fresh deferred
    else .none
  | .error _ => .finishEmptyLookup

def walletCall (s : State) : Event → Call
  | .begin => if s.cursor.isNone then .beginFreshLookup else .none
  | .reply send deferred =>
    match s.phase with
    | .lookup fresh => walletReplyCall s fresh deferred send
    | _ => .none
  | .ack _ deferred =>
    match s.phase with
    | .sent nextCursor => .finishBatch nextCursor.isNone deferred
    | _ => .none
  | _ => .none

def walletLoop : Loop State Event where
  step s e := (WalletPoller.step s e).map Prod.fst
  call := walletCall
  wait s :=
    match s.phase with
    | .idleWait => waitUntilReady
    | .retryWait => waitForNewEvent
    | _ => .absent

end Wallets

end Calls

section Steps

variable {N σ ε : Type} (notifier : Notifier N)

def Station.initial : Station N where
  trigger := ⟨TriggerState.initial, notifier.new⟩
  wait := .absent
  log := []

def begun : Call → List Entry
  | .beginFreshLookup => [.lookupStarted]
  | _ => []

/-- A poller's call on its trigger, and the wait that follows. The wait before
it is dropped. -/
def Station.called (l : Station N) (call : Call) (wait : Wait) : Option (Station N) :=
  (l.trigger.state.called call).map fun state =>
    { trigger := { abandon notifier l.trigger l.wait with state }
      wait
      log := begun call ++ l.log }

def Station.waited (l : Station N) (moved : Wait × Inner N) : Station N :=
  { l with wait := moved.1, trigger := moved.2 }

def Station.updated (l : Station N) (now : Nat) : Update → Station N
  | .force =>
    { l with
      trigger := { l.trigger with state := l.trigger.state.force }
      log := .resubscribed :: l.log }
  | .recordEvent =>
    { l with
      trigger := { l.trigger with state := l.trigger.state.recordEvent now }
      log := .notified :: l.log }

/-- What the connection's signal does to the trigger of `target`. -/
def Station.signalled (l : Station N) (target : Target) (now : Nat) : Signal → Station N
  | .quiet => l
  | .update called update => if called = target then l.updated now update else l
  | .notify called =>
    if called = target then
      { l with trigger := { l.trigger with notify := notifier.notifyOne l.trigger.notify } }
    else l

def Worker.step (loop : Loop σ ε) (now : Nat) (w : Worker σ N) :
    WorkerEvent ε → Option (Worker σ N)
  | .poll e =>
    (loop.step w.poller e).bind fun poller =>
      (w.station.called notifier (loop.call w.poller e) (loop.wait poller)).map fun station =>
        { poller, station }
  | .proceed =>
    (proceed notifier now w.station.trigger w.station.wait).map fun moved =>
      { w with station := w.station.waited moved }
  | .expire =>
    (expire notifier now w.station.trigger w.station.wait).map fun moved =>
      { w with station := w.station.waited moved }

structure System (N : Type) where
  now : Nat
  connection : Connection
  transactions : Worker TransactionPoller.State N
  wallets : Worker WalletPoller.State N

def initial (now : Nat) : System N where
  now
  connection := .offline
  transactions := ⟨TransactionPoller.initial, Station.initial notifier⟩
  wallets := ⟨WalletPoller.initial, Station.initial notifier⟩

inductive Action
  | pass (time : Nat)
  | connection (e : SocketEvent)
  | transactions (e : WorkerEvent TransactionPoller.Event)
  | wallets (e : WorkerEvent WalletPoller.Event)

def step (s : System N) : Action → Option (System N)
  | .pass time => some { s with now := s.now + time }
  | .connection e =>
    (PusherConnection.step s.connection e).map fun moved =>
      { s with
        connection := moved.1
        transactions := { s.transactions with
          station := s.transactions.station.signalled notifier .transaction s.now moved.2 }
        wallets := { s.wallets with
          station := s.wallets.station.signalled notifier .wallet s.now moved.2 } }
  | .transactions e =>
    (s.transactions.step notifier transactionLoop s.now e).map fun transactions =>
      { s with transactions }
  | .wallets e =>
    (s.wallets.step notifier walletLoop s.now e).map fun wallets => { s with wallets }

end Steps

def System.station {N : Type} (s : System N) : Target → Station N
  | .transaction => s.transactions.station
  | .wallet => s.wallets.station

def System.Idle {N : Type} (s : System N) : Target → Prop
  | .transaction => s.transactions.poller.phase = .idleWait
  | .wallet => s.wallets.poller.phase = .idleWait

/-- Nothing reached the trigger since the last fresh lookup began. -/
def Covered (log : List Entry) : Prop := ∃ earlier, log = .lookupStarted :: earlier

/-- `wait_until_ready` sleeps with neither a permit nor a deadline. -/
def Station.Asleep {N : Type} (notifier : Notifier N) (l : Station N) : Prop :=
  l.wait = .await .untilReady none ∧ notifier.waiting l.trigger.notify = true ∧
    notifier.permit l.trigger.notify = false

section Invariant

variable {N σ ε : Type} {notifier : Notifier N}

/-- Pending events are timed, an unarmed trigger's log is covered, and outside a
call on the trigger its wait does not sleep through what is due. -/
structure Station.Sound (notifier : Notifier N) (midCall : Prop) (l : Station N) : Prop where
  timed : l.trigger.state.Timed
  covered : ¬ l.trigger.state.Armed → l.log = [] ∨ Covered l.log
  wakeful : ¬ midCall → Wakeful notifier l.wait l.trigger

/-- The wait of a poller that has just taken a step. -/
def Early (wait : Wait) : Prop := ∀ kind deadline, wait ≠ .await kind deadline

theorem Early.wakeful {wait : Wait} (early : Early wait) (w : Inner N) :
    Wakeful notifier wait w :=
  fun kind deadline awaits => absurd awaits (early kind deadline)

theorem Station.initial_sound (midCall : Prop) :
    (Station.initial notifier).Sound notifier midCall where
  timed pending := absurd pending (lt_irrefl 0)
  covered _ := .inl rfl
  wakeful _ := Early.wakeful (fun _ _ => by simp [Station.initial]) _

theorem Station.called_sound {midCall : Prop} {l l' : Station N} {call : Call} {wait : Wait}
    (sound : l.Sound notifier midCall) (early : Early wait)
    (h : l.called notifier call wait = some l') : l'.Sound notifier midCall := by
  obtain ⟨state, answered, rfl⟩ := Option.map_eq_some_iff.mp h
  rcases TriggerState.called_cases answered with ⟨rfl, rfl⟩ | ⟨other, same⟩
  · exact ⟨TriggerState.beginFreshLookup_timed _, fun _ => .inr ⟨l.log, rfl⟩,
      fun _ => early.wakeful _⟩
  · have quiet : begun call = [] := by cases call <;> first | rfl | exact absurd rfl other
    refine ⟨same.timed_iff.mpr sound.timed, fun unarmed => ?_, fun _ => early.wakeful _⟩
    rw [quiet]
    exact sound.covered fun armed => unarmed (same.armed_iff.mpr armed)

theorem Station.waited_sound {midCall : Prop} {l : Station N} {moved : Wait × Inner N}
    (sound : l.Sound notifier midCall) (state : moved.2.state = l.trigger.state)
    (wakeful : ¬ midCall → Wakeful notifier moved.1 moved.2) :
    (l.waited moved).Sound notifier midCall where
  timed := by simpa only [Station.waited, state] using sound.timed
  covered := by simpa only [Station.waited, state] using sound.covered
  wakeful := wakeful

theorem Station.updated_sound {before after : Prop} {l : Station N} (now : Nat) (update : Update)
    (sound : l.Sound notifier before) (called : after) :
    (l.updated now update).Sound notifier after := by
  cases update with
  | force =>
    exact ⟨sound.timed, fun unarmed => absurd (TriggerState.force_armed _) unarmed,
      fun calm => absurd called calm⟩
  | recordEvent =>
    exact ⟨TriggerState.recordEvent_timed _ _,
      fun unarmed => absurd (TriggerState.recordEvent_armed _ _) unarmed,
      fun calm => absurd called calm⟩

theorem Station.signalled_sound (documented : notifier.Documented) {target : Target} {now : Nat}
    {before after : Connection} {signal : Signal} {l : Station N}
    (meant : Meant target before after signal) (sound : l.Sound notifier (MidCall target before)) :
    (l.signalled notifier target now signal).Sound notifier (MidCall target after) := by
  cases meant with
  | update update called =>
    rw [signalled, if_pos rfl]
    exact updated_sound now update sound called
  | notify =>
    rw [signalled, if_pos rfl]
    exact ⟨sound.timed, sound.covered, fun _ _ _ _ _ => documented.reaches _⟩
  | other update notify calm =>
    have same : l.signalled notifier target now signal = l := by
      cases signal with
      | quiet => rfl
      | update called kind => exact if_neg fun equal => update kind (by rw [equal])
      | notify called => exact if_neg fun equal => notify (by rw [equal])
    rw [same]
    exact ⟨sound.timed, sound.covered, fun _ => sound.wakeful calm⟩

/-- `unstarted` holds of a poller until its first fresh lookup. -/
structure Loop.Starts (loop : Loop σ ε) (unstarted : σ → Prop) : Prop where
  early : ∀ s, Early (loop.wait s)
  first : ∀ s e t, unstarted s → loop.step s e = some t →
    unstarted t ∨ loop.call s e = .beginFreshLookup

structure Worker.Sound (notifier : Notifier N) (unstarted : σ → Prop) (midCall : Prop)
    (w : Worker σ N) : Prop where
  station : w.station.Sound notifier midCall
  started : unstarted w.poller ∨ .lookupStarted ∈ w.station.log

theorem Worker.step_sound {loop : Loop σ ε} {unstarted : σ → Prop} (starts : loop.Starts unstarted)
    {midCall : Prop} {now : Nat} {w w' : Worker σ N} {e : WorkerEvent ε}
    (sound : w.Sound notifier unstarted midCall) (h : w.step notifier loop now e = some w') :
    w'.Sound notifier unstarted midCall := by
  cases e with
  | poll e =>
    obtain ⟨poller, stepped, rest⟩ := Option.bind_eq_some_iff.mp h
    obtain ⟨station, called, rfl⟩ := Option.map_eq_some_iff.mp rest
    refine ⟨Station.called_sound sound.station (starts.early _) called, ?_⟩
    obtain ⟨state, -, rfl⟩ := Option.map_eq_some_iff.mp called
    rcases sound.started with before | logged
    · rcases starts.first _ _ _ before stepped with still | first
      · exact .inl still
      · exact .inr (by simp [first, begun])
    · exact .inr (List.mem_append_right _ logged)
  | proceed =>
    obtain ⟨moved, waited, rfl⟩ := Option.map_eq_some_iff.mp h
    refine ⟨Station.waited_sound sound.station (proceed_state notifier waited) fun calm => ?_,
      sound.started⟩
    exact proceed_wakeful notifier sound.station.timed (sound.station.wakeful calm) waited
  | expire =>
    obtain ⟨moved, waited, rfl⟩ := Option.map_eq_some_iff.mp h
    have facts := expire_wakeful notifier waited
    exact ⟨Station.waited_sound sound.station facts.1 fun _ => facts.2, sound.started⟩

theorem Worker.signalled_sound (documented : notifier.Documented) {unstarted : σ → Prop}
    {target : Target} {now : Nat} {before after : Connection} {signal : Signal} {w : Worker σ N}
    (meant : Meant target before after signal)
    (sound : w.Sound notifier unstarted (MidCall target before)) :
    Worker.Sound notifier unstarted (MidCall target after)
      { w with station := w.station.signalled notifier target now signal } := by
  refine ⟨Station.signalled_sound documented meant sound.station, ?_⟩
  rcases sound.started with before | logged
  · exact .inl before
  · right
    cases signal with
    | quiet => exact logged
    | update called update =>
      simp only [Station.signalled]
      split
      · cases update <;> exact List.mem_cons_of_mem _ logged
      · exact logged
    | notify called =>
      simp only [Station.signalled]
      split <;> exact logged

/-- Until its first lookup the transaction poller is on its way to a fresh one. -/
def transactionUnstarted (s : TransactionPoller.State) : Prop :=
  s.cursor = none ∧ (s.phase = .loopHead ∧ s.fetchNow = true ∨ s.phase = .ready)

def walletUnstarted (s : WalletPoller.State) : Prop :=
  s.cursor = none ∧ (s.phase = .loopHead ∧ s.fetchNow = true ∨ s.phase = .ready)

theorem transactionLoop_starts : transactionLoop.Starts transactionUnstarted := by
  constructor
  · intro s
    simp only [transactionLoop]
    split <;> exact fun _ _ => nofun
  · rintro s e t ⟨cursor, at_⟩ h
    obtain ⟨⟨u, seen⟩, stepped, rfl⟩ := Option.map_eq_some_iff.mp h
    cases TransactionPoller.step_cases stepped with
    | go phase fetch => exact .inl ⟨cursor, .inr rfl⟩
    | begin phase => exact .inr (by simp [transactionLoop, transactionCall, cursor])
    | gone phase => rcases phase with ⟨_, phase⟩ | ⟨_, phase⟩ <;> simp [phase] at at_
    | _ => simp_all

theorem walletLoop_starts : walletLoop.Starts walletUnstarted := by
  constructor
  · intro s
    simp only [walletLoop]
    split <;> exact fun _ _ => nofun
  · rintro s e t ⟨cursor, at_⟩ h
    obtain ⟨⟨u, seen⟩, stepped, rfl⟩ := Option.map_eq_some_iff.mp h
    cases WalletPoller.step_cases stepped with
    | go phase fetch => exact .inl ⟨cursor, .inr rfl⟩
    | begin phase => exact .inr (by simp [walletLoop, walletCall, cursor])
    | _ => simp_all

structure System.Sound (notifier : Notifier N) (s : System N) : Prop where
  transactions : s.transactions.Sound notifier transactionUnstarted
    (MidCall .transaction s.connection)
  wallets : s.wallets.Sound notifier walletUnstarted (MidCall .wallet s.connection)

theorem initial_sound (now : Nat) : (initial notifier now).Sound notifier :=
  ⟨⟨Station.initial_sound _, .inl ⟨rfl, .inl ⟨rfl, rfl⟩⟩⟩,
    ⟨Station.initial_sound _, .inl ⟨rfl, .inl ⟨rfl, rfl⟩⟩⟩⟩

theorem step_sound (documented : notifier.Documented) {s s' : System N} {a : Action}
    (sound : s.Sound notifier) (h : step notifier s a = some s') : s'.Sound notifier := by
  cases a with
  | pass time =>
    cases h
    exact ⟨sound.transactions, sound.wallets⟩
  | connection e =>
    obtain ⟨⟨connection, signal⟩, stepped, rfl⟩ := Option.map_eq_some_iff.mp h
    exact ⟨Worker.signalled_sound documented (step_meant stepped) sound.transactions,
      Worker.signalled_sound documented (step_meant stepped) sound.wallets⟩
  | transactions e =>
    obtain ⟨transactions, stepped, rfl⟩ := Option.map_eq_some_iff.mp h
    exact ⟨Worker.step_sound transactionLoop_starts sound.transactions stepped, sound.wallets⟩
  | wallets e =>
    obtain ⟨wallets, stepped, rfl⟩ := Option.map_eq_some_iff.mp h
    exact ⟨sound.transactions, Worker.step_sound walletLoop_starts sound.wallets stepped⟩

theorem Station.Sound.not_asleep (documented : notifier.Documented) {midCall : Prop} {l : Station N}
    (sound : l.Sound notifier midCall) (armed : l.trigger.state.Armed) (calm : ¬ midCall) :
    ¬ l.Asleep notifier := by
  rintro ⟨awaits, waiting, permit⟩
  have completes := sound.wakeful calm .untilReady none awaits armed.due
  rw [documented.sleeps _ waiting permit] at completes
  cases completes

theorem Worker.Sound.covered {unstarted : σ → Prop} {midCall : Prop} {w : Worker σ N}
    (sound : w.Sound notifier unstarted midCall) (started : ¬ unstarted w.poller)
    (unarmed : ¬ w.station.trigger.state.Armed) : Covered w.station.log := by
  have logged := sound.started.resolve_left started
  rcases sound.station.covered unarmed with empty | covered
  · simp [empty] at logged
  · exact covered

/-- In every run, for both workers: while the poller is in its idle wait and its
trigger unarmed, nothing reached the trigger since the last fresh lookup began;
and an armed trigger, outside the calls on it, has no `wait_until_ready` asleep. -/
theorem notifications_not_lost (documented : notifier.Documented) (now : Nat)
    (actions : List Action) (s : System N)
    (path : Path (ofFn (step notifier)) (initial notifier now) actions s) (target : Target) :
    (s.Idle target → ¬ (s.station target).trigger.state.Armed → Covered (s.station target).log) ∧
      ((s.station target).trigger.state.Armed → ¬ MidCall target s.connection →
        ¬ (s.station target).Asleep notifier) := by
  have sound : s.Sound notifier :=
    path.invariant (fun _ _ _ inv stepped => step_sound documented inv stepped) (initial_sound now)
  cases target with
  | transaction =>
    refine ⟨fun idle => sound.transactions.covered ?_,
      sound.transactions.station.not_asleep documented⟩
    rintro ⟨-, ⟨phase, -⟩ | phase⟩ <;> exact absurd (idle.symm.trans phase) nofun
  | wallet =>
    refine ⟨fun idle => sound.wallets.covered ?_, sound.wallets.station.not_asleep documented⟩
    rintro ⟨-, ⟨phase, -⟩ | phase⟩ <;> exact absurd (idle.symm.trans phase) nofun

end Invariant

section Reconnect

def emptyLookup : List Action :=
  [.transactions (.poll .begin), .transactions (.poll (.reply (Platform.answers none) false)),
    .transactions (.poll .start), .transactions .proceed, .transactions .proceed]

def subscription : List Action :=
  [.connection .connected, .connection (.frame (some ⟨"pusher:connection_established", none⟩)),
    .connection (.authenticated "c"),
    .connection (.frame (some ⟨"pusher_internal:subscription_succeeded", some "c"⟩)),
    .connection .goOn, .connection .goOn, .connection .goOn, .connection .goOn,
    .connection (.frame (some ⟨"TransactionCreated", some "c"⟩)), .connection .goOn]

/-- The sleeping poller is woken by the subscription, and is idle again after
its lookup. -/
theorem notifications_not_lost_reconnect :
    ∃ s, Path (ofFn (step slot)) (initial slot 0)
        ([.transactions (.poll .start)] ++ emptyLookup ++ subscription ++
          [.transactions .proceed, .transactions .proceed, .transactions (.poll .wake)] ++
          emptyLookup) s ∧
      s.Idle .transaction ∧ (s.station .transaction).log =
        [.lookupStarted, .notified, .resubscribed, .lookupStarted] ∧
      (s.Idle .transaction → ¬ (s.station .transaction).trigger.state.Armed →
        Covered (s.station .transaction).log) ∧
      ((s.station .transaction).trigger.state.Armed → ¬ MidCall .transaction s.connection →
        ¬ (s.station .transaction).Asleep slot) := by
  have path : Path (ofFn (step slot)) (initial slot 0)
      ([.transactions (.poll .start)] ++ emptyLookup ++ subscription ++
        [.transactions .proceed, .transactions .proceed, .transactions (.poll .wake)] ++
        emptyLookup) _ := Path.of_run rfl
  exact ⟨_, path, rfl, rfl, notifications_not_lost slot_documented 0 _ _ path .transaction⟩

end Reconnect

end WalletDaemon.Notifications
