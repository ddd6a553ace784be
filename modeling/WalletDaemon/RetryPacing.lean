import WalletDaemon.FallbackPoll
import WalletDaemon.Notifications

/-! The wait after a failure, in time: a sleep, the fallback poll and the wait for
a new event race, and the first to end begins the next lookup. -/

namespace WalletDaemon.RetryPacing

open Notify PusherConnection Retry ScanLoop Transition WorkTrigger

section Shown

variable {Q O I : Type}

/-- A failed lookup, a rejected batch, or a scan that owes a retry. -/
def Fails (rejected : O → Bool) : Obs Q O I → Bool
  | .failed => true
  | .outcome result => rejected result
  | .backoffWait _ => true
  | _ => false

/-- The failures that the wait entered last is for. -/
def attempt : Trace Q O I → Option Nat
  | .backoffWait attempt :: _ => some attempt
  | _ => none

def looksUp : Trace Q O I → Bool
  | .lookup _ :: _ => true
  | _ => false

/-- A step with a failure in it enters the wait, and so does no other. -/
def Enters (rejected : O → Bool) (wait : Wait) (os : Trace Q O I) : Prop :=
  (∃ attempt earlier, os = .backoffWait attempt :: earlier) ∧ wait = waitForNewEvent ∨
    ∀ o ∈ os, Fails rejected o = false

variable {rejected : O → Bool} {wait : Wait} {os : Trace Q O I}

theorem Enters.of_attempt (enters : Enters rejected wait os) {count : Nat}
    (h : attempt os = some count) : wait = waitForNewEvent := by
  rcases enters with ⟨-, same⟩ | calm
  · exact same
  · cases os with
    | nil => cases h
    | cons o earlier =>
      have quiet := calm o (by simp)
      cases o with
      | backoffWait count => cases quiet
      | _ => cases h

theorem Enters.attempt_of_fails (enters : Enters rejected wait os) {o : Obs Q O I}
    (member : o ∈ os) (fails : Fails rejected o = true) : ∃ count, attempt os = some count := by
  rcases enters with ⟨⟨count, earlier, rfl⟩, -⟩ | calm
  · exact ⟨count, rfl⟩
  · rw [calm o member] at fails
    cases fails

end Shown

/-- A poller: its steps and what they show, what each calls on the trigger, and
the wait a state is in. -/
structure Poller (σ ε Q O I : Type) where
  step : σ → ε → Option (σ × Trace Q O I)
  call : σ → ε → Call
  wait : σ → Wait
  rejected : O → Bool

def transactionPoller : Poller TransactionPoller.State TransactionPoller.Event TransactionRequest
    BatchOutcome (Finset ChainKey) where
  step := TransactionPoller.step
  call := Notifications.transactionCall
  wait := Notifications.transactionLoop.wait
  rejected outcome := outcome = .submissionFailed

def walletPoller : Poller WalletPoller.State WalletPoller.Event WalletPoller.DeriveWalletRequest
    WalletPoller.BatchOutcome Unit where
  step := WalletPoller.step
  call := Notifications.walletCall
  wait := Notifications.walletLoop.wait
  rejected outcome := outcome = .submissionFailed

def Poller.Entered {σ ε Q O I : Type} (poller : Poller σ ε Q O I) (result : σ × Trace Q O I) :
    Prop :=
  Enters poller.rejected (poller.wait result.1) result.2

section Transactions

open TransactionPoller

variable {s : State} {seen : List Shown}

theorem entered_backoff (s : State) (seen : List Shown) : transactionPoller.Entered (backoff s seen) :=
  .inl ⟨⟨_, _, rfl⟩, rfl⟩

theorem entered_finishScanRetry (calm : ∀ o ∈ seen, Fails transactionPoller.rejected o = false)
    (deferred : Bool) : transactionPoller.Entered (finishScanRetry s deferred seen) := by
  unfold finishScanRetry
  split
  · exact entered_backoff s seen
  · exact .inr calm

theorem entered_endScan {o : Shown} (calm : Fails transactionPoller.rejected o = false)
    (fresh deferred : Bool) : transactionPoller.Entered (endScan s fresh deferred o) := by
  unfold endScan
  dsimp only
  split
  · exact entered_finishScanRetry (by simpa using calm) _
  · exact .inr (List.forall_mem_cons.mpr ⟨rfl, by simpa using calm⟩)

theorem entered_onPage (fresh deferred : Bool) (requests : List TransactionRequest)
    (nextCursor : Option String) :
    transactionPoller.Entered (onPage s fresh deferred requests nextCursor (.page requests nextCursor)) := by
  unfold onPage
  split
  · split
    · exact .inr (by simp [Fails])
    · exact entered_endScan rfl fresh deferred
  · dsimp only
    split
    · exact .inr (by simp [Fails])
    · exact .inr (by simp [Fails])

theorem entered_onReply (fresh deferred : Bool) (send : Platform.Send (Option PendingPage)) :
    transactionPoller.Entered (onReply s fresh deferred send) := by
  unfold onReply
  cases replyKind send with
  | failed e result other seen =>
    rw [result]
    simp only [onError, other, if_false]
    exact entered_backoff _ _
  | noResult result seen =>
    rw [result, seen]
    exact entered_endScan rfl fresh deferred
  | noRows nextCursor result seen hidden =>
    rw [result, seen]
    exact entered_endScan rfl fresh deferred
  | rows requests nextCursor result seen =>
    rw [result, seen]
    exact entered_onPage fresh deferred requests nextCursor

theorem entered_onOutcome (nextCursor : Option String) (deferred : Bool) (outcome : BatchOutcome) :
    transactionPoller.Entered (onOutcome s nextCursor deferred outcome) := by
  unfold onOutcome
  cases step : batchStep outcome s.cursor nextCursor s.unproductivePages with
  | retryFresh => exact entered_backoff _ _
  | «continue» cursor madeProgress requiresFreshRetry =>
    have calm : Fails transactionPoller.rejected (.outcome outcome : Shown) = false := by
      cases outcome with
      | submissionFailed => cases step
      | _ => rfl
    dsimp only
    split
    · exact entered_finishScanRetry (by simpa using calm) deferred
    · exact .inr (by simpa using calm)

theorem transactionPoller_enters {e : Event} {result : State × List Shown}
    (h : transactionPoller.step s e = some result) : transactionPoller.Entered result := by
  cases step_cases h with
  | go _ _ => exact .inr nofun
  | park _ _ => exact .inr (by simp [Fails])
  | wake _ => exact .inr nofun
  | begin _ => exact .inr (by simp [Fails])
  | reply send deferred fresh _ same => exact same ▸ entered_onReply fresh deferred send
  | ack outcome deferred nextCursor _ same =>
    exact same ▸ entered_onOutcome nextCursor deferred outcome
  | idleAck outcome deferred fresh _ same => exact same ▸ entered_finishScanRetry (by simp) _
  | gone _ => exact .inr nofun
  | resume _ => exact .inr nofun

end Transactions

section Wallets

open WalletPoller

variable {s : State} {seen : List Shown}

theorem entered_applyStep {next : WalletStep}
    (calm : (∃ cursor restart reset fetch, next = .continue cursor restart reset fetch) →
      ∀ o ∈ seen, Fails walletPoller.rejected o = false) :
    walletPoller.Entered (applyStep s next seen) := by
  cases next with
  | «continue» cursor restart reset fetch => exact .inr (calm ⟨_, _, _, _, rfl⟩)
  | delayThenFetch cursor restart reason => exact .inl ⟨⟨_, _, rfl⟩, rfl⟩

theorem walletEntered_onPage {o : Shown} (calm : Fails walletPoller.rejected o = false)
    (fresh deferred : Bool) (requests : List DeriveWalletRequest) (nextCursor : Option String) :
    walletPoller.Entered (onPage s fresh deferred requests nextCursor o) := by
  unfold onPage
  split
  · split
    · exact .inr (by simpa using calm)
    · exact entered_applyStep fun _ => by simpa using calm
  · exact .inr (List.forall_mem_cons.mpr ⟨rfl, by simpa using calm⟩)

theorem walletPoller_enters {e : Event} {result : State × List Shown}
    (h : walletPoller.step s e = some result) : walletPoller.Entered result := by
  cases step_cases h with
  | go _ _ => exact .inr nofun
  | park _ _ => exact .inr (by simp [Fails])
  | wake _ => exact .inr nofun
  | begin _ => exact .inr (by simp [Fails])
  | reply send deferred fresh _ same =>
    rw [← same]
    unfold onReply getPendingWallets shown
    cases Platform.executeQuery send none with
    | error e => exact entered_applyStep nofun
    | ok data =>
      cases data with
      | none => exact walletEntered_onPage rfl _ _ _ _
      | some page => exact walletEntered_onPage rfl _ _ _ _
  | ack outcome deferred nextCursor _ same =>
    rw [← same]
    refine entered_applyStep fun goes => ?_
    cases outcome with
    | completed => simp [Fails, walletPoller]
    | submissionFailed =>
      obtain ⟨_, _, _, _, same⟩ := goes
      cases same
  | gone _ _ => exact .inr nofun
  | resume _ => exact .inr nofun

end Wallets

section Race

open FallbackPoll (PusherAwarePoller Move Moved pollInterval step_moved)

variable {N σ ε Q O I : Type} (notifier : Notifier N) (poller : Poller σ ε Q O I)

/-- The last failure: when it was, the delay that it calls for, and the poll
interval at that time. -/
structure Failure where
  since : Nat
  delay : Nat
  interval : Nat

def Failure.due (f : Failure) : Nat := f.since + min f.delay f.interval

/-- A poller with what it waits for: the end of its sleep, the tick of its fallback
poll and the wait on its trigger. `ticked` says that the tick has returned. The
last failure is kept until a lookup starts; `news` says that an event, a force or
a status change came after it. -/
structure Paced (σ N : Type) where
  now : Nat
  poller : σ
  fallback : PusherAwarePoller
  trigger : Inner N
  wait : Wait
  timer : Option Nat
  ticked : Bool
  failure : Option Failure
  news : Bool

/-- An update of the trigger and its notification are two steps. -/
inductive Action (ε : Type)
  | poll (e : ε) (jitterPercent : Nat)
  | tick (m : Move)
  | proceed
  | expire
  | setConnected (connected : Bool)
  | update (u : Update)
  | notify
  | pass (time : Nat)

def Paced.ended (w : Paced σ N) : Bool :=
  w.timer.any (· ≤ w.now) || w.ticked || w.wait = .done

def Paced.polled (w : Paced σ N) (jitterPercent : Nat) (next : σ × Trace Q O I)
    (state : TriggerState) : Paced σ N :=
  let wait := poller.wait next.1
  let delay := (attempt next.2).map (jitteredExponentialDelay jitterPercent)
  { now := w.now
    poller := next.1
    fallback := { w.fallback with tick := if wait = .absent then .idle else .check }
    trigger := { abandon notifier w.trigger w.wait with state }
    wait
    timer := delay.map (w.now + ·)
    ticked := false
    failure := match delay with
      | some delay => some ⟨w.now, delay, pollInterval w.fallback.status.connected⟩
      | none => if looksUp next.2 then none else w.failure
    news := if delay.isSome then false else w.news }

def updated (t : TriggerState) (now : Nat) : Update → TriggerState
  | .force => t.force
  | .recordEvent => t.recordEvent now

/-- A poller that waits goes on once a branch is over. -/
def Paced.step (w : Paced σ N) : Action ε → Option (Paced σ N)
  | .poll e jitterPercent =>
    if poller.wait w.poller ≠ .absent ∧ w.ended = false then none
    else (poller.step w.poller e).bind fun next =>
      (w.trigger.state.called (poller.call w.poller e)).map fun state =>
        w.polled notifier poller jitterPercent next state
  | .tick m =>
    if m = .call ∨ m = .cancel then none
    else (w.fallback.step w.now m).map fun fallback =>
      { w with fallback, ticked := w.ticked || m = .fire }
  | .proceed => (proceed notifier w.now w.trigger w.wait).map fun moved =>
      { w with wait := moved.1, trigger := moved.2 }
  | .expire => (expire notifier w.now w.trigger w.wait).map fun moved =>
      { w with wait := moved.1, trigger := moved.2 }
  | .setConnected connected =>
    some { w with
      fallback := { w.fallback with status := w.fallback.status.setConnected connected }
      news := w.news || w.fallback.status.connected != connected }
  | .update u =>
    some { w with
      trigger := { w.trigger with state := updated w.trigger.state w.now u }
      news := true }
  | .notify =>
    some { w with trigger := { w.trigger with notify := notifier.notifyOne w.trigger.notify } }
  | .pass time => some { w with now := w.now + time }

def Paced.start (s : σ) (now : Nat) (connected : Bool) : Paced σ N where
  now
  poller := s
  fallback := .new now connected
  trigger := ⟨TriggerState.initial, notifier.new⟩
  wait := .absent
  timer := none
  ticked := false
  failure := none
  news := false

/-- A wait is entered with an unseen status, or with a fallback poll that is not due
before its delay and its interval are over. -/
def PollLater (w : Paced σ N) : Action ε → Prop
  | .poll e jitterPercent => ∀ next count, poller.step w.poller e = some next →
      attempt next.2 = some count → w.fallback.status.unseen = true ∨
        w.now + min (jitteredExponentialDelay jitterPercent count)
          (pollInterval w.fallback.status.connected) ≤ w.fallback.deadline
  | _ => True

/-- A step with a failure in it is followed by a wait, and the next lookup starts
when the delay or the interval is over, unless there is news. -/
def Honoured (w : Paced σ N) : Prop :=
  ∀ e jitterPercent next w', poller.step w.poller e = some next →
    w.step notifier poller (.poll e jitterPercent) = some w' →
    ((∃ o ∈ next.2, Fails poller.rejected o = true) →
      ∃ count, w'.failure = some ⟨w.now, jitteredExponentialDelay jitterPercent count,
        pollInterval w.fallback.status.connected⟩ ∧ w'.news = false) ∧
    (looksUp next.2 = true → ∀ f, w.failure = some f → w.news = true ∨ f.due ≤ w.now)

def Unmoved (wait : Wait) (t : TriggerState) : Prop :=
  wait = .baseline ∨ ∃ baselineForced, (t.forced = true → baselineForced = true) ∧
    (wait = .check (.newEvent t.eventGeneration baselineForced) ∨
      wait = .await (.newEvent t.eventGeneration baselineForced) none)

/-- The tick has to restart its timer first, or cannot return before the time. -/
def Later (p : PusherAwarePoller) (due : Nat) : Prop :=
  p.tick = .check ∧ p.status.unseen = true ∨ p.status.unseen = false ∧ due ≤ p.deadline

structure Pending (w : Paced σ N) (f : Failure) : Prop where
  waits : poller.wait w.poller ≠ .absent
  timer : w.timer = some (f.since + f.delay)
  ticked : w.ticked = false
  unmoved : Unmoved w.wait w.trigger.state
  interval : f.interval = pollInterval w.fallback.status.connected
  later : Later w.fallback f.due

def Kept (w : Paced σ N) : Prop :=
  ∀ f, w.failure = some f →
    f.since ≤ w.now ∧ (w.news = true ∨ f.due ≤ w.now ∨ Pending poller w f)

variable {notifier poller} {w w' : Paced σ N} {f : Failure}

theorem Unmoved.proceed {now : Nat} {trigger trigger' : Inner N} {wait wait' : Wait}
    (h : Unmoved wait trigger.state)
    (moved : WorkTrigger.proceed notifier now trigger wait = some (wait', trigger')) :
    Unmoved wait' trigger'.state := by
  rw [proceed_state notifier moved]
  rcases h with rfl | ⟨forced, kept, rfl | rfl⟩
  · cases moved
    exact .inr ⟨_, id, .inl rfl⟩
  · have unsatisfied : WaitKind.satisfied (.newEvent trigger.state.eventGeneration forced) now
        trigger.state = false := by
      cases forced with
      | true => simp [WaitKind.satisfied]
      | false => simpa [WaitKind.satisfied] using kept
    simp only [WorkTrigger.proceed, unsatisfied, Bool.false_eq_true, if_false] at moved
    cases moved
    exact .inr ⟨forced, kept, .inr rfl⟩
  · cases moved
    split
    · exact .inr ⟨forced, kept, .inl rfl⟩
    · exact .inr ⟨forced, kept, .inr rfl⟩

theorem Unmoved.not_expire {now : Nat} {trigger : Inner N} {wait : Wait}
    (h : Unmoved wait trigger.state) : expire notifier now trigger wait = none := by
  rcases h with rfl | ⟨forced, kept, rfl | rfl⟩ <;> rfl

theorem Unmoved.not_done {t : TriggerState} {wait : Wait} (h : Unmoved wait t) : wait ≠ .done := by
  rcases h with rfl | ⟨forced, kept, rfl | rfl⟩ <;> nofun

theorem Later.moved {p p' : PusherAwarePoller} {now : Nat} {m : Move} (h : Later p f.due)
    (since : f.since ≤ now) (interval : f.interval = pollInterval p.status.connected)
    (moved : Moved p now m p') (called : m ≠ .call) (kept : m ≠ .cancel) :
    p'.status.connected = p.status.connected ∧
      (f.due ≤ now ∨ m ≠ .fire ∧ Later p' f.due) := by
  cases moved with
  | call _ => exact absurd rfl called
  | checkSeen at_ seen =>
    refine ⟨rfl, .inr ⟨nofun, .inr ⟨seen, ?_⟩⟩⟩
    rcases h with ⟨-, unseen⟩ | ⟨-, ahead⟩
    · rw [seen] at unseen
      cases unseen
    · exact ahead
  | checkUnseen at_ unseen =>
    refine ⟨rfl, .inr ⟨nofun, .inr ⟨rfl, ?_⟩⟩⟩
    have restarted : f.due ≤ now + pollInterval p.status.connected := by
      unfold Failure.due
      omega
    exact restarted
  | fire at_ due =>
    refine ⟨rfl, .inl ?_⟩
    rcases h with ⟨checks, -⟩ | ⟨-, ahead⟩
    · rw [at_] at checks
      cases checks
    · exact ahead.trans due
  | changed at_ unseen =>
    rcases h with ⟨checks, -⟩ | ⟨seen, -⟩
    · rw [at_] at checks
      cases checks
    · rw [unseen] at seen
      cases seen
  | cancel _ => exact absurd rfl kept

theorem Pending.due_of_ended (h : Pending poller w f) (ended : w.ended = true) : f.due ≤ w.now := by
  have slept : f.since + f.delay ≤ w.now := by
    simpa [Paced.ended, h.timer, h.ticked, h.unmoved.not_done] using ended
  unfold Failure.due
  omega

theorem pollLater_of {e : ε} {jitterPercent : Nat} {next : σ × Trace Q O I}
    (taken : poller.step w.poller e = some next)
    (later : (attempt next.2).all (fun count => w.fallback.status.unseen ||
      w.now + min (jitteredExponentialDelay jitterPercent count)
        (pollInterval w.fallback.status.connected) ≤ w.fallback.deadline) = true) :
    PollLater poller w (.poll e jitterPercent) := by
  intro other count step counted
  obtain rfl := Option.some.inj (taken.symm.trans step)
  simpa [counted] using later

theorem polled_of_step {e : ε} {jitterPercent : Nat} {next : σ × Trace Q O I}
    (taken : poller.step w.poller e = some next)
    (stepped : w.step notifier poller (.poll e jitterPercent) = some w') :
    (poller.wait w.poller ≠ .absent → w.ended = true) ∧
      ∃ state, w' = w.polled notifier poller jitterPercent next state := by
  unfold Paced.step at stepped
  dsimp only at stepped
  split at stepped
  · cases stepped
  · rename_i free
    rw [taken, Option.bind_some] at stepped
    obtain ⟨state, -, rfl⟩ := Option.map_eq_some_iff.mp stepped
    refine ⟨fun waits => ?_, state, rfl⟩
    by_contra pending
    exact free ⟨waits, by simpa using pending⟩

theorem Kept.settled (kept : Kept poller w) (free : poller.wait w.poller ≠ .absent → w.ended = true)
    (failed : w.failure = some f) : w.news = true ∨ f.due ≤ w.now := by
  rcases (kept f failed).2 with news | due | pending
  · exact .inl news
  · exact .inr due
  · exact .inr (pending.due_of_ended (free pending.waits))

theorem polled_kept {e : ε} {jitterPercent : Nat} {next : σ × Trace Q O I}
    (enters : poller.Entered next) (kept : Kept poller w)
    (taken : poller.step w.poller e = some next)
    (free : poller.wait w.poller ≠ .absent → w.ended = true)
    (later : PollLater poller w (.poll e jitterPercent)) (state : TriggerState) :
    Kept poller (w.polled notifier poller jitterPercent next state) := by
  intro f failed
  cases counted : attempt next.2 with
  | some count =>
    have waits : poller.wait next.1 = .baseline := enters.of_attempt counted
    obtain rfl : (⟨w.now, jitteredExponentialDelay jitterPercent count,
        pollInterval w.fallback.status.connected⟩ : Failure) = f := by
      simpa [Paced.polled, counted] using failed
    refine ⟨Nat.le_refl _, .inr (.inr ⟨?_, ?_, rfl, .inl waits, rfl, ?_⟩)⟩
    · simp [Paced.polled, waits]
    · simp [Paced.polled, counted]
    · rcases later next count taken counted with unseen | ahead
      · exact .inl ⟨by simp [Paced.polled, waits], unseen⟩
      · by_cases unseen : w.fallback.status.unseen = true
        · exact .inl ⟨by simp [Paced.polled, waits], unseen⟩
        · have seen : w.fallback.status.unseen = false := by simpa using unseen
          exact .inr ⟨seen, ahead⟩
  | none =>
    have before : w.failure = some f := by
      simp only [Paced.polled, counted, Option.map_none] at failed
      split at failed
      · cases failed
      · exact failed
    have news : (w.polled notifier poller jitterPercent next state).news = w.news := by
      simp [Paced.polled, counted]
    refine ⟨(kept f before).1, ?_⟩
    rcases kept.settled free before with told | due
    · exact .inl (news.trans told)
    · exact .inr (.inl due)

theorem tick_kept (kept : Kept poller w) {m : Move}
    (stepped : w.step notifier poller (.tick m) = some w') : Kept poller w' := by
  simp only [Paced.step] at stepped
  split at stepped
  · cases stepped
  · rename_i inner
    rw [not_or] at inner
    obtain ⟨fallback, ticked, rfl⟩ := Option.map_eq_some_iff.mp stepped
    intro f failed
    obtain ⟨since, news | due | pending⟩ := kept f failed
    · exact ⟨since, .inl news⟩
    · exact ⟨since, .inr (.inl due)⟩
    · obtain ⟨same, due | ⟨other, later⟩⟩ := pending.later.moved since pending.interval
        (step_moved ticked) inner.1 inner.2
      · exact ⟨since, .inr (.inl due)⟩
      · refine ⟨since, .inr (.inr ⟨pending.waits, pending.timer, ?_, pending.unmoved, ?_, later⟩)⟩
        · simp [pending.ticked, other]
        · rw [pending.interval, same]

theorem proceed_kept (kept : Kept poller w) {wait : Wait} {trigger : Inner N}
    (unmoved : Unmoved w.wait w.trigger.state → Unmoved wait trigger.state) :
    Kept poller { w with wait, trigger } := by
  intro f failed
  obtain ⟨since, news | due | pending⟩ := kept f failed
  · exact ⟨since, .inl news⟩
  · exact ⟨since, .inr (.inl due)⟩
  · exact ⟨since, .inr (.inr ⟨pending.waits, pending.timer, pending.ticked,
      unmoved pending.unmoved, pending.interval, pending.later⟩)⟩

theorem setConnected_kept (kept : Kept poller w) (connected : Bool) :
    Kept poller { w with
      fallback := { w.fallback with status := w.fallback.status.setConnected connected }
      news := w.news || w.fallback.status.connected != connected } := by
  intro f failed
  obtain ⟨since, news | due | pending⟩ := kept f failed
  · exact ⟨since, .inl (by simp [news])⟩
  · exact ⟨since, .inr (.inl due)⟩
  · by_cases same : w.fallback.status.connected = connected
    · have status : w.fallback.status.setConnected connected = w.fallback.status :=
        if_pos same
      rw [status]
      exact ⟨since, .inr (.inr ⟨pending.waits, pending.timer, pending.ticked, pending.unmoved,
        pending.interval, pending.later⟩)⟩
    · exact ⟨since, .inl (by simp [same])⟩

theorem step_kept {a : Action ε} (enters : ∀ s e next, poller.step s e = some next →
    poller.Entered next) (kept : Kept poller w) (later : PollLater poller w a)
    (stepped : w.step notifier poller a = some w') : Kept poller w' := by
  cases a with
  | poll e jitterPercent =>
    cases taken : poller.step w.poller e with
    | none =>
      simp only [Paced.step, taken] at stepped
      split at stepped <;> cases stepped
    | some next =>
      obtain ⟨free, state, rfl⟩ := polled_of_step taken stepped
      exact polled_kept (enters _ _ _ taken) kept taken free later state
  | tick m => exact tick_kept kept stepped
  | proceed =>
    obtain ⟨moved, proceeded, rfl⟩ := Option.map_eq_some_iff.mp stepped
    exact proceed_kept kept fun unmoved => unmoved.proceed proceeded
  | expire =>
    obtain ⟨moved, expired, rfl⟩ := Option.map_eq_some_iff.mp stepped
    refine proceed_kept kept fun unmoved => ?_
    rw [unmoved.not_expire] at expired
    cases expired
  | setConnected connected =>
    cases stepped
    exact setConnected_kept kept connected
  | update u =>
    cases stepped
    exact fun f failed => ⟨(kept f failed).1, .inl rfl⟩
  | notify =>
    cases stepped
    exact proceed_kept kept id
  | pass time =>
    cases stepped
    intro f failed
    obtain ⟨since, news | due | pending⟩ := kept f failed
    · exact ⟨since.trans (Nat.le_add_right _ _), .inl news⟩
    · exact ⟨since.trans (Nat.le_add_right _ _), .inr (.inl (due.trans (Nat.le_add_right _ _)))⟩
    · exact ⟨since.trans (Nat.le_add_right _ _), .inr (.inr ⟨pending.waits, pending.timer,
        pending.ticked, pending.unmoved, pending.interval, pending.later⟩)⟩

/-- Where waits are entered with the poll due late enough, every failure is honoured. -/
theorem honoured_of_path (enters : ∀ s e next, poller.step s e = some next →
    poller.Entered next) {s : σ} {start : Nat} {connected : Bool} {es : List (Action ε)}
    (path : Path (gated (PollLater poller) (ofFn (Paced.step notifier poller)))
      (.start notifier s start connected) es w) : Honoured notifier poller w := by
  have kept : Kept poller w := by
    refine path.invariant (fun v a u before step => ?_) nofun
    exact step_kept enters before step.1 step.2
  intro e jitterPercent next w' taken stepped
  obtain ⟨free, state, rfl⟩ := polled_of_step taken stepped
  refine ⟨?_, fun _ f failed => kept.settled free failed⟩
  rintro ⟨o, member, fails⟩
  obtain ⟨count, counted⟩ := (enters _ _ _ taken).attempt_of_fails member fails
  exact ⟨count, by simp [Paced.polled, counted], by simp [Paced.polled, counted]⟩

end Race

/-- In every run in which no wait begins with the fallback poll due before its delay
and its interval are over, both pollers honour every failure. -/
theorem delays_honoured {N : Type} (notifier : Notifier N) {start : Nat} {connected : Bool}
    {es : List (Action TransactionPoller.Event)} {fs : List (Action WalletPoller.Event)}
    {reached : Paced TransactionPoller.State N} {walletReached : Paced WalletPoller.State N}
    (path : Path (gated (PollLater transactionPoller) (ofFn (Paced.step notifier transactionPoller)))
      (.start notifier TransactionPoller.initial start connected) es reached)
    (walletPath : Path (gated (PollLater walletPoller) (ofFn (Paced.step notifier walletPoller)))
      (.start notifier WalletPoller.initial start connected) fs walletReached) :
    Honoured notifier transactionPoller reached ∧ Honoured notifier walletPoller walletReached :=
  ⟨honoured_of_path (fun _ _ _ h => transactionPoller_enters h) path,
    honoured_of_path (fun _ _ _ h => walletPoller_enters h) walletPath⟩

section Runs

open TransactionPoller (initial zeroRow)
open Platform

def rejectedAfter (time : Nat) : List (Action TransactionPoller.Event) :=
  [.poll .start 100, .poll .begin 100, .poll (.reply (answers (some ⟨[zeroRow "a" .matrix], none⟩))
    false) 100, .pass time, .poll (.ack .submissionFailed false) 100, .tick .check]

def walletRejectedAfter (time : Nat) : List (Action WalletPoller.Event) :=
  [.poll .start 100, .poll .begin 100, .poll (.reply (answers (some ⟨[⟨some "a"⟩], none⟩))
    false) 100, .pass time, .poll (.ack .submissionFailed false) 100, .tick .check]

/-- After one second the poll is due later than the wait: the next lookup starts
when the delay of one second is over. -/
theorem delays_honoured_second :
    (∃ w, Path (gated (PollLater transactionPoller) (ofFn (Paced.step slot transactionPoller)))
        (.start slot initial 0 false)
        (rejectedAfter 1000 ++ [.pass 1000, .poll .delayOver 100, .poll .start 100]) w ∧
      w.failure = some ⟨1000, 1000, 6000⟩ ∧ Honoured slot transactionPoller w) ∧
    ∃ w, Path (gated (PollLater walletPoller) (ofFn (Paced.step slot walletPoller)))
        (.start slot WalletPoller.initial 0 false)
        (walletRejectedAfter 1000 ++ [.pass 1000, .poll .delayOver 100, .poll .start 100]) w ∧
      w.failure = some ⟨1000, 1000, 6000⟩ ∧ Honoured slot walletPoller w := by
  have path : Path (gated (PollLater transactionPoller)
      (ofFn (Paced.step slot transactionPoller))) (.start slot initial 0 false)
      (rejectedAfter 1000 ++ [.pass 1000, .poll .delayOver 100, .poll .start 100]) _ :=
    Path.gate_run (fun _ _ _ => id) rfl ⟨pollLater_of rfl rfl, pollLater_of rfl rfl,
      pollLater_of rfl rfl, trivial, pollLater_of rfl (by decide), trivial, trivial,
      pollLater_of rfl rfl, pollLater_of rfl rfl, trivial⟩
  have walletPath : Path (gated (PollLater walletPoller) (ofFn (Paced.step slot walletPoller)))
      (.start slot WalletPoller.initial 0 false)
      (walletRejectedAfter 1000 ++ [.pass 1000, .poll .delayOver 100, .poll .start 100]) _ :=
    Path.gate_run (fun _ _ _ => id) rfl ⟨pollLater_of rfl rfl, pollLater_of rfl rfl,
      pollLater_of rfl rfl, trivial, pollLater_of rfl (by decide), trivial, trivial,
      pollLater_of rfl rfl, pollLater_of rfl rfl, trivial⟩
  have both := delays_honoured slot path walletPath
  exact ⟨⟨_, path, rfl, both.1⟩, ⟨_, walletPath, rfl, both.2⟩⟩

/-- After six seconds the poll is due at once: the wait ends when it begins. -/
theorem delays_skipped :
    (¬ ∀ es w, Path (ofFn (Paced.step slot transactionPoller)) (.start slot initial 0 false) es w →
        Honoured slot transactionPoller w) ∧
    ¬ ∀ es w, Path (ofFn (Paced.step slot walletPoller))
        (.start slot WalletPoller.initial 0 false) es w → Honoured slot walletPoller w := by
  constructor
  · intro claim
    have honoured := claim (rejectedAfter 7000 ++ [.tick .fire, .poll .delayOver 100,
      .poll .start 100]) _ (Path.of_run rfl)
    rcases (honoured .begin 100 _ _ rfl rfl).2 rfl _ rfl with news | due
    · cases news
    · exact absurd due (by decide)
  · intro claim
    have honoured := claim (walletRejectedAfter 7000 ++ [.tick .fire, .poll .delayOver 100,
      .poll .start 100]) _ (Path.of_run rfl)
    rcases (honoured .begin 100 _ _ rfl rfl).2 rfl _ rfl with news | due
    · cases news
    · exact absurd due (by decide)

end Runs

end WalletDaemon.RetryPacing
