import WalletDaemon.NonceSafety
import WalletDaemon.TransactionPoller

/-! The transaction poller, the channel of capacity one, the processor and the
platform, run together. Any party may take its next step at any time. The
platform may take any part of a submission, any number of times, for as long as
the submission is in flight, whatever it then replies. -/

namespace WalletDaemon.TickProtocol

open Platform Transition ScanLoop TransactionHandler

/-- A `ProcessorTick`; its number stands for its ack channel. -/
structure Tick where
  id : Nat
  batch : List TransactionRequest
  idle : Finset ChainKey

inductive Processor
  | waiting
  | handling (tick : Tick)
  | submitting (tick : Tick) (prepared : Prepared)
  | answering (tick : Tick) (outcome : BatchOutcome)
  | dead

def Processor.isDead : Processor → Bool
  | .dead => true
  | _ => false

/-- An entry the platform accepted, with the tick that submitted it. -/
structure Accepted where
  tick : Nat
  input : SignTransactionInput

/-- `outbox` is a tick whose send waits for room. `ack` is an ack on its way to
the poller. The logs `finished`, `acked` and `received` hold tick numbers. -/
structure System where
  poller : TransactionPoller.State
  sent : Nat
  outbox : Option Tick
  channel : List Tick
  processor : Processor
  ack : Option (Nat × BatchOutcome)
  metadata : MetadataCache
  nonces : NonceCache
  served : Option TransactionPoller.PendingPage
  pending : Finset String
  accepted : List Accepted
  finished : List Nat
  acked : List Nat
  received : List Nat

/-- Before the first step, with some requests pending already. -/
def initial (pending : Finset String) : System where
  poller := TransactionPoller.initial
  sent := 0
  outbox := none
  channel := []
  processor := .waiting
  ack := none
  metadata := fun _ => none
  nonces := fun _ => none
  served := none
  pending
  accepted := []
  finished := []
  acked := []
  received := []

inductive Action
  | poll (e : TransactionPoller.Event)
  | enqueue
  | receive
  | prepare (replies : Replies)
  | apply (chosen : List SignTransactionInput)
  | conclude (replies : Replies)
  | acknowledge
  | serve (page : TransactionPoller.PendingPage)
  | arrive (uuid : String)
  | withdraw (uuid : String)

def asTick : TransactionPoller.Shown → Option (List TransactionRequest × Finset ChainKey)
  | .tick requests idle => some (requests, idle)
  | _ => none

def emitted (os : List TransactionPoller.Shown) :
    Option (List TransactionRequest × Finset ChainKey) :=
  os.findSome? asTick

def uuids (page : TransactionPoller.PendingPage) : List String :=
  page.data.map PendingTransaction.uuid

/-- A reply's page is one the platform served to this lookup, an ack is the one
that was sent for the last tick, and the consumer is found gone once it is. -/
def mayPoll (s : System) : TransactionPoller.Event → Bool
  | .reply send _ =>
    match executeQuery send none with
    | .ok (some page) => s.served = some page
    | _ => true
  | .ack outcome _ =>
    match s.ack with
    | some (id, result) => id + 1 = s.sent && result = outcome
    | none => false
  | .consumerGone => s.processor.isDead
  | _ => true

def polled (s : System) (e : TransactionPoller.Event) (poller : TransactionPoller.State)
    (os : List TransactionPoller.Shown) : System :=
  let s := { s with poller }
  let s := match e with
    | .begin => { s with served := none }
    | .ack _ _ => { s with ack := none, received := (s.ack.map Prod.fst).toList ++ s.received }
    | _ => s
  match emitted os with
  | some (batch, idle) => { s with outbox := some ⟨s.sent, batch, idle⟩, sent := s.sent + 1 }
  | none => s

section Steps

variable {K : Type} (subxt : Subxt) (ring : Keyring K) (keypair : K)

def step (s : System) : Action → Option System
  | .poll e =>
    if mayPoll s e then
      (TransactionPoller.step s.poller e).map fun t => polled s e t.1 t.2
    else none
  | .enqueue =>
    match s.outbox with
    | some tick =>
      if s.channel.length < 1 ∧ s.processor.isDead = false then
        some { s with outbox := none, channel := s.channel ++ [tick] }
      else none
    | none => none
  | .receive =>
    match s.processor, s.channel with
    | .waiting, tick :: rest =>
      some { s with
        processor := .handling tick
        channel := rest
        nonces := evictIdleChains s.nonces tick.idle }
    | _, _ => none
  | .prepare replies =>
    match s.processor with
    | .handling tick =>
      if tick.batch.isEmpty then
        some { s with
          processor := .answering tick .completed
          finished := tick.id :: s.finished }
      else match prepare subxt ring keypair replies s.metadata s.nonces tick.batch with
        | .error _ => some { s with processor := .dead, channel := [] }
        | .ok prepared =>
          some { s with
            processor := .submitting tick prepared
            metadata := prepared.metadata
            nonces := prepared.signing.nonces }
    | _ => none
  | .apply chosen =>
    match s.processor with
    | .submitting tick prepared =>
      if chosen ⊆ prepared.signing.inputs then
        some { s with
          accepted := chosen.map (Accepted.mk tick.id) ++ s.accepted
          pending := s.pending \ (chosen.map SignTransactionInput.uuid).toFinset }
      else none
    | _ => none
  | .conclude replies =>
    match s.processor with
    | .submitting tick prepared =>
      let handled := submit replies prepared tick.batch.length
      some { s with
        processor := .answering tick handled.outcome
        metadata := handled.metadata
        nonces := handled.nonces
        finished := tick.id :: s.finished }
    | _ => none
  | .acknowledge =>
    match s.processor with
    | .answering tick outcome =>
      some { s with
        processor := .waiting
        ack := some (tick.id, outcome)
        acked := tick.id :: s.acked }
    | _ => none
  | .serve page =>
    match s.poller.phase with
    | .lookup _ =>
      if (uuids page).Nodup ∧ (uuids page).toFinset ⊆ s.pending then
        some { s with served := some page }
      else none
    | _ => none
  | .arrive uuid =>
    if uuid ∈ s.accepted.map (SignTransactionInput.uuid ∘ Accepted.input) then none
    else some { s with pending := insert uuid s.pending }
  | .withdraw uuid => some { s with pending := s.pending.erase uuid }

end Steps

section Emission

open TransactionPoller

def Awaiting (phase : Phase) : Prop := (∃ next, phase = .sent next) ∨ ∃ fresh, phase = .idleSent fresh

/-- No tick is sent, and the poller goes on by itself. -/
def Calm (t : State × List Shown) : Prop :=
  emitted t.2 = none ∧ (t.1.phase = .loopHead ∨ t.1.phase = .retryWait)

/-- A tick with one of the batches is sent, and the poller awaits its ack. -/
def Ticks (requests : List TransactionRequest) (t : State × List Shown) : Prop :=
  ∃ batch idle, emitted t.2 = some (batch, idle) ∧ Awaiting t.1.phase ∧
    (batch = [] ∨ batch = requests)

@[simp] theorem emitted_nil : emitted [] = none := rfl

@[simp] theorem emitted_backoffWait (attempt : Nat) (os : List Shown) :
    emitted (.backoffWait attempt :: os) = emitted os := rfl

@[simp] theorem emitted_outcome (outcome : BatchOutcome) (os : List Shown) :
    emitted (.outcome outcome :: os) = emitted os := rfl

@[simp] theorem emitted_idleWait (os : List Shown) : emitted (.idleWait :: os) = emitted os := rfl

@[simp] theorem emitted_lookup (cursor : Option String) (os : List Shown) :
    emitted (.lookup cursor :: os) = emitted os := rfl

@[simp] theorem emitted_tick (requests : List TransactionRequest) (idle : Finset ChainKey)
    (os : List Shown) : emitted (.tick requests idle :: os) = some (requests, idle) := rfl

@[simp] theorem emitted_shown (send : Send (Option PendingPage)) : emitted [shown send] = none := by
  unfold shown
  split <;> rfl

theorem backoff_calm (s : State) {seen : List Shown} (quiet : emitted seen = none) :
    Calm (backoff s seen) := ⟨quiet, .inr rfl⟩

theorem finishScanRetry_calm (s : State) (deferred : Bool) {seen : List Shown}
    (quiet : emitted seen = none) : Calm (finishScanRetry s deferred seen) := by
  unfold finishScanRetry
  split
  · exact backoff_calm s quiet
  · exact ⟨quiet, .inl rfl⟩

theorem endScan_emits (s : State) (fresh deferred : Bool) {seen : Shown}
    (quiet : emitted [seen] = none) (requests : List TransactionRequest) :
    Calm (endScan s fresh deferred seen) ∨ Ticks requests (endScan s fresh deferred seen) := by
  unfold endScan
  dsimp only
  split
  · exact .inl (finishScanRetry_calm _ _ quiet)
  · exact .inr ⟨[], _, rfl, .inr ⟨fresh, rfl⟩, .inl rfl⟩

theorem onReply_emits (s : State) (fresh deferred : Bool) (send : Send (Option PendingPage)) :
    Calm (onReply s fresh deferred send) ∨ ∃ requests,
      Ticks requests (onReply s fresh deferred send) ∧
        (requests = [] ∨ ∃ page, executeQuery send none = .ok (some page) ∧
          requests = convertible page) := by
  have quiet := emitted_shown send
  unfold onReply
  split
  · rename_i requests nextCursor result
    have source : ∃ page, executeQuery send none = .ok (some page) ∧ requests = convertible page := by
      unfold getPendingTransactions at result
      split at result
      · cases result
      · cases result
      · rename_i page read
        split at result
        · cases result
        · exact ⟨page, read, (Prod.mk.inj (Except.ok.inj result)).1.symm⟩
    unfold onPage
    split
    · split
      · exact .inl ⟨quiet, .inl rfl⟩
      · rcases endScan_emits _ fresh deferred quiet requests with calm | ticks
        · exact .inl calm
        · exact .inr ⟨requests, ticks, .inr source⟩
    · dsimp only
      split
      · exact .inr ⟨requests, ⟨requests, _, rfl, .inl ⟨nextCursor, rfl⟩, .inr rfl⟩, .inr source⟩
      · exact .inr ⟨requests, ⟨requests, _, rfl, .inl ⟨nextCursor, rfl⟩, .inr rfl⟩, .inr source⟩
  · unfold onError
    dsimp only
    split
    · rcases endScan_emits _ fresh deferred quiet [] with calm | ticks
      · exact .inl calm
      · exact .inr ⟨[], ticks, .inl rfl⟩
    · exact .inl (backoff_calm _ quiet)

theorem onOutcome_calm (s : State) (nextCursor : Option String) (deferred : Bool)
    (outcome : BatchOutcome) : Calm (onOutcome s nextCursor deferred outcome) := by
  unfold onOutcome
  split
  · dsimp only
    split
    · exact finishScanRetry_calm _ _ rfl
    · exact ⟨rfl, .inl rfl⟩
  · exact backoff_calm _ rfl

theorem step_awaiting {s t : State} {e : Event} {os : List Shown} (awaits : Awaiting s.phase)
    (h : TransactionPoller.step s e = some (t, os)) :
    (∃ outcome deferred, e = .ack outcome deferred ∧ Calm (t, os)) ∨
      e = .consumerGone ∧ emitted os = none ∧ t.phase = .exited := by
  cases TransactionPoller.step_cases h with
  | ack outcome deferred next phase same =>
    have calm := onOutcome_calm s next deferred outcome
    rw [same] at calm
    exact .inl ⟨outcome, deferred, rfl, calm⟩
  | idleAck outcome deferred fresh phase same =>
    have calm := finishScanRetry_calm s (!fresh && deferred) emitted_nil
    rw [same] at calm
    exact .inl ⟨outcome, deferred, rfl, calm⟩
  | gone phase => exact .inr ⟨rfl, rfl, rfl⟩
  | _ => simp_all [Awaiting]

theorem step_free {s t : State} {e : Event} {os : List Shown} (free : ¬ Awaiting s.phase)
    (h : TransactionPoller.step s e = some (t, os)) :
    (e = .begin ∧ emitted os = none ∧ ∃ fresh, t.phase = .lookup fresh) ∨
    (∃ send deferred fresh, e = .reply send deferred ∧ s.phase = .lookup fresh ∧
      onReply s fresh deferred send = (t, os)) ∨
    ((e = .start ∨ e = .wake ∨ e = .delayOver) ∧ emitted os = none ∧
      (t.phase = .loopHead ∨ t.phase = .ready ∨ t.phase = .idleWait)) := by
  cases TransactionPoller.step_cases h with
  | go phase _ => exact .inr (.inr ⟨by simp, rfl, .inr (.inl rfl)⟩)
  | park phase _ => exact .inr (.inr ⟨by simp, rfl, .inr (.inr rfl)⟩)
  | wake phase => exact .inr (.inr ⟨by simp, rfl, .inr (.inl rfl)⟩)
  | begin phase => exact .inl ⟨rfl, rfl, _, rfl⟩
  | reply send deferred fresh phase same => exact .inr (.inl ⟨send, deferred, fresh, rfl, phase, same⟩)
  | ack outcome deferred next phase _ => exact absurd (.inl ⟨next, phase⟩) free
  | idleAck outcome deferred fresh phase _ => exact absurd (.inr ⟨fresh, phase⟩) free
  | gone phase => exact absurd phase free
  | resume phase => exact .inr (.inr ⟨by simp, rfl, .inl rfl⟩)

theorem step_exited {s : State} (phase : s.phase = .exited) (e : Event) :
    TransactionPoller.step s e = none := by
  cases e <;> simp [TransactionPoller.step, phase]

end Emission

end WalletDaemon.TickProtocol
