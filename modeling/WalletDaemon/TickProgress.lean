import WalletDaemon.PanicFreedom
import WalletDaemon.SignedOnce

/-! Every tick is answered. While the poller awaits an ack, each step of the channel and the
processor brings the ack nearer, and until it is there one of them can be taken. -/

namespace WalletDaemon.TickProtocol

open Platform Transition TransactionHandler

/-- A step that carries a tick to the processor, or its outcome back. -/
def Action.carries : Action → Bool
  | .enqueue => true
  | .receive => true
  | .prepare _ => true
  | .conclude _ => true
  | .acknowledge => true
  | _ => false

def Action.polls : Action → Bool
  | .poll _ => true
  | _ => false

/-- How many steps the outcome of the tick is away from the poller, its own included. -/
def remaining (s : System) : Nat :=
  if s.outbox.isSome then 6
  else if s.channel.isEmpty then
    match s.processor with
    | .handling _ => 4
    | .submitting _ _ => 3
    | .answering _ _ => 2
    | _ => 1
  else 5

theorem remaining_le (s : System) : 1 ≤ remaining s ∧ remaining s ≤ 6 := by
  unfold remaining
  split
  · simp
  split
  · split <;> simp
  · simp

def silentReplies : Replies where
  currentBlock _ := unavailable
  chainInfo _ := unavailable
  accountNonce _ := unavailable
  signTransactions := unavailable

section Steps

variable {K : Type} {subxt : Subxt} {ring : Keyring K} {keypair : K}

/-- The replies to the batch that is handled take the processor down nowhere. -/
def Answerable (subxt : Subxt) (ring : Keyring K) (keypair : K) (s : System) (a : Action) : Prop :=
  ∀ replies tick, a = .prepare replies → s.processor = .handling tick →
    Benign subxt ring keypair replies s.metadata s.nonces tick.batch

theorem silent_benign (metadata : MetadataCache) (nonces : NonceCache)
    (requests : List TransactionRequest) :
    Benign subxt ring keypair silentReplies metadata nonces requests := by
  have closed : ∀ key, openAccount subxt silentReplies metadata nonces key = none := fun _ => rfl
  refine ⟨fun request _ info bytes answered => ?_, ⟨fun request _ account opened => ?_,
    fun key account opened => ?_⟩⟩
  · cases answered
  · rw [closed] at opened
    cases opened
  · rw [closed] at opened
    cases opened

theorem Answerable.prepares {s : System} {replies : Replies} {tick : Tick}
    (answerable : Answerable subxt ring keypair s (.prepare replies))
    (working : s.processor = .handling tick) :
    ∃ prepared, prepare subxt ring keypair replies s.metadata s.nonces tick.batch = .ok prepared := by
  obtain ⟨inputs, made⟩ := (submitted_ok_iff replies s.metadata s.nonces tick.batch).mpr
    (answerable replies tick rfl working)
  unfold submitted at made
  cases ready : prepare subxt ring keypair replies s.metadata s.nonces tick.batch with
  | error panic =>
    rw [ready] at made
    cases made
  | ok prepared => exact ⟨prepared, rfl⟩

theorem polled_processor (s : System) (e : TransactionPoller.Event)
    (poller : TransactionPoller.State) (os : List TransactionPoller.Shown) :
    (polled s e poller os).processor = s.processor := by
  unfold polled
  dsimp only
  split <;> split <;> rfl

theorem step_alive {s t : System} {a : Action} (alive : s.processor.isDead = false)
    (answerable : Answerable subxt ring keypair s a) (h : step subxt ring keypair s a = some t) :
    t.processor.isDead = false := by
  cases a with
  | poll e =>
    simp only [step] at h
    split at h
    · obtain ⟨⟨poller, os⟩, -, rfl⟩ := Option.map_eq_some_iff.mp h
      rw [polled_processor]
      exact alive
    · cases h
  | prepare replies =>
    simp only [step] at h
    split at h
    · rename_i tick working
      obtain ⟨prepared, ready⟩ := answerable.prepares working
      rw [ready] at h
      split at h
      · rw [← Option.some.inj h]
        rfl
      · rw [← Option.some.inj h]
        rfl
    · cases h
  | enqueue =>
    simp only [step] at h
    split at h
    · split at h
      · rw [← Option.some.inj h]
        exact alive
      · cases h
    · cases h
  | receive =>
    simp only [step] at h
    split at h
    · rw [← Option.some.inj h]
      rfl
    · cases h
  | apply chosen =>
    simp only [step] at h
    split at h
    · split at h
      · rw [← Option.some.inj h]
        exact alive
      · cases h
    · cases h
  | conclude replies =>
    simp only [step] at h
    split at h
    · rw [← Option.some.inj h]
      rfl
    · cases h
  | acknowledge =>
    simp only [step] at h
    split at h
    · rw [← Option.some.inj h]
      rfl
    · cases h
  | serve page =>
    simp only [step] at h
    split at h
    · split at h
      · rw [← Option.some.inj h]
        exact alive
      · cases h
    · cases h
  | arrive uuid =>
    simp only [step] at h
    split at h
    · cases h
    · rw [← Option.some.inj h]
      exact alive
  | withdraw uuid =>
    rw [← Option.some.inj h]
    exact alive

/-- The ack of the last tick is there for the poller to take. -/
def Answered (subxt : Subxt) (ring : Keyring K) (keypair : K) (s : System) : Prop :=
  ∃ id outcome, s.sent = id + 1 ∧ s.ack = some (id, outcome) ∧
    ∀ deferred, (step subxt ring keypair s (.poll (.ack outcome deferred))).isSome

theorem carried {s : System} (inv : Inv s) (alive : s.processor.isDead = false)
    (awaits : Awaiting s.poller.phase) :
    Answered subxt ring keypair s ∨ ∃ a, a.carries = true ∧ Answerable subxt ring keypair s a ∧
      (step subxt ring keypair s a).isSome := by
  have harmless : ∀ {a : Action}, (∀ replies, a ≠ .prepare replies) →
      Answerable subxt ring keypair s a := fun other replies tick same => absurd same (other replies)
  cases inv.flow with
  | resting rests => exact absurd awaits rests
  | sending tick _ sent outbox channel processor ack logged fresh =>
    refine .inr ⟨.enqueue, rfl, harmless (by simp), ?_⟩
    simp [step, outbox, channel, processor, Processor.isDead]
  | queued tick _ sent outbox channel processor ack logged fresh =>
    refine .inr ⟨.receive, rfl, harmless (by simp), ?_⟩
    simp [step, channel, processor]
  | handling tick _ sent outbox channel processor ack logged fresh =>
    refine .inr ⟨.prepare silentReplies, rfl, fun replies other same _ => ?_, ?_⟩
    · obtain rfl := Action.prepare.inj same
      exact silent_benign _ _ _
    · simp only [step, processor]
      split
      · rfl
      · split <;> rfl
  | submitting tick prepared _ sent outbox channel processor ack logged submitted =>
    refine .inr ⟨.conclude silentReplies, rfl, harmless (by simp), ?_⟩
    simp [step, processor]
  | answering tick outcome _ sent outbox channel processor ack logged =>
    refine .inr ⟨.acknowledge, rfl, harmless (by simp), ?_⟩
    simp [step, processor]
  | answered id outcome _ sent outbox channel processor ack logged =>
    refine .inl ⟨id, outcome, sent, ack, fun deferred => ?_⟩
    rcases awaits with ⟨next, phase⟩ | ⟨fresh, phase⟩ <;>
      simp [step, mayPoll, ack, sent, TransactionPoller.step, phase]
  | dead id _ _ _ _ processor =>
    rw [processor] at alive
    cases alive

/-- While an ack is awaited, the channel and the processor come nearer to it with each
step, and no other step takes them back. -/
theorem step_remaining {s t : System} {a : Action} (inv : Inv s) (awaits : Awaiting s.poller.phase) (answerable : Answerable subxt ring keypair s a)
    (quiet : a.polls = false) (h : step subxt ring keypair s a = some t) :
    t.poller = s.poller ∧ remaining t + (if a.carries then 1 else 0) ≤ remaining s := by
  cases a with
  | poll e => cases quiet
  | prepare replies =>
    simp only [step] at h
    split at h
    · rename_i tick working
      obtain ⟨prepared, ready⟩ := answerable.prepares working
      rw [ready] at h
      cases inv.flow with
      | handling last _ sent outbox channel processor ack logged fresh =>
        split at h
        · rw [← Option.some.inj h]
          simp [remaining, outbox, channel, processor, Action.carries]
        · rw [← Option.some.inj h]
          simp [remaining, outbox, channel, processor, Action.carries]
      | _ => simp_all
    · cases h
  | enqueue =>
    simp only [step] at h
    split at h
    · rename_i tick waiting
      split at h
      · rw [← Option.some.inj h]
        simp [remaining, waiting, Action.carries]
      · cases h
    · cases h
  | receive =>
    simp only [step] at h
    split at h
    · rename_i tick rest waiting queue
      rw [← Option.some.inj h]
      cases inv.flow with
      | queued last _ sent outbox channel processor ack logged fresh =>
        obtain ⟨rfl, rfl⟩ := List.cons.inj (channel.symm.trans queue)
        simp [remaining, outbox, channel, Action.carries]
      | _ => simp_all
    · cases h
  | apply chosen =>
    simp only [step] at h
    split at h
    · rename_i tick prepared working
      split at h
      · rw [← Option.some.inj h]
        simp [remaining, working, Action.carries]
      · cases h
    · cases h
  | conclude replies =>
    simp only [step] at h
    split at h
    · rename_i tick prepared working
      rw [← Option.some.inj h]
      cases inv.flow with
      | submitting last made _ sent outbox channel processor ack logged submitted =>
        simp [remaining, outbox, channel, processor, Action.carries]
      | _ => simp_all
    · cases h
  | acknowledge =>
    simp only [step] at h
    split at h
    · rename_i tick outcome working
      rw [← Option.some.inj h]
      cases inv.flow with
      | answering last result _ sent outbox channel processor ack logged =>
        simp [remaining, outbox, channel, processor, Action.carries]
      | _ => simp_all
    · cases h
  | serve page =>
    simp only [step] at h
    split at h
    · rename_i fresh phase
      rcases awaits with ⟨next, other⟩ | ⟨other, there⟩ <;> simp_all
    · cases h
  | arrive uuid =>
    simp only [step] at h
    split at h
    · cases h
    · rw [← Option.some.inj h]
      exact ⟨rfl, le_refl _⟩
  | withdraw uuid =>
    rw [← Option.some.inj h]
    exact ⟨rfl, le_refl _⟩

def Live (s : System) : Prop := Inv s ∧ s.processor.isDead = false

theorem step_live {s t : System} {a : Action} (live : Live s)
    (h : gated (Answerable subxt ring keypair) (ofFn (step subxt ring keypair)) s a t) : Live t :=
  ⟨step_inv live.1 h.2, step_alive live.2 h.1 h.2⟩

theorem Live.not_exited {s : System} (live : Live s) : s.poller.phase ≠ .exited := by
  have goes : Awaiting s.poller.phase → s.poller.phase ≠ .exited := by
    rintro (⟨next, phase⟩ | ⟨fresh, phase⟩) exited <;> simp [phase] at exited
  cases live.1.flow with
  | resting _ runs => exact runs
  | sending _ awaits => exact goes awaits
  | queued _ awaits => exact goes awaits
  | handling _ awaits => exact goes awaits
  | submitting _ _ awaits => exact goes awaits
  | answering _ _ awaits => exact goes awaits
  | answered _ _ awaits => exact goes awaits
  | dead _ _ _ _ _ processor =>
    have alive := live.2
    rw [processor] at alive
    cases alive

theorem Live.goes_on {s : System} (live : Live s) (free : ¬ Awaiting s.poller.phase) :
    ∃ e, (step subxt ring keypair s (.poll e)).isSome := by
  cases phase : s.poller.phase with
  | loopHead =>
    refine ⟨.start, ?_⟩
    simp only [step, mayPoll, TransactionPoller.step, phase]
    cases s.poller.fetchNow <;> rfl
  | idleWait => exact ⟨.wake, by simp [step, mayPoll, TransactionPoller.step, phase]⟩
  | ready => exact ⟨.begin, by simp [step, mayPoll, TransactionPoller.step, phase]⟩
  | lookup fresh =>
    have failed : executeQuery (unavailable : Send (Option TransactionPoller.PendingPage)) none =
        .error "Received invalid response with status code 503 Service Unavailable" := rfl
    exact ⟨.reply unavailable false, by simp [step, mayPoll, failed, TransactionPoller.step, phase]⟩
  | sent next => exact absurd (.inl ⟨next, phase⟩) free
  | idleSent fresh => exact absurd (.inr ⟨fresh, phase⟩) free
  | retryWait => exact ⟨.delayOver, by simp [step, mayPoll, TransactionPoller.step, phase]⟩
  | exited => exact absurd phase live.not_exited

theorem run_remaining {s t : System} {later : List Action} (live : Live s)
    (awaits : Awaiting s.poller.phase)
    (path : Path (gated (Answerable subxt ring keypair) (ofFn (step subxt ring keypair))) s later t)
    (quiet : ∀ a ∈ later, a.polls = false) :
    Live t ∧ Awaiting t.poller.phase ∧ later.countP Action.carries + remaining t ≤ remaining s := by
  induction path with
  | refl => exact ⟨live, awaits, by simp⟩
  | @snoc t u es a _ last ih =>
    obtain ⟨live', awaits', counted⟩ := ih fun a member => quiet a (by simp [member])
    obtain ⟨same, nearer⟩ := step_remaining live'.1 awaits' last.1 (quiet a (by simp)) last.2
    refine ⟨step_live live' last, by rwa [same], ?_⟩
    rw [List.countP_append, List.countP_singleton]
    omega

/-- While no reply takes the processor down the daemon never stands still: the poller runs on, and an
ack that it awaits is there after at most five more steps of the channel and the processor,
one of which can always be taken until then. -/
theorem ticks_answered (subxt : Subxt) (ring : Keyring K) (keypair : K) (pending : Finset String)
    (actions : List Action) (s : System)
    (path : Path (gated (Answerable subxt ring keypair) (ofFn (step subxt ring keypair)))
      (initial pending) actions s) :
    s.poller.phase ≠ .exited ∧
    (¬ Awaiting s.poller.phase → ∃ e, (step subxt ring keypair s (.poll e)).isSome) ∧
    (Awaiting s.poller.phase → ∀ later t,
      Path (gated (Answerable subxt ring keypair) (ofFn (step subxt ring keypair))) s later t →
      (∀ a ∈ later, a.polls = false) →
        later.countP Action.carries ≤ 5 ∧
        (Answered subxt ring keypair t ∨ ∃ a, a.carries = true ∧
          Answerable subxt ring keypair t a ∧ (step subxt ring keypair t a).isSome)) := by
  have live : Live s :=
    path.invariant (fun _ _ _ live stepped => step_live live stepped) ⟨initial_inv pending, rfl⟩
  refine ⟨live.not_exited, live.goes_on, fun awaits later t run quiet => ?_⟩
  obtain ⟨live', awaits', counted⟩ := run_remaining live awaits run quiet
  have most := (remaining_le s).2
  have least := (remaining_le t).1
  exact ⟨by omega, carried live'.1 live'.2 awaits'⟩

end Steps

section Sent

def sentTick : List Action :=
  [.poll .start, .poll .begin, .serve (remarkPage "a"),
    .poll (.reply (answers (some (remarkPage "a"))) false)]

def sentSystem : System :=
  (run (step remarkSubxt byteRing 7) (initial {"a"}) sentTick).getD (initial {"a"})

def handledTick : List Action :=
  [.enqueue, .receive, .prepare silentReplies, .conclude silentReplies, .acknowledge]

theorem silent_answerable {a : Action} (silent : ∀ replies, a = .prepare replies →
    replies = silentReplies) (s : System) : Answerable remarkSubxt byteRing 7 s a := by
  intro replies tick prepares _
  rw [silent replies prepares]
  exact silent_benign _ _ _

theorem ticks_answered_sent :
    ∃ t, Path (gated (Answerable remarkSubxt byteRing 7) (ofFn (step remarkSubxt byteRing 7)))
        (initial {"a"}) sentTick sentSystem ∧ sentSystem.poller.phase ≠ .exited ∧
      Path (gated (Answerable remarkSubxt byteRing 7) (ofFn (step remarkSubxt byteRing 7)))
        sentSystem handledTick t ∧
      t.ack = some (0, .skipped) ∧ handledTick.countP Action.carries ≤ 5 := by
  have first : ∀ a ∈ sentTick, ∀ at_, Answerable remarkSubxt byteRing 7 at_ a := by
    intro a member
    refine silent_answerable fun replies prepares => ?_
    rw [prepares] at member
    simp [sentTick] at member
  have second : ∀ a ∈ handledTick, ∀ at_, Answerable remarkSubxt byteRing 7 at_ a := by
    intro a member
    refine silent_answerable fun replies prepares => ?_
    rw [prepares] at member
    simpa [handledTick] using member
  have sent : Path (ofFn (step remarkSubxt byteRing 7)) (initial {"a"}) sentTick sentSystem :=
    Path.of_run rfl
  have handled : Path (ofFn (step remarkSubxt byteRing 7)) sentSystem handledTick _ :=
    Path.of_run rfl
  have answered := ticks_answered remarkSubxt byteRing 7 {"a"} sentTick _ (sent.gate first)
  have counted := answered.2.2 (.inl ⟨none, rfl⟩) handledTick _ (handled.gate second)
    (by simp [handledTick, Action.polls])
  exact ⟨_, sent.gate first, answered.1, handled.gate second, rfl, counted.1⟩

end Sent

end WalletDaemon.TickProtocol
