import WalletDaemon.TickProtocol

/-! No uuid is accepted with two signed extrinsics.
At most one tick is on its way, and a lookup is issued only when none is. So a
page is served after every submission before it has been taken or never will be,
and none of its uuids has been accepted when its batch is submitted. -/

namespace WalletDaemon.TickProtocol

open Platform Transition ScanLoop TransactionHandler

def downTo : Nat → List Nat
  | 0 => []
  | n + 1 => n :: downTo n

theorem mem_downTo {n id : Nat} : id ∈ downTo n ↔ id < n := by
  induction n with
  | zero => simp [downTo]
  | succ n ih =>
    rw [downTo, List.mem_cons, ih]
    omega

theorem downTo_nodup (n : Nat) : (downTo n).Nodup := by
  induction n with
  | zero => exact List.nodup_nil
  | succ n ih =>
    rw [downTo, List.nodup_cons, mem_downTo]
    exact ⟨lt_irrefl n, ih⟩

/-- How many ticks were finished, acknowledged, and heard of by the poller. -/
structure Logged (s : System) (finished acked received : Nat) : Prop where
  finished : s.finished = downTo finished
  acked : s.acked = downTo acked
  received : s.received = downTo received

/-- The uuids are distinct and none of them has been accepted. -/
def Fresh (accepted : List Accepted) (uuids : List String) : Prop :=
  uuids.Nodup ∧ ∀ a ∈ accepted, a.input.uuid ∉ uuids

/-- The entries have distinct uuids, and one of these was accepted only with its
entry. -/
def Submitted (accepted : List Accepted) (tick : Nat) (inputs : List SignTransactionInput) : Prop :=
  (inputs.map SignTransactionInput.uuid).Nodup ∧
    ∀ a ∈ accepted, a.input.uuid ∈ inputs.map SignTransactionInput.uuid →
      a.tick = tick ∧ a.input ∈ inputs

/-- Where the last tick is; the ticks before it are done with. -/
inductive Flow (s : System) : Prop
  | resting : ¬ Awaiting s.poller.phase → s.poller.phase ≠ .exited → s.outbox = none →
      s.channel = [] → s.processor = .waiting → s.ack = none → Logged s s.sent s.sent s.sent →
      (∀ fresh page, s.poller.phase = .lookup fresh → s.served = some page →
        Fresh s.accepted (uuids page)) → Flow s
  | sending (tick : Tick) : Awaiting s.poller.phase → s.sent = tick.id + 1 →
      s.outbox = some tick → s.channel = [] → s.processor = .waiting → s.ack = none →
      Logged s tick.id tick.id tick.id →
      Fresh s.accepted (tick.batch.map TransactionRequest.requestId) → Flow s
  | queued (tick : Tick) : Awaiting s.poller.phase → s.sent = tick.id + 1 → s.outbox = none →
      s.channel = [tick] → s.processor = .waiting → s.ack = none →
      Logged s tick.id tick.id tick.id →
      Fresh s.accepted (tick.batch.map TransactionRequest.requestId) → Flow s
  | handling (tick : Tick) : Awaiting s.poller.phase → s.sent = tick.id + 1 → s.outbox = none →
      s.channel = [] → s.processor = .handling tick → s.ack = none →
      Logged s tick.id tick.id tick.id →
      Fresh s.accepted (tick.batch.map TransactionRequest.requestId) → Flow s
  | submitting (tick : Tick) (prepared : Prepared) : Awaiting s.poller.phase →
      s.sent = tick.id + 1 → s.outbox = none → s.channel = [] →
      s.processor = .submitting tick prepared → s.ack = none → Logged s tick.id tick.id tick.id →
      Submitted s.accepted tick.id prepared.signing.inputs → Flow s
  | answering (tick : Tick) (outcome : BatchOutcome) : Awaiting s.poller.phase →
      s.sent = tick.id + 1 → s.outbox = none → s.channel = [] →
      s.processor = .answering tick outcome → s.ack = none →
      Logged s (tick.id + 1) tick.id tick.id → Flow s
  | answered (id : Nat) (outcome : BatchOutcome) : Awaiting s.poller.phase → s.sent = id + 1 →
      s.outbox = none → s.channel = [] → s.processor = .waiting → s.ack = some (id, outcome) →
      Logged s (id + 1) (id + 1) id → Flow s
  | dead (id : Nat) : Awaiting s.poller.phase ∨ s.poller.phase = .exited → s.sent = id + 1 →
      s.outbox = none → s.channel = [] → s.processor = .dead → s.ack = none →
      Logged s id id id → Flow s

structure Inv (s : System) : Prop where
  flow : Flow s
  gone : ∀ a ∈ s.accepted, a.input.uuid ∉ s.pending
  once : ∀ a ∈ s.accepted, ∀ b ∈ s.accepted, a.input.uuid = b.input.uuid →
    a.input = b.input ∧ a.tick = b.tick

theorem initial_inv (pending : Finset String) : Inv (initial pending) where
  flow := by
    refine .resting ?_ (by simp [initial, TransactionPoller.initial]) rfl rfl rfl rfl ⟨rfl, rfl, rfl⟩ fun fresh page phase => by cases phase
    rintro (⟨next, phase⟩ | ⟨fresh, phase⟩) <;> cases phase
  gone a member := by cases member
  once a member := by cases member

section Steps

variable {K : Type} {subxt : Subxt} {ring : Keyring K} {keypair : K}

theorem enqueue_inv {s t : System} (inv : Inv s) (h : step subxt ring keypair s .enqueue = some t) :
    Inv t := by
  simp only [step] at h
  split at h
  · rename_i tick waiting
    split at h
    · obtain rfl := Option.some.inj h
      refine ⟨?_, inv.gone, inv.once⟩
      cases inv.flow with
      | sending last awaits sent outbox channel processor ack logged fresh =>
        obtain rfl : last = tick := Option.some.inj (outbox.symm.trans waiting)
        exact .queued last awaits sent rfl (by simp [channel]) processor ack
          ⟨logged.finished, logged.acked, logged.received⟩ fresh
      | _ => simp_all
    · cases h
  · cases h

theorem receive_inv {s t : System} (inv : Inv s) (h : step subxt ring keypair s .receive = some t) :
    Inv t := by
  simp only [step] at h
  split at h
  · rename_i tick rest waiting queue
    obtain rfl := Option.some.inj h
    refine ⟨?_, inv.gone, inv.once⟩
    cases inv.flow with
    | queued last awaits sent outbox channel processor ack logged fresh =>
      obtain ⟨rfl, rfl⟩ := List.cons.inj (channel.symm.trans queue)
      exact .handling last awaits sent outbox rfl rfl ack
        ⟨logged.finished, logged.acked, logged.received⟩ fresh
    | _ => simp_all
  · cases h

theorem prepare_uuids {replies : Replies} {metadata : MetadataCache} {nonces : NonceCache}
    {requests : List TransactionRequest} {prepared : Prepared}
    (h : prepare subxt ring keypair replies metadata nonces requests = .ok prepared) :
    (prepared.signing.inputs.map SignTransactionInput.uuid).Sublist
      (requests.map TransactionRequest.requestId) := by
  obtain ⟨batch, from_⟩ := prepare_ok h
  obtain ⟨signed, sub, same⟩ := from_.progress.in_order
  have uuids := congrArg (List.map Prod.snd) same
  rw [List.map_map, List.map_map] at uuids
  have entries : prepared.signing.inputs.map SignTransactionInput.uuid =
      signed.map TransactionRequest.requestId := uuids
  rw [entries]
  exact sub.map _

theorem Fresh.submitted {accepted : List Accepted} {uuids : List String} (fresh : Fresh accepted uuids)
    {inputs : List SignTransactionInput}
    (sub : (inputs.map SignTransactionInput.uuid).Sublist uuids) (tick : Nat) :
    Submitted accepted tick inputs :=
  ⟨fresh.1.sublist sub, fun a member inside => absurd (sub.subset inside) (fresh.2 a member)⟩

theorem prepare_inv {s t : System} {replies : Replies} (inv : Inv s)
    (h : step subxt ring keypair s (.prepare replies) = some t) : Inv t := by
  simp only [step] at h
  split at h
  · rename_i tick working
    have flow := inv.flow
    split at h
    · obtain rfl := Option.some.inj h
      refine ⟨?_, inv.gone, inv.once⟩
      cases flow with
      | handling last awaits sent outbox channel processor ack logged fresh =>
        obtain rfl : last = tick := by simpa using processor.symm.trans working
        exact .answering last .completed awaits sent outbox channel rfl ack
          ⟨congrArg _ logged.finished, logged.acked, logged.received⟩
      | _ => simp_all
    · split at h
      · obtain rfl := Option.some.inj h
        refine ⟨?_, inv.gone, inv.once⟩
        cases flow with
        | handling last awaits sent outbox channel processor ack logged fresh =>
          exact .dead last.id (.inl awaits) sent outbox rfl rfl ack
            ⟨logged.finished, logged.acked, logged.received⟩
        | _ => simp_all
      · rename_i prepared made
        obtain rfl := Option.some.inj h
        refine ⟨?_, inv.gone, inv.once⟩
        cases flow with
        | handling last awaits sent outbox channel processor ack logged fresh =>
          obtain rfl : last = tick := by simpa using processor.symm.trans working
          exact .submitting last prepared awaits sent outbox channel rfl ack
            ⟨logged.finished, logged.acked, logged.received⟩
            (fresh.submitted (prepare_uuids made) last.id)
        | _ => simp_all
  · cases h

theorem conclude_inv {s t : System} {replies : Replies} (inv : Inv s)
    (h : step subxt ring keypair s (.conclude replies) = some t) : Inv t := by
  simp only [step] at h
  split at h
  · rename_i tick prepared working
    obtain rfl := Option.some.inj h
    refine ⟨?_, inv.gone, inv.once⟩
    cases inv.flow with
    | submitting last made awaits sent outbox channel processor ack logged submitted =>
      obtain ⟨rfl, rfl⟩ : last = tick ∧ made = prepared := by
        simpa using processor.symm.trans working
      exact .answering last _ awaits sent outbox channel rfl ack
        ⟨congrArg _ logged.finished, logged.acked, logged.received⟩
    | _ => simp_all
  · cases h

theorem acknowledge_inv {s t : System} (inv : Inv s)
    (h : step subxt ring keypair s .acknowledge = some t) : Inv t := by
  simp only [step] at h
  split at h
  · rename_i tick outcome working
    obtain rfl := Option.some.inj h
    refine ⟨?_, inv.gone, inv.once⟩
    cases inv.flow with
    | answering last result awaits sent outbox channel processor ack logged =>
      obtain ⟨rfl, rfl⟩ : last = tick ∧ result = outcome := by
        simpa using processor.symm.trans working
      exact .answered last.id result awaits sent outbox channel rfl rfl
        ⟨logged.finished, congrArg _ logged.acked, logged.received⟩
    | _ => simp_all
  · cases h

theorem apply_inv {s t : System} {chosen : List SignTransactionInput} (inv : Inv s)
    (h : step subxt ring keypair s (.apply chosen) = some t) : Inv t := by
  simp only [step] at h
  split at h
  · rename_i tick prepared working
    split at h
    · rename_i inside
      obtain rfl := Option.some.inj h
      cases inv.flow with
      | submitting last made awaits sent outbox channel processor ack logged submitted =>
        obtain ⟨rfl, rfl⟩ : last = tick ∧ made = prepared := by
          simpa using processor.symm.trans working
        have mine : ∀ a ∈ chosen.map (Accepted.mk last.id) ++ s.accepted,
            a.input.uuid ∈ made.signing.inputs.map SignTransactionInput.uuid →
              a.tick = last.id ∧ a.input ∈ made.signing.inputs := by
          intro a member named
          rcases List.mem_append.mp member with now | before
          · obtain ⟨input, picked, rfl⟩ := List.mem_map.mp now
            exact ⟨rfl, inside picked⟩
          · exact submitted.2 a before named
        refine ⟨.submitting last made awaits sent outbox channel processor ack
          ⟨logged.finished, logged.acked, logged.received⟩ ⟨submitted.1, mine⟩, ?_, ?_⟩
        · intro a member still
          rw [Finset.mem_sdiff] at still
          rcases List.mem_append.mp member with now | before
          · obtain ⟨input, picked, rfl⟩ := List.mem_map.mp now
            exact still.2 (List.mem_toFinset.mpr (List.mem_map_of_mem picked))
          · exact inv.gone a before still.1
        · intro a first b second same
          have entry : ∀ c ∈ chosen.map (Accepted.mk last.id),
              c.input.uuid ∈ made.signing.inputs.map SignTransactionInput.uuid := by
            intro c now
            obtain ⟨input, picked, rfl⟩ := List.mem_map.mp now
            exact List.mem_map_of_mem (inside picked)
          by_cases named : a.input.uuid ∈ made.signing.inputs.map SignTransactionInput.uuid
          · obtain ⟨tick, left_⟩ := mine a first named
            obtain ⟨tick', right_⟩ := mine b second (by rw [← same]; exact named)
            exact ⟨List.inj_on_of_nodup_map submitted.1 left_ right_ same, tick.trans tick'.symm⟩
          · have old : ∀ c ∈ chosen.map (Accepted.mk last.id) ++ s.accepted,
                c.input.uuid = a.input.uuid → c ∈ s.accepted := by
              intro c member equal
              rcases List.mem_append.mp member with now | before
              · rw [← equal] at named
                exact absurd (entry c now) named
              · exact before
            exact inv.once a (old a first rfl) b (old b second same.symm) same
      | _ => simp_all
    · cases h
  · cases h

theorem serve_inv {s t : System} {page : TransactionPoller.PendingPage} (inv : Inv s)
    (h : step subxt ring keypair s (.serve page) = some t) : Inv t := by
  simp only [step] at h
  split at h
  · rename_i fresh phase
    split at h
    · rename_i still
      obtain rfl := Option.some.inj h
      refine ⟨?_, inv.gone, inv.once⟩
      have new : Fresh s.accepted (uuids page) := by
        refine ⟨still.1, fun a member named => ?_⟩
        exact inv.gone a member (still.2 (List.mem_toFinset.mpr named))
      have asks : ¬ Awaiting s.poller.phase := by
        rintro (⟨next, sent⟩ | ⟨other, sent⟩) <;> simp [phase] at sent
      have runs : s.poller.phase ≠ .exited := by simp [phase]
      cases inv.flow with
      | resting awaits going outbox channel processor ack logged seen =>
        refine .resting awaits going outbox channel processor ack
          ⟨logged.finished, logged.acked, logged.received⟩ ?_
        rintro _ _ _ same
        obtain rfl := Option.some.inj same
        exact new
      | dead id stopped => exact absurd stopped (not_or.mpr ⟨asks, runs⟩)
      | sending last awaits => exact absurd awaits asks
      | queued last awaits => exact absurd awaits asks
      | handling last awaits => exact absurd awaits asks
      | submitting last made awaits => exact absurd awaits asks
      | answering last result awaits => exact absurd awaits asks
      | answered id result awaits => exact absurd awaits asks
    · cases h
  · cases h

theorem flow_pending {s : System} (flow : Flow s) (pending : Finset String) :
    Flow { s with pending } := by
  cases flow with
  | resting awaits going outbox channel processor ack logged seen =>
    exact .resting awaits going outbox channel processor ack
      ⟨logged.finished, logged.acked, logged.received⟩ seen
  | sending last awaits sent outbox channel processor ack logged fresh =>
    exact .sending last awaits sent outbox channel processor ack
      ⟨logged.finished, logged.acked, logged.received⟩ fresh
  | queued last awaits sent outbox channel processor ack logged fresh =>
    exact .queued last awaits sent outbox channel processor ack
      ⟨logged.finished, logged.acked, logged.received⟩ fresh
  | handling last awaits sent outbox channel processor ack logged fresh =>
    exact .handling last awaits sent outbox channel processor ack
      ⟨logged.finished, logged.acked, logged.received⟩ fresh
  | submitting last made awaits sent outbox channel processor ack logged submitted =>
    exact .submitting last made awaits sent outbox channel processor ack
      ⟨logged.finished, logged.acked, logged.received⟩ submitted
  | answering last result awaits sent outbox channel processor ack logged =>
    exact .answering last result awaits sent outbox channel processor ack
      ⟨logged.finished, logged.acked, logged.received⟩
  | answered id result awaits sent outbox channel processor ack logged =>
    exact .answered id result awaits sent outbox channel processor ack
      ⟨logged.finished, logged.acked, logged.received⟩
  | dead id stopped sent outbox channel processor ack logged =>
    exact .dead id stopped sent outbox channel processor ack
      ⟨logged.finished, logged.acked, logged.received⟩

theorem arrive_inv {s t : System} {uuid : String} (inv : Inv s)
    (h : step subxt ring keypair s (.arrive uuid) = some t) : Inv t := by
  simp only [step] at h
  split at h
  · cases h
  · rename_i new
    obtain rfl := Option.some.inj h
    refine ⟨flow_pending inv.flow _, fun a member still => ?_, inv.once⟩
    rcases Finset.mem_insert.mp still with same | before
    · exact new (List.mem_map.mpr ⟨a, member, same⟩)
    · exact inv.gone a member before

theorem withdraw_inv {s t : System} {uuid : String} (inv : Inv s)
    (h : step subxt ring keypair s (.withdraw uuid) = some t) : Inv t := by
  obtain rfl := Option.some.inj h
  exact ⟨flow_pending inv.flow _, fun a member still =>
    inv.gone a member (Finset.mem_of_mem_erase still), inv.once⟩

theorem Fresh.convertible {accepted : List Accepted} {page : TransactionPoller.PendingPage}
    (fresh : Fresh accepted (uuids page)) :
    Fresh accepted ((TransactionPoller.convertible page).map TransactionRequest.requestId) := by
  have sub : ∀ rows : List PendingTransaction,
      ((rows.filterMap fun row => (TransactionRequest.tryFrom row).toOption).map
        TransactionRequest.requestId).Sublist (rows.map PendingTransaction.uuid) := by
    intro rows
    induction rows with
    | nil => exact List.Sublist.refl _
    | cons row rows ih =>
      rw [List.filterMap_cons]
      cases result : TransactionRequest.tryFrom row with
      | error e => exact ih.cons _
      | ok request =>
        rw [Except.toOption, List.map_cons, List.map_cons,
          TransactionRequest.tryFrom_requestId result]
        exact ih.cons_cons _
  exact ⟨fresh.1.sublist (sub page.data), fun a member inside =>
    fresh.2 a member ((sub page.data).subset inside)⟩

theorem polled_silent {s : System} {e : TransactionPoller.Event} {poller : TransactionPoller.State}
    {os : List TransactionPoller.Shown} (kind : e = .start ∨ e = .wake ∨ e = .delayOver)
    (quiet : emitted os = none) : polled s e poller os = { s with poller } := by
  rcases kind with rfl | rfl | rfl <;> simp [polled, quiet]

theorem not_awaiting {phase : TransactionPoller.Phase}
    (free : phase = .loopHead ∨ phase = .retryWait ∨ phase = .ready ∨ phase = .idleWait) :
    ¬ Awaiting phase ∧ phase ≠ .exited ∧ ∀ fresh, phase ≠ .lookup fresh := by
  refine ⟨?_, ?_, ?_⟩
  · rintro (⟨next, sent⟩ | ⟨fresh, sent⟩) <;> simp [sent] at free
  · rintro rfl
    simp at free
  · rintro fresh rfl
    simp at free

theorem poll_resting {s : System} {e : TransactionPoller.Event} {poller : TransactionPoller.State}
    {os : List TransactionPoller.Shown} (may : mayPoll s e = true)
    (stepped : TransactionPoller.step s.poller e = some (poller, os))
    (awaits : ¬ Awaiting s.poller.phase) (outbox : s.outbox = none) (channel : s.channel = [])
    (processor : s.processor = .waiting) (ack : s.ack = none) (logged : Logged s s.sent s.sent s.sent)
    (seen : ∀ fresh page, s.poller.phase = .lookup fresh → s.served = some page →
      Fresh s.accepted (uuids page)) : Flow (polled s e poller os) := by
  rcases step_free awaits stepped with ⟨rfl, quiet, fresh, phase⟩ |
    ⟨send, deferred, fresh, rfl, phase, replied⟩ | ⟨kind, quiet, free⟩
  · have same : polled s .begin poller os = { s with poller, served := none } := by
      simp [polled, quiet]
    rw [same]
    refine .resting ?_ (by simp [phase]) outbox channel processor ack
      ⟨logged.finished, logged.acked, logged.received⟩ (fun _ _ _ none_ => by cases none_)
    rintro (⟨next, sent⟩ | ⟨other, sent⟩) <;> simp [phase] at sent
  · have emits := onReply_emits s.poller fresh deferred send
    rw [replied] at emits
    rcases emits with ⟨quiet, free⟩ | ⟨requests, ⟨batch, idle, sends, waits, from_⟩, source⟩
    · have same : polled s (.reply send deferred) poller os = { s with poller } := by
        dsimp only at quiet
        simp [polled, quiet]
      rw [same]
      have goes := not_awaiting (by tauto : poller.phase = .loopHead ∨ poller.phase = .retryWait ∨
        poller.phase = .ready ∨ poller.phase = .idleWait)
      exact .resting goes.1 goes.2.1 outbox channel processor ack
        ⟨logged.finished, logged.acked, logged.received⟩ fun other _ there => absurd there (goes.2.2 other)
    · have new : Fresh s.accepted (batch.map TransactionRequest.requestId) := by
        have nothing : Fresh s.accepted [] := ⟨List.nodup_nil, fun _ _ => List.not_mem_nil⟩
        rcases from_ with rfl | rfl
        · exact nothing
        · rcases source with rfl | ⟨page, read, rfl⟩
          · exact nothing
          · simp only [mayPoll, read, decide_eq_true_eq] at may
            exact (seen fresh page phase may).convertible
      have same : polled s (.reply send deferred) poller os =
          { s with poller, outbox := some ⟨s.sent, batch, idle⟩, sent := s.sent + 1 } := by
        dsimp only at sends
        simp [polled, sends]
      rw [same]
      exact .sending ⟨s.sent, batch, idle⟩ waits rfl rfl channel processor ack
        ⟨logged.finished, logged.acked, logged.received⟩ new
  · rw [polled_silent kind quiet]
    have goes := not_awaiting (by tauto : poller.phase = .loopHead ∨ poller.phase = .retryWait ∨
      poller.phase = .ready ∨ poller.phase = .idleWait)
    exact .resting goes.1 goes.2.1 outbox channel processor ack
      ⟨logged.finished, logged.acked, logged.received⟩ fun other _ there => absurd there (goes.2.2 other)

theorem poll_stuck {s : System} {e : TransactionPoller.Event} {poller : TransactionPoller.State}
    {os : List TransactionPoller.Shown} (may : mayPoll s e = true)
    (stepped : TransactionPoller.step s.poller e = some (poller, os))
    (awaits : Awaiting s.poller.phase) (ack : s.ack = none) (alive : s.processor.isDead = false) :
    False := by
  rcases step_awaiting awaits stepped with ⟨outcome, deferred, rfl, -⟩ | ⟨rfl, -, -⟩
  · simp [mayPoll, ack] at may
  · simp [mayPoll, alive] at may

theorem poll_inv {s t : System} {e : TransactionPoller.Event} (inv : Inv s)
    (h : step subxt ring keypair s (.poll e) = some t) : Inv t := by
  simp only [step] at h
  split at h
  · rename_i may
    obtain ⟨⟨poller, os⟩, stepped, rfl⟩ := Option.map_eq_some_iff.mp h
    have same : (polled s e poller os).accepted = s.accepted ∧
        (polled s e poller os).pending = s.pending := by
      unfold polled
      dsimp only
      split <;> split <;> exact ⟨rfl, rfl⟩
    refine ⟨?_, ?_, ?_⟩
    · cases inv.flow with
      | resting awaits going outbox channel processor ack logged seen =>
        exact poll_resting may stepped awaits outbox channel processor ack logged seen
      | sending last awaits sent outbox channel processor ack =>
        exact (poll_stuck may stepped awaits ack (by rw [processor]; rfl)).elim
      | queued last awaits sent outbox channel processor ack =>
        exact (poll_stuck may stepped awaits ack (by rw [processor]; rfl)).elim
      | handling last awaits sent outbox channel processor ack =>
        exact (poll_stuck may stepped awaits ack (by rw [processor]; rfl)).elim
      | submitting last made awaits sent outbox channel processor ack =>
        exact (poll_stuck may stepped awaits ack (by rw [processor]; rfl)).elim
      | answering last result awaits sent outbox channel processor ack =>
        exact (poll_stuck may stepped awaits ack (by rw [processor]; rfl)).elim
      | answered id result awaits sent outbox channel processor ack logged =>
        rcases step_awaiting awaits stepped with ⟨outcome, deferred, rfl, quiet, free⟩ | ⟨rfl, -, -⟩
        · have next : polled s (.ack outcome deferred) poller os =
              { s with poller, ack := none, received := id :: s.received } := by
            dsimp only at quiet
            simp [polled, quiet, ack]
          rw [next]
          have goes := not_awaiting (by tauto : poller.phase = .loopHead ∨
            poller.phase = .retryWait ∨ poller.phase = .ready ∨ poller.phase = .idleWait)
          refine .resting goes.1 goes.2.1 outbox channel processor rfl ⟨?_, ?_, ?_⟩
            fun other _ there => absurd there (goes.2.2 other)
          · exact logged.finished.trans (by rw [← sent])
          · exact logged.acked.trans (by rw [← sent])
          · exact (congrArg (id :: ·) logged.received).trans (by rw [sent]; rfl)
        · simp [mayPoll, processor, Processor.isDead] at may
      | dead id stopped sent outbox channel processor ack logged =>
        rcases stopped with awaits | exited
        · rcases step_awaiting awaits stepped with ⟨outcome, deferred, rfl, -⟩ | ⟨rfl, quiet, gone⟩
          · simp [mayPoll, ack] at may
          · have next : polled s .consumerGone poller os = { s with poller } := by
              simp [polled, quiet]
            rw [next]
            exact .dead id (.inr gone) sent outbox channel processor ack
              ⟨logged.finished, logged.acked, logged.received⟩
        · rw [step_exited exited] at stepped
          cases stepped
    · rw [same.1, same.2]
      exact inv.gone
    · rw [same.1]
      exact inv.once
  · cases h

theorem step_inv {s t : System} {a : Action} (inv : Inv s)
    (h : step subxt ring keypair s a = some t) : Inv t := by
  cases a with
  | poll e => exact poll_inv inv h
  | enqueue => exact enqueue_inv inv h
  | receive => exact receive_inv inv h
  | prepare replies => exact prepare_inv inv h
  | apply chosen => exact apply_inv inv h
  | conclude replies => exact conclude_inv inv h
  | acknowledge => exact acknowledge_inv inv h
  | serve page => exact serve_inv inv h
  | arrive uuid => exact arrive_inv inv h
  | withdraw uuid => exact withdraw_inv inv h

end Steps

def unacknowledged (s : System) : List Nat := (downTo s.sent).filter (· ∉ s.received)

/-- What holds of every state of a run. -/
structure Guarded (s : System) : Prop where
  one_unacknowledged : (unacknowledged s).length ≤ 1
  no_early_lookup : ∀ fresh, s.poller.phase = .lookup fresh → unacknowledged s = []
  acked_once : s.acked.Nodup ∧ (s.finished = s.acked ∨ ∃ tick outcome,
    s.processor = .answering tick outcome ∧ s.finished = tick.id :: s.acked)
  accepted_once : ∀ a ∈ s.accepted, ∀ b ∈ s.accepted, a.input.uuid = b.input.uuid →
    a.input = b.input ∧ a.tick = b.tick

theorem unacknowledged_nil {s : System} (h : s.received = downTo s.sent) : unacknowledged s = [] := by
  rw [unacknowledged, h]
  simp

theorem unacknowledged_last {s : System} {id : Nat} (sent : s.sent = id + 1)
    (received : s.received = downTo id) : unacknowledged s = [id] := by
  rw [unacknowledged, sent, received, downTo, List.filter_cons_of_pos (by simp [mem_downTo])]
  simp

/-- The flow of one tick at a time, seen from outside. -/
theorem Inv.guarded {s : System} (inv : Inv s) : Guarded s := by
  have asks : ∀ fresh, s.poller.phase = .lookup fresh → ¬ Awaiting s.poller.phase := by
    rintro fresh phase (⟨next, sent⟩ | ⟨other, sent⟩) <;> simp [phase] at sent
  have busy : ∀ id, s.sent = id + 1 → s.received = downTo id → Awaiting s.poller.phase ∨
      s.poller.phase = .exited → (unacknowledged s).length ≤ 1 ∧
        ∀ fresh, s.poller.phase = .lookup fresh → unacknowledged s = [] := by
    intro id sent received there
    refine ⟨by rw [unacknowledged_last sent received]; rfl, fun fresh phase => ?_⟩
    rcases there with awaits | exited
    · exact absurd awaits (asks fresh phase)
    · simp [phase] at exited
  cases inv.flow with
  | resting awaits going outbox channel processor ack logged seen =>
    have none_ := unacknowledged_nil logged.received
    exact ⟨by rw [none_]; exact Nat.zero_le 1, fun _ _ => none_,
      ⟨by rw [logged.acked]; exact downTo_nodup _, .inl (logged.finished.trans logged.acked.symm)⟩,
      inv.once⟩
  | sending last awaits sent outbox channel processor ack logged fresh =>
    obtain ⟨one, early⟩ := busy _ sent logged.received (.inl awaits)
    exact ⟨one, early, ⟨by rw [logged.acked]; exact downTo_nodup _,
      .inl (logged.finished.trans logged.acked.symm)⟩, inv.once⟩
  | queued last awaits sent outbox channel processor ack logged fresh =>
    obtain ⟨one, early⟩ := busy _ sent logged.received (.inl awaits)
    exact ⟨one, early, ⟨by rw [logged.acked]; exact downTo_nodup _,
      .inl (logged.finished.trans logged.acked.symm)⟩, inv.once⟩
  | handling last awaits sent outbox channel processor ack logged fresh =>
    obtain ⟨one, early⟩ := busy _ sent logged.received (.inl awaits)
    exact ⟨one, early, ⟨by rw [logged.acked]; exact downTo_nodup _,
      .inl (logged.finished.trans logged.acked.symm)⟩, inv.once⟩
  | submitting last made awaits sent outbox channel processor ack logged submitted =>
    obtain ⟨one, early⟩ := busy _ sent logged.received (.inl awaits)
    exact ⟨one, early, ⟨by rw [logged.acked]; exact downTo_nodup _,
      .inl (logged.finished.trans logged.acked.symm)⟩, inv.once⟩
  | answering last result awaits sent outbox channel processor ack logged =>
    obtain ⟨one, early⟩ := busy _ sent logged.received (.inl awaits)
    refine ⟨one, early, ⟨by rw [logged.acked]; exact downTo_nodup _, .inr ⟨last, result, processor, ?_⟩⟩,
      inv.once⟩
    rw [logged.finished, logged.acked]
    rfl
  | answered id result awaits sent outbox channel processor ack logged =>
    obtain ⟨one, early⟩ := busy _ sent logged.received (.inl awaits)
    exact ⟨one, early, ⟨by rw [logged.acked]; exact downTo_nodup _,
      .inl (logged.finished.trans logged.acked.symm)⟩, inv.once⟩
  | dead id stopped sent outbox channel processor ack logged =>
    obtain ⟨one, early⟩ := busy _ sent logged.received stopped
    exact ⟨one, early, ⟨by rw [logged.acked]; exact downTo_nodup _,
      .inl (logged.finished.trans logged.acked.symm)⟩, inv.once⟩

/-- In every run at most one tick is unacknowledged, none is while a lookup is
out, every finished tick is acknowledged once, and no uuid is accepted with two
entries or from two ticks. -/
theorem uuids_accepted_once {K : Type} (subxt : Subxt) (ring : Keyring K) (keypair : K)
    (pending : Finset String) (actions : List Action) (s : System)
    (path : Path (ofFn (step subxt ring keypair)) (initial pending) actions s) : Guarded s :=
  (path.invariant (fun _ _ _ inv stepped => step_inv inv stepped) (initial_inv pending)).guarded

section Lost

def remarkRow (uuid : String) : PendingTransaction :=
  { TransactionPoller.zeroRow uuid .matrix with encodedData := "0x0000042a" }

def remarkPage (uuid : String) : TransactionPoller.PendingPage := ⟨[remarkRow uuid], none⟩

/-- One scan of one row, at the platform's nonce; its submission is taken in any case. -/
def remarkScan (uuid : String) (nonce : Nat) (signTransactions : Send Bool)
    (outcome : BatchOutcome) : List Action :=
  [.poll .start, .poll .begin, .serve (remarkPage uuid),
    .poll (.reply (answers (some (remarkPage uuid))) false), .enqueue, .receive,
    .prepare (remarkReplies 1000 nonce signTransactions),
    .apply [⟨remarkKey, uuid, remarkExtrinsic nonce txMortality,
      remarkExtrinsic nonce dummyTxMortality⟩],
    .conclude (remarkReplies 1000 nonce signTransactions), .acknowledge, .poll (.ack outcome false)]

/-- The first acceptance is not heard of; its uuid is not served again. -/
theorem uuids_accepted_once_lost :
    ∃ s, Path (ofFn (step remarkSubxt byteRing 7)) (initial {"a", "b"})
        (remarkScan "a" 5 unavailable .submissionFailed ++ [.poll .delayOver] ++
          remarkScan "b" 6 (answers true) .completed) s ∧
      s.accepted.map (fun a => a.input.uuid) = ["b", "a"] ∧ s.pending = ∅ ∧ Guarded s := by
  have path : Path (ofFn (step remarkSubxt byteRing 7)) (initial {"a", "b"})
      (remarkScan "a" 5 unavailable .submissionFailed ++ [.poll .delayOver] ++
        remarkScan "b" 6 (answers true) .completed) _ := Path.of_run rfl
  exact ⟨_, path, rfl, by decide, uuids_accepted_once _ _ _ _ _ _ path⟩

end Lost

end WalletDaemon.TickProtocol
