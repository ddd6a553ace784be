import WalletDaemon.ManagedWallet
import WalletDaemon.OwedWork
import WalletDaemon.ScanWork

/-! The managed-wallet poller, the channel of capacity one, the processor and the
platform, run together. Any party may take its next step at any time. The platform
may take any part of a submission, any number of times, for as long as the submission
is in flight. -/

namespace WalletDaemon.WalletProtocol

open Platform Transition ScanLoop WalletPoller

/-- A `WalletBatch`; its number stands for its ack channel. -/
structure WalletBatch where
  id : Nat
  requests : List DeriveWalletRequest

inductive Processor
  | waiting
  | populating (batch : WalletBatch) (wallets : List PopulateManagedWalletInput)
  | answering (batch : WalletBatch) (outcome : WalletPoller.BatchOutcome)

/-- `outbox` is a batch whose send waits for room. `ack` is an ack on its way to the
poller. `registry` is what the platform has taken. -/
structure System where
  poller : State
  shown : List Shown
  sent : Nat
  outbox : Option WalletBatch
  channel : List WalletBatch
  processor : Processor
  ack : Option (Nat × WalletPoller.BatchOutcome)
  registry : List PopulateManagedWalletInput

def start : System where
  poller := WalletPoller.initial
  shown := []
  sent := 0
  outbox := none
  channel := []
  processor := .waiting
  ack := none
  registry := []

inductive Action
  | poll (e : Event)
  | enqueue
  | receive
  | apply (chosen : List PopulateManagedWalletInput)
  | conclude (send : Send Bool)
  | acknowledge

def asBatch : Shown → Option (List DeriveWalletRequest)
  | .tick requests _ => some requests
  | _ => none

def emitted (os : List Shown) : Option (List DeriveWalletRequest) := os.findSome? asBatch

/-- An ack is the one that was sent for the last batch; the processor is never gone. -/
def mayPoll (s : System) : Event → Bool
  | .ack outcome _ =>
    match s.ack with
    | some (id, result) => id + 1 = s.sent && result = outcome
    | none => false
  | .consumerGone => false
  | _ => true

def polled (s : System) (e : Event) (poller : State) (os : List Shown) : System :=
  let s := { s with poller, shown := os ++ s.shown }
  let s := match e with
    | .ack _ _ => { s with ack := none }
    | _ => s
  match emitted os with
  | some requests => { s with outbox := some ⟨s.sent, requests⟩, sent := s.sent + 1 }
  | none => s

section Steps

variable {K : Type} (ring : Keyring K) (keypair : K)

def wallets (requests : List DeriveWalletRequest) : List PopulateManagedWalletInput :=
  requests.map (populateInput ring keypair)

/-- `derive_wallets`, once the submission of its wallets has met `send`. -/
def deriveWallets (send : Send Bool) (wallets : List PopulateManagedWalletInput) :
    WalletPoller.BatchOutcome :=
  match populateManagedWallets send (wallets.map PopulateManagedWalletInput.externalId) with
  | .ok () => .completed
  | .error _ => .submissionFailed

theorem deriveWallets_completed {send : Send Bool} {wallets : List PopulateManagedWalletInput} :
    deriveWallets send wallets = .completed ↔ RepliesWith send mutationRetries true := by
  rw [← executeQuery_ok, deriveWallets, populateManagedWallets]
  cases executeQuery send (some mutationRetries) with
  | error e => simp
  | ok result => cases result <;> simp

def step (s : System) : Action → Option System
  | .poll e =>
    if mayPoll s e then
      (WalletPoller.step s.poller e).map fun t => polled s e t.1 t.2
    else none
  | .enqueue =>
    match s.outbox with
    | some batch =>
      if s.channel.length < 1 then
        some { s with outbox := none, channel := s.channel ++ [batch] }
      else none
    | none => none
  | .receive =>
    match s.processor, s.channel with
    | .waiting, batch :: rest =>
      some { s with
        processor := .populating batch (wallets ring keypair batch.requests)
        channel := rest }
    | _, _ => none
  | .apply chosen =>
    match s.processor with
    | .populating _ wallets =>
      if chosen ⊆ wallets then some { s with registry := chosen ++ s.registry } else none
    | _ => none
  | .conclude send =>
    match s.processor with
    | .populating batch wallets =>
      some { s with processor := .answering batch (deriveWallets send wallets) }
    | _ => none
  | .acknowledge =>
    match s.processor with
    | .answering batch outcome =>
      some { s with processor := .waiting, ack := some (batch.id, outcome) }
    | _ => none

/-- Where the platform replies `true` it has taken all that was submitted. -/
def Honest (s : System) (a : Action) : Prop :=
  ∀ send batch wallets, a = .conclude send → s.processor = .populating batch wallets →
    RepliesWith send mutationRetries true → wallets ⊆ s.registry

end Steps

section Emission

/-- No batch is away, and the poller goes on. -/
def Calm (poller : State) : Prop := (∀ next, poller.phase ≠ .sent next) ∧ poller.phase ≠ .exited

/-- What a step of the poller shows and hands over while no batch is away. -/
inductive Turn (t : State) (os : List Shown) : Prop
  | rests : Emits os none → emitted os = none → Calm t → Turn t os
  | hands (requests : List DeriveWalletRequest) (next : Option String) :
      Emits os (some requests) → emitted os = some requests → t.phase = .sent next → Turn t os

theorem calm_of_phase {t : State} {phase : Phase} (at_ : t.phase = phase)
    (calm : (∀ next, phase ≠ .sent next) ∧ phase ≠ .exited) : Calm t := by
  subst at_
  exact calm

theorem Turn.plain {t : State} {phase : Phase} {os : List Shown} (plain : ∀ o ∈ os, o.Plain)
    (quiet : emitted os = none) (at_ : t.phase = phase)
    (calm : (∀ next, phase ≠ .sent next) ∧ phase ≠ .exited) : Turn t os :=
  .rests (.plain plain) quiet (calm_of_phase at_ calm)

theorem applyStep_calm (s : State) (walletStep : WalletStep) (seen : List Shown) :
    Calm (applyStep s walletStep seen).1 := by
  cases walletStep <;> exact calm_of_phase rfl ⟨fun _ => Phase.noConfusion, Phase.noConfusion⟩

theorem applyStep_shows (s : State) (walletStep : WalletStep) (seen : List Shown) :
    (applyStep s walletStep seen).2 = seen ∨
      ∃ attempt, (applyStep s walletStep seen).2 = .backoffWait attempt :: seen := by
  cases walletStep with
  | «continue» => exact .inl rfl
  | delayThenFetch => exact .inr ⟨s.failureCount, rfl⟩

theorem applyStep_turn (s : State) (walletStep : WalletStep) {seen : Shown} (plain : seen.Plain)
    (quiet : emitted [seen] = none) :
    Turn (applyStep s walletStep [seen]).1 (applyStep s walletStep [seen]).2 := by
  have single : ∀ o ∈ [seen], o.Plain := fun o member => List.mem_singleton.mp member ▸ plain
  have calm := applyStep_calm s walletStep [seen]
  rcases applyStep_shows s walletStep [seen] with same | ⟨attempt, same⟩
  · rw [same]
    exact .rests (.plain single) quiet calm
  · rw [same]
    exact .rests (.plain (List.forall_mem_cons.mpr ⟨trivial, single⟩)) quiet calm

theorem onPage_turn (s : State) (fresh deferred : Bool) {requests : List DeriveWalletRequest}
    {next : Option String} {seen : Shown}
    (shows : seen = .page requests next ∨ seen = .noResult ∧ requests = []) :
    Turn (onPage s fresh deferred requests next seen).1
      (onPage s fresh deferred requests next seen).2 := by
  unfold onPage
  split
  · rename_i empty
    have plain : seen.Plain ∧ emitted [seen] = none := by
      rcases shows with rfl | ⟨rfl, -⟩
      · exact ⟨List.isEmpty_iff.mp empty, rfl⟩
      · exact ⟨trivial, rfl⟩
    split
    · refine .plain (fun o member => List.mem_singleton.mp member ▸ plain.1) plain.2 rfl ?_
      exact ⟨fun _ => Phase.noConfusion, Phase.noConfusion⟩
    · exact applyStep_turn _ _ plain.1 plain.2
  · rename_i some_
    rcases shows with rfl | ⟨-, none_⟩
    · exact .hands requests next (.hands requests () next) rfl rfl
    · simp [none_] at some_

theorem onReply_turn (s : State) (fresh deferred : Bool) (send : Send (Option PendingPage)) :
    Turn (onReply s fresh deferred send).1 (onReply s fresh deferred send).2 := by
  unfold onReply getPendingWallets WalletPoller.shown
  cases executeQuery send none with
  | error e => exact applyStep_turn _ _ trivial rfl
  | ok data =>
    cases data with
    | none => exact onPage_turn s fresh deferred (.inr ⟨rfl, rfl⟩)
    | some page => exact onPage_turn s fresh deferred (.inl rfl)

theorem step_turn {s t : State} {e : Event} {os : List Shown} (calm : Calm s)
    (h : WalletPoller.step s e = some (t, os)) : Turn t os := by
  have nothing : ∀ o ∈ ([] : List Shown), o.Plain := fun _ => False.elim ∘ List.not_mem_nil
  have goes : ∀ {poller : State} {phase : Phase}, poller.phase = phase →
      (∀ next, phase ≠ .sent next) → phase ≠ .exited → Calm poller :=
    fun at_ home stays => calm_of_phase at_ ⟨home, stays⟩
  cases step_cases h with
  | go phase fetch =>
    exact .plain nothing rfl rfl ⟨fun _ => Phase.noConfusion, Phase.noConfusion⟩
  | park phase off =>
    exact .rests .parks rfl (goes rfl (fun _ => Phase.noConfusion) Phase.noConfusion)
  | wake phase =>
    exact .plain nothing rfl rfl ⟨fun _ => Phase.noConfusion, Phase.noConfusion⟩
  | begin phase =>
    exact .rests (.begins s.cursor) rfl (goes rfl (fun _ => Phase.noConfusion) Phase.noConfusion)
  | reply send deferred fresh phase same =>
    have turn := onReply_turn s fresh deferred send
    rwa [same] at turn
  | ack outcome deferred next phase same => exact absurd phase (calm.1 next)
  | gone next phase => exact absurd phase (calm.1 next)
  | resume phase =>
    exact .plain nothing rfl rfl ⟨fun _ => Phase.noConfusion, Phase.noConfusion⟩

theorem step_away {s t : State} {e : Event} {os : List Shown} {next : Option String}
    (away : s.phase = .sent next) (h : WalletPoller.step s e = some (t, os)) :
    e = .consumerGone ∨
      ∃ outcome deferred, e = .ack outcome deferred ∧ Calm t ∧ Answers outcome os := by
  cases step_cases h with
  | ack outcome deferred nextCursor phase same =>
    have calm := applyStep_calm s (walletStep outcome nextCursor s.restartAfterScan deferred)
      [.outcome outcome]
    have shows := applyStep_shows s (walletStep outcome nextCursor s.restartAfterScan deferred)
      [.outcome outcome]
    rw [same] at calm shows
    exact .inr ⟨outcome, deferred, rfl, calm, shows⟩
  | gone next phase => exact .inl rfl
  | _ => simp_all

end Emission

section Invariant

variable {K : Type} (ring : Keyring K) (keypair : K)

def Registered (registry : List PopulateManagedWalletInput) (requests : List DeriveWalletRequest) :
    Prop := wallets ring keypair requests ⊆ registry

structure Empty (s : System) : Prop where
  outbox : s.outbox = none
  channel : s.channel = []
  processor : s.processor = .waiting
  ack : s.ack = none

/-- Where a batch is that the poller has sent and not heard of. -/
inductive Away (s : System) (batch : WalletBatch) : Prop
  | sending : s.outbox = some batch → s.channel = [] → s.processor = .waiting → s.ack = none →
      Away s batch
  | waiting : s.outbox = none → s.channel = [batch] → s.processor = .waiting → s.ack = none →
      Away s batch
  | populating : s.outbox = none → s.channel = [] →
      s.processor = .populating batch (wallets ring keypair batch.requests) → s.ack = none →
      Away s batch
  | answering (outcome : WalletPoller.BatchOutcome) : s.outbox = none → s.channel = [] →
      s.processor = .answering batch outcome → s.ack = none →
      (leftWork outcome = false → Registered ring keypair s.registry batch.requests) → Away s batch
  | answered (outcome : WalletPoller.BatchOutcome) : s.outbox = none → s.channel = [] →
      s.processor = .waiting → s.ack = some (batch.id, outcome) →
      (leftWork outcome = false → Registered ring keypair s.registry batch.requests) → Away s batch

inductive Stands (s : System) : Prop
  | home : Calm s.poller → Empty s →
      Tallied leftWork (Registered ring keypair s.registry) none s.shown → Stands s
  | away (batch : WalletBatch) (next : Option String) : s.poller.phase = .sent next →
      batch.id + 1 = s.sent → Away ring keypair s batch →
      Tallied leftWork (Registered ring keypair s.registry) (some batch.requests) s.shown → Stands s

structure Inv (s : System) : Prop where
  accounted : Accounted leftWork (view s.poller) s.shown
  stands : Stands ring keypair s
  ends : Everywhere (EndsSettled leftWork (Registered ring keypair s.registry)) s.shown
  listed : ∀ input ∈ s.registry, ∃ requests next, .page requests next ∈ s.shown ∧
    input ∈ wallets ring keypair requests

variable {ring keypair}

theorem registered_nil (registry : List PopulateManagedWalletInput) :
    Registered ring keypair registry [] := List.nil_subset _

theorem Registered.mono {registry more : List PopulateManagedWalletInput} (sub : registry ⊆ more)
    (requests : List DeriveWalletRequest) (h : Registered ring keypair registry requests) :
    Registered ring keypair more requests := List.Subset.trans h sub

theorem start_inv : Inv ring keypair start where
  accounted := .initial leftWork rfl rfl
  stands := by
    refine .home (calm_of_phase rfl ⟨fun _ => Phase.noConfusion, Phase.noConfusion⟩)
      ⟨rfl, rfl, rfl, rfl⟩ fun _ requests next member => ?_
    cases member
  ends := Everywhere.nil _
  listed _ member := by cases member

theorem polled_quiet {s : System} {e : Event} {t : State} {os : List Shown}
    (noAck : ∀ outcome deferred, e ≠ .ack outcome deferred) (quiet : emitted os = none) :
    polled s e t os = { s with poller := t, shown := os ++ s.shown } := by
  cases e with
  | ack outcome deferred => exact absurd rfl (noAck outcome deferred)
  | _ => simp only [polled, quiet]

theorem polled_hands {s : System} {e : Event} {t : State} {os : List Shown}
    {requests : List DeriveWalletRequest} (noAck : ∀ outcome deferred, e ≠ .ack outcome deferred)
    (hands : emitted os = some requests) :
    polled s e t os = { s with
      poller := t
      shown := os ++ s.shown
      outbox := some ⟨s.sent, requests⟩
      sent := s.sent + 1 } := by
  cases e with
  | ack outcome deferred => exact absurd rfl (noAck outcome deferred)
  | _ => simp only [polled, hands]

theorem polled_ack {s : System} {outcome : WalletPoller.BatchOutcome} {deferred : Bool} {t : State}
    {os : List Shown} (answers : Answers outcome os) :
    polled s (.ack outcome deferred) t os =
      { s with poller := t, shown := os ++ s.shown, ack := none } := by
  rcases answers with rfl | ⟨attempt, rfl⟩ <;> rfl

theorem Inv.listed_before {s : System} (inv : Inv ring keypair s) (os : List Shown) :
    ∀ input ∈ s.registry, ∃ requests next, .page requests next ∈ os ++ s.shown ∧
      input ∈ wallets ring keypair requests := by
  intro input member
  obtain ⟨requests, next, page, inside⟩ := inv.listed input member
  exact ⟨requests, next, List.mem_append_right os page, inside⟩

theorem home_poll {s : System} {e : Event} {t : State} {os : List Shown} (inv : Inv ring keypair s)
    (calm : Calm s.poller) (empty : Empty s)
    (tallied : Tallied leftWork (Registered ring keypair s.registry) none s.shown)
    (h : WalletPoller.step s.poller e = some (t, os))
    (noAck : ∀ outcome deferred, e ≠ .ack outcome deferred) :
    Inv ring keypair (polled s e t os) := by
  have accounted := (WalletPoller.step_move h).accounted inv.accounted
  have nothing : Registered ring keypair s.registry [] := registered_nil s.registry
  cases step_turn calm h with
  | rests emits quiet calm' =>
    rw [polled_quiet noAck quiet]
    exact ⟨accounted, .home calm' ⟨empty.outbox, empty.channel, empty.processor, empty.ack⟩
      (emits.tallied nothing tallied), emits.ends tallied inv.ends, inv.listed_before os⟩
  | hands requests next emits hands phase =>
    rw [polled_hands noAck hands]
    exact ⟨accounted, .away ⟨s.sent, requests⟩ next phase rfl
      (.sending rfl empty.channel empty.processor empty.ack) (emits.tallied nothing tallied),
      emits.ends tallied inv.ends, inv.listed_before os⟩

theorem away_poll {s : System} {e : Event} {t : State} {os : List Shown} (inv : Inv ring keypair s)
    {batch : WalletBatch} {next : Option String} (phase : s.poller.phase = .sent next)
    (away : Away ring keypair s batch)
    (tallied : Tallied leftWork (Registered ring keypair s.registry) (some batch.requests) s.shown)
    (may : mayPoll s e = true) (h : WalletPoller.step s.poller e = some (t, os)) :
    Inv ring keypair (polled s e t os) := by
  have accounted := (WalletPoller.step_move h).accounted inv.accounted
  rcases step_away phase h with rfl | ⟨outcome, deferred, rfl, calm, answers⟩
  · cases may
  rw [polled_ack answers]
  have answered : s.outbox = none ∧ s.channel = [] ∧ s.processor = .waiting ∧
      (leftWork outcome = false → Registered ring keypair s.registry batch.requests) := by
    cases away with
    | answered result outbox channel processor ack taken =>
      simp only [mayPoll, ack, Bool.and_eq_true, decide_eq_true_eq] at may
      obtain rfl := may.2
      exact ⟨outbox, channel, processor, taken⟩
    | sending _ _ _ ack => simp [mayPoll, ack] at may
    | waiting _ _ _ ack => simp [mayPoll, ack] at may
    | populating _ _ _ ack => simp [mayPoll, ack] at may
    | answering _ _ _ _ ack => simp [mayPoll, ack] at may
  obtain ⟨outbox, channel, processor, taken⟩ := answered
  exact ⟨accounted, .home calm ⟨outbox, channel, processor, rfl⟩
    (answers.tallied (registered_nil s.registry) tallied taken), answers.ends inv.ends,
    inv.listed_before os⟩

theorem Inv.carry {s t : System} (inv : Inv ring keypair s) (poller : t.poller = s.poller)
    (shown : t.shown = s.shown) (sent : t.sent = s.sent) (grown : s.registry ⊆ t.registry)
    (listed : ∀ input ∈ t.registry, ∃ requests next, .page requests next ∈ s.shown ∧
      input ∈ wallets ring keypair requests)
    (busy : Empty s → False)
    (away : ∀ batch, Away ring keypair s batch → Away ring keypair t batch) :
    Inv ring keypair t := by
  refine ⟨by rw [poller, shown]; exact inv.accounted, ?_, ?_, by rw [shown]; exact listed⟩
  · cases inv.stands with
    | home _ empty _ => exact (busy empty).elim
    | away batch next phase number flight tallied =>
      exact .away batch next (by rw [poller, phase]) (by rw [sent, number]) (away batch flight)
        (by rw [shown]; exact tallied.mono (Registered.mono grown))
  · rw [shown]
    intro o earlier suffix
    exact (inv.ends o earlier suffix).mono (Registered.mono grown)

theorem step_inv {s t : System} {a : Action} (inv : Inv ring keypair s) (honest : Honest s a)
    (h : step ring keypair s a = some t) : Inv ring keypair t := by
  cases a with
  | poll e =>
    simp only [step] at h
    split at h
    · rename_i may
      obtain ⟨⟨poller, os⟩, stepped, rfl⟩ := Option.map_eq_some_iff.mp h
      cases inv.stands with
      | home calm empty tallied =>
        refine home_poll inv calm empty tallied stepped fun outcome deferred ack => ?_
        simp [ack, mayPoll, empty.ack] at may
      | away batch next phase number away tallied =>
        exact away_poll inv phase away tallied may stepped
    · cases h
  | enqueue =>
    simp only [step] at h
    split at h
    · rename_i found outbox
      split at h
      · obtain rfl := Option.some.inj h
        refine inv.carry rfl rfl rfl (List.Subset.refl _) inv.listed (fun empty => ?_)
          fun batch away => ?_
        · simp [empty.outbox] at outbox
        · cases away with
          | sending sent channel processor ack =>
            obtain rfl := Option.some.inj (sent.symm.trans outbox)
            exact .waiting rfl (by simp [channel]) processor ack
          | waiting gone => simp [gone] at outbox
          | populating gone => simp [gone] at outbox
          | answering _ gone => simp [gone] at outbox
          | answered _ gone => simp [gone] at outbox
      · cases h
    · cases h
  | receive =>
    simp only [step] at h
    split at h
    · rename_i found rest processor channel
      obtain rfl := Option.some.inj h
      refine inv.carry rfl rfl rfl (List.Subset.refl _) inv.listed (fun empty => ?_)
        fun batch away => ?_
      · simp [empty.channel] at channel
      · cases away with
        | waiting outbox only _ ack =>
          rw [only] at channel
          obtain ⟨rfl, rfl⟩ := List.cons.inj channel
          exact .populating outbox rfl rfl ack
        | sending _ none_ => simp [none_] at channel
        | populating _ none_ => simp [none_] at channel
        | answering _ _ none_ => simp [none_] at channel
        | answered _ _ none_ => simp [none_] at channel
    · cases h
  | apply chosen =>
    simp only [step] at h
    split at h
    · rename_i found submitted processor
      split at h
      · rename_i part
        obtain rfl := Option.some.inj h
        have more : s.registry ⊆ chosen ++ s.registry := List.subset_append_right _ _
        refine inv.carry rfl rfl rfl more (fun input member => ?_) (fun empty => ?_)
          fun batch away => ?_
        · rcases List.mem_append.mp member with new | old
          · cases inv.stands with
            | home _ empty => simp [empty.processor] at processor
            | away batch _ phase number away tallied =>
              obtain ⟨_, next, earlier, shape, -⟩ := tallied
              refine ⟨batch.requests, next, by simp [shape], ?_⟩
              cases away with
              | populating _ _ at_ _ =>
                obtain ⟨rfl, rfl⟩ := Processor.populating.inj (at_.symm.trans processor)
                exact part new
              | sending _ _ at_ => simp [at_] at processor
              | waiting _ _ at_ => simp [at_] at processor
              | answering _ _ _ at_ => simp [at_] at processor
              | answered _ _ _ at_ => simp [at_] at processor
          · exact inv.listed input old
        · simp [empty.processor] at processor
        · cases away with
          | sending outbox channel at_ ack => exact .sending outbox channel at_ ack
          | waiting outbox channel at_ ack => exact .waiting outbox channel at_ ack
          | populating outbox channel at_ ack => exact .populating outbox channel at_ ack
          | answering outcome outbox channel at_ ack taken =>
            exact .answering outcome outbox channel at_ ack fun done_ =>
              (taken done_).mono more
          | answered outcome outbox channel at_ ack taken =>
            exact .answered outcome outbox channel at_ ack fun done_ =>
              (taken done_).mono more
      · cases h
    · cases h
  | conclude send =>
    simp only [step] at h
    split at h
    · rename_i found submitted processor
      obtain rfl := Option.some.inj h
      refine inv.carry rfl rfl rfl (List.Subset.refl _) inv.listed (fun empty => ?_)
        fun batch away => ?_
      · simp [empty.processor] at processor
      · cases away with
        | populating outbox channel at_ ack =>
          obtain ⟨rfl, rfl⟩ := Processor.populating.inj (at_.symm.trans processor)
          refine .answering _ outbox channel rfl ack fun clean => ?_
          have completed : deriveWallets send (wallets ring keypair batch.requests) = .completed := by
            simpa [leftWork] using clean
          exact honest send batch _ rfl processor (deriveWallets_completed.mp completed)
        | sending _ _ at_ => simp [at_] at processor
        | waiting _ _ at_ => simp [at_] at processor
        | answering _ _ _ at_ => simp [at_] at processor
        | answered _ _ _ at_ => simp [at_] at processor
    · cases h
  | acknowledge =>
    simp only [step] at h
    split at h
    · rename_i found outcome processor
      obtain rfl := Option.some.inj h
      refine inv.carry rfl rfl rfl (List.Subset.refl _) inv.listed (fun empty => ?_)
        fun batch away => ?_
      · simp [empty.processor] at processor
      · cases away with
        | answering result outbox channel at_ ack taken =>
          obtain ⟨rfl, rfl⟩ := Processor.answering.inj (at_.symm.trans processor)
          exact .answered result outbox channel rfl rfl taken
        | sending _ _ at_ => simp [at_] at processor
        | waiting _ _ at_ => simp [at_] at processor
        | populating _ _ at_ => simp [at_] at processor
        | answered _ _ _ at_ => simp [at_] at processor
    · cases h

theorem calm_alive {poller : State} (calm : Calm poller) :
    ∃ e, (WalletPoller.step poller e).isSome ∧ e ≠ .consumerGone ∧
      ∀ outcome deferred, e ≠ .ack outcome deferred := by
  cases phase : poller.phase with
  | loopHead =>
    refine ⟨.start, ?_, Event.noConfusion, fun _ _ => Event.noConfusion⟩
    cases fetch : poller.fetchNow <;> simp [WalletPoller.step, phase, fetch]
  | idleWait =>
    exact ⟨.wake, by simp [WalletPoller.step, phase], Event.noConfusion, fun _ _ => Event.noConfusion⟩
  | ready =>
    exact ⟨.begin, by simp [WalletPoller.step, phase], Event.noConfusion,
      fun _ _ => Event.noConfusion⟩
  | lookup fresh =>
    exact ⟨.reply unavailable false, by simp [WalletPoller.step, phase], Event.noConfusion,
      fun _ _ => Event.noConfusion⟩
  | sent next => exact absurd phase (calm.1 next)
  | retryWait =>
    exact ⟨.delayOver, by simp [WalletPoller.step, phase], Event.noConfusion,
      fun _ _ => Event.noConfusion⟩
  | exited => exact absurd phase calm.2

theorem unavailable_silent : ¬ RepliesWith (unavailable : Send Bool) mutationRetries true := by
  rintro ⟨response, body, replied, status, -⟩
  obtain rfl := Except.ok.inj (show Except.ok _ = Except.ok response from replied)
  cases status

theorem Inv.goes_on {s : System} (inv : Inv ring keypair s) :
    ∃ a, Honest s a ∧ (step ring keypair s a).isSome := by
  have plain : ∀ {a : Action}, (∀ send, a ≠ .conclude send) → Honest s a :=
    fun other send _ _ same => absurd same (other send)
  cases inv.stands with
  | home calm empty _ =>
    obtain ⟨e, alive, present, noAck⟩ := calm_alive calm
    have may : mayPoll s e = true := by
      cases e with
      | ack outcome deferred => exact absurd rfl (noAck outcome deferred)
      | consumerGone => exact absurd rfl present
      | _ => rfl
    exact ⟨.poll e, plain fun _ => Action.noConfusion, by
      rw [step, if_pos may, Option.isSome_map]
      exact alive⟩
  | away batch next phase number away _ =>
    cases away with
    | sending outbox channel processor ack =>
      exact ⟨.enqueue, plain fun _ => Action.noConfusion, by simp [step, outbox, channel]⟩
    | waiting outbox channel processor ack =>
      exact ⟨.receive, plain fun _ => Action.noConfusion, by simp [step, processor, channel]⟩
    | populating outbox channel processor ack =>
      refine ⟨.conclude unavailable, fun send _ _ same _ replies => ?_, by simp [step, processor]⟩
      obtain rfl := Action.conclude.inj same
      exact absurd replies unavailable_silent
    | answering outcome outbox channel processor ack taken =>
      exact ⟨.acknowledge, plain fun _ => Action.noConfusion, by simp [step, processor]⟩
    | answered outcome outbox channel processor ack taken =>
      exact ⟨.poll (.ack outcome false), plain fun _ => Action.noConfusion, by
        simp [step, mayPoll, ack, number, WalletPoller.step, phase]⟩

end Invariant

section Registered

variable {K : Type} (ring : Keyring K) (keypair : K) (verify : Bytes → Bytes → Bytes → Bool)

/-- Who signs a message with a key pair is believed by who has its public key. -/
def Verifies : Prop :=
  ∀ pair message, verify (ring.publicKey pair) message (ring.sign pair message).1 = true

/-- The key of an entry vouches for the daemon's account. -/
def Vouches (account : Bytes) (input : PopulateManagedWalletInput) : Prop :=
  ∃ key signature, hexDecode (input.publicKey.toList.drop 2) = .ok key ∧
    hexDecode (input.signedMessage.toList.drop 2) = .ok signature ∧
    verify key (utf8 ("EnjinPlatform.VerifyManagedWallet(0x" ++ hexEncode account ++ ")"))
      signature = true

variable {ring verify}

theorem populateInput_vouches (verifies : Verifies ring verify) (request : DeriveWalletRequest) :
    Vouches verify (ring.publicKey keypair) (populateInput ring keypair request) := by
  have stripped (bytes : Bytes) : hexDecode (("0x" ++ hexEncode bytes).toList.drop 2) = .ok bytes := by
    rw [String.toList_append]
    exact hexDecode_hexEncode bytes
  exact ⟨_, _, stripped _, stripped _, verifies _ _⟩

/-- Whatever the platform replies, what it takes are the wallets of listed rows, one for each
id, and each vouches for the daemon. A scan that ends with nothing owed has all its rows
registered, no other is followed by an idle wait, and the daemon never stands still. -/
theorem scanned_rows_registered (verifies : Verifies ring verify) {actions : List Action}
    {s : System} (path : Path (gated Honest (ofFn (step ring keypair))) start actions s) :
    (∀ input ∈ s.registry, Vouches verify (ring.publicKey keypair) input ∧
      (∃ requests next request, .page requests next ∈ s.shown ∧ request ∈ requests ∧
        input = populateInput ring keypair request) ∧
      ∀ other ∈ s.registry, other.externalId = input.externalId → other = input) ∧
    Everywhere (EndsSettled leftWork (Registered ring keypair s.registry)) s.shown ∧
    (∀ earlier, (.idleWait :: earlier) <:+ s.shown →
      Settled (Registered ring keypair s.registry) earlier) ∧
    s.poller.phase ≠ .exited ∧ ∃ a, Honest s a ∧ (step ring keypair s a).isSome := by
  have inv : Inv ring keypair s :=
    path.invariant (I := Inv ring keypair)
      (fun _ _ _ inv stepped => step_inv inv stepped.1 stepped.2) start_inv
  have source : ∀ input ∈ s.registry, ∃ requests next request, .page requests next ∈ s.shown ∧
      request ∈ requests ∧ input = populateInput ring keypair request := by
    intro input member
    obtain ⟨requests, next, page, inside⟩ := inv.listed input member
    obtain ⟨request, listed, rfl⟩ := List.mem_map.mp inside
    exact ⟨requests, next, request, page, listed, rfl⟩
  refine ⟨fun input member => ?_, inv.ends, fun earlier parked => ?_, ?_, inv.goes_on⟩
  · obtain ⟨requests, next, request, page, listed, rfl⟩ := source input member
    refine ⟨populateInput_vouches keypair verifies request, ⟨_, _, _, page, listed, rfl⟩, ?_⟩
    intro other member' same
    obtain ⟨-, -, request', -, -, rfl⟩ := source other member'
    cases request
    cases request'
    obtain rfl := same
    rfl
  · exact inv.ends _ earlier parked (inv.accounted.paced _ earlier parked)
  · cases inv.stands with
    | home calm _ _ => exact calm.2
    | away batch next phase number away _ =>
      rw [phase]
      exact Phase.noConfusion

end Registered

section Parked

/-- A key pair is a byte, and it signs the length of a message. -/
def lengthRing : Keyring UInt8 where
  publicKey k := List.replicate 32 k
  derive k junction := k + UInt8.ofNat junction.encoded.length
  sign k message := ⟨List.replicate 64 (k + UInt8.ofNat message.length), List.length_replicate⟩

def lengthVerify (key message signature : Bytes) : Bool :=
  signature = List.replicate 64 (key.headD 0 + UInt8.ofNat message.length)

theorem length_verifies : Verifies lengthRing lengthVerify := fun _ _ => decide_eq_true rfl

def twoRows : PendingPage := ⟨[⟨some "a"⟩, ⟨none⟩], none⟩

def sendTwo : List Action :=
  [.poll .start, .poll .begin, .poll (.reply (answers (some twoRows)) false), .enqueue, .receive]

def afterSend : System := (run (step lengthRing 7) start sendTwo).getD start

def parkTwo : List Action := [.acknowledge, .poll (.ack .completed false), .poll .start]

theorem scanned_rows_registered_parked :
    ∃ s, Path (gated Honest (ofFn (step lengthRing 7))) start
        (sendTwo ++ [.apply (wallets lengthRing 7 [⟨"a"⟩])] ++ [.conclude (answers true)] ++
          parkTwo) s ∧
      s.poller.phase = .idleWait ∧ wallets lengthRing 7 [⟨"a"⟩] ⊆ s.registry := by
  have honest : ∀ {actions : List Action} {s t : System},
      Path (ofFn (step lengthRing 7)) s actions t → (∀ send, .conclude send ∉ actions) →
      Path (gated Honest (ofFn (step lengthRing 7))) s actions t := fun path none_ =>
    path.gate fun a member _ send _ _ same => absurd (same ▸ member) (none_ send)
  have sent : Path (ofFn (step lengthRing 7)) start sendTwo afterSend := Path.of_run rfl
  have processor : afterSend.processor =
    .populating ⟨0, [⟨"a"⟩]⟩ (wallets lengthRing 7 [⟨"a"⟩]) := rfl
  have applied : Path (ofFn (step lengthRing 7)) afterSend
      [.apply (wallets lengthRing 7 [⟨"a"⟩])]
      { afterSend with registry := wallets lengthRing 7 [⟨"a"⟩] ++ [] } := by
    refine Path.single ?_
    rw [ofFn, step, processor]
    exact if_pos (List.Subset.refl _)
  have concluded : gated Honest (ofFn (step lengthRing 7))
      { afterSend with registry := wallets lengthRing 7 [⟨"a"⟩] ++ [] } (.conclude (answers true))
      { afterSend with
        registry := wallets lengthRing 7 [⟨"a"⟩] ++ []
        processor := .answering ⟨0, [⟨"a"⟩]⟩ .completed } := by
    refine ⟨fun send batch submitted _ at_ _ => ?_, rfl⟩
    obtain ⟨rfl, rfl⟩ := Processor.populating.inj (at_.symm.trans processor)
    exact List.subset_append_left _ _
  have parked : Path (ofFn (step lengthRing 7)) { afterSend with
      registry := wallets lengthRing 7 [⟨"a"⟩] ++ []
      processor := .answering ⟨0, [⟨"a"⟩]⟩ .completed } parkTwo _ := Path.of_run rfl
  have path := (((honest sent (by simp [sendTwo])).trans (honest applied (by simp))).trans
    (.single concluded)).trans (honest parked (by simp [parkTwo]))
  refine ⟨_, path, rfl, ?_⟩
  have registered := (scanned_rows_registered 7 length_verifies path).2.2.1
  exact registered _ (List.suffix_refl _) [⟨"a"⟩] none (.tail _ (.tail _ (.head _)))

end Parked

end WalletDaemon.WalletProtocol
