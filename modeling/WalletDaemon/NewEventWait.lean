import WalletDaemon.PusherConnection
import WalletDaemon.Transition
import WalletDaemon.WaitQueue
import WalletDaemon.WorkTrigger
import Mathlib.Algebra.BigOperators.Group.Finset.Basic
import Mathlib.Logic.Function.Basic
import Mathlib.Data.Fintype.Basic

/-! Any number of waits on one trigger, interleaved with its updates. A wait for a
new event must return after an event or a force that follows its baseline, and
only then. -/

namespace WalletDaemon.NewEventWait

open Notify PusherConnection Transition WorkTrigger

variable {ι : Type}

/-- A trigger and the waits on it. `owed` counts the updates whose notification has
yet to come. For each wait are kept whether it is for a new event, the events
recorded up to its baseline, and whether a force came since. -/
structure Crowd (ι : Type) where
  now : Nat
  inner : Inner (Queue ι)
  waits : ι → Wait
  owed : Nat
  recorded : Nat
  asked : ι → Bool
  marks : ι → Nat
  forcedSince : ι → Bool

inductive Action (ι : Type)
  | call (i : ι) (newEvent : Bool)
  | proceed (i : ι)
  | expire (i : ι)
  | drop (i : ι)
  | update (u : Update)
  | notify
  | pass (time : Nat)

namespace Crowd

/-- Nothing waits; the trigger and a stored permit are arbitrary. -/
def start (state : TriggerState) (permit : Bool) (now : Nat) : Crowd ι where
  now
  inner := ⟨state, ⟨permit, [], []⟩⟩
  waits _ := .absent
  owed := 0
  recorded := 0
  asked _ := false
  marks _ := 0
  forcedSince _ := false

def Awaits (w : Crowd ι) (i : ι) : Prop := ∃ kind deadline, w.waits i = .await kind deadline

/-- An event or a force followed the baseline of the wait. -/
def News (w : Crowd ι) (i : ι) : Prop := w.marks i < w.recorded ∨ w.forcedSince i = true

variable [DecidableEq ι]

def asleep (w : Crowd ι) (i : ι) : Bool :=
  match w.waits i with
  | .await _ _ => i ∈ w.inner.notify.waiting
  | _ => false

/-- An update and its notification are two steps; a future that sleeps is not polled. -/
def step (w : Crowd ι) : Action ι → Option (Crowd ι)
  | .call i newEvent =>
    if w.waits i = .absent ∨ w.waits i = .done then
      some { w with
        waits := Function.update w.waits i (if newEvent then waitForNewEvent else waitUntilReady)
        asked := Function.update w.asked i newEvent }
    else none
  | .proceed i =>
    if w.asleep i then none
    else (proceed (waiter i) w.now w.inner (w.waits i)).map fun moved =>
      { w with
        inner := moved.2
        waits := Function.update w.waits i moved.1
        marks := if w.waits i = .baseline then Function.update w.marks i w.recorded else w.marks
        forcedSince := if w.waits i = .baseline then Function.update w.forcedSince i false
          else w.forcedSince }
  | .expire i => (expire (waiter i) w.now w.inner (w.waits i)).map fun moved =>
      { w with inner := moved.2, waits := Function.update w.waits i moved.1 }
  | .drop i =>
    some { w with
      inner := abandon (waiter i) w.inner (w.waits i)
      waits := Function.update w.waits i .absent }
  | .update .recordEvent =>
    some { w with
      inner := { w.inner with state := w.inner.state.recordEvent w.now }
      owed := w.owed + 1
      recorded := w.recorded + 1 }
  | .update .force =>
    some { w with
      inner := { w.inner with state := w.inner.state.force }
      owed := w.owed + 1
      forcedSince := fun _ => true }
  | .notify =>
    if 0 < w.owed then
      some { w with
        inner := { w.inner with notify := w.inner.notify.notifyOne }
        owed := w.owed - 1 }
    else none
  | .pass time => some { w with now := w.now + time }

def total (w : Crowd ι) : Nat := w.inner.notify.pending + w.owed

/-- A wait for a new event that has news and may still sleep. -/
def Due (w : Crowd ι) (i : ι) : Prop := w.Awaits i ∧ w.asked i = true ∧ w.News i

/-- Nothing is left to run: what waits is asleep. -/
def Settled (w : Crowd ι) : Prop :=
  w.owed = 0 ∧ ∀ i, w.waits i = .absent ∨ w.waits i = .done ∨ w.asleep i = true

end Crowd

def kind : Wait → Option WaitKind
  | .check kind => some kind
  | .await kind _ => some kind
  | _ => none

/-- A trigger that was forced is not forced again before the next event, while a
wait has that baseline. A wait takes a notification only where one is left for a
due wait besides it. -/
def Distinct [DecidableEq ι] (w : Crowd ι) : Action ι → Prop
  | .update .force => ∀ i generation, kind (w.waits i) = some (.newEvent generation true) →
      w.marks i < w.recorded
  | .proceed i => w.Awaits i → ((waiter i).poll w.inner.notify).1 = true →
      (∀ j, j ≠ i → ¬ w.Due j) ∨ 2 ≤ w.total
  | _ => True

/-- A wait for a new event has returned only with news, and does not sleep on with
news where nothing is left to run. -/
structure Exact [DecidableEq ι] (w : Crowd ι) : Prop where
  returned : ∀ i, w.asked i = true → w.waits i = .done → w.News i
  awake : w.Settled → ∀ i, w.asked i = true → w.Awaits i → ¬ w.News i

/-- The steps of the waits themselves, and the notifications that are owed. -/
def Runs : Action ι → Prop
  | .proceed _ => True
  | .notify => True
  | _ => False

section Tracking

variable {w w' : Crowd ι} {i j : ι} {generation : UInt64} {baselineForced : Bool}

structure Baseline (w : Crowd ι) (i : ι) (generation : UInt64) (baselineForced : Bool) : Prop where
  asked : w.asked i = true
  before : w.marks i ≤ w.recorded
  events : w.inner.state.eventGeneration = generation + UInt64.ofNat (w.recorded - w.marks i)
  forces : w.inner.state.forced = true ↔ baselineForced = true ∨ w.forcedSince i = true
  clear : baselineForced = true → w.marks i = w.recorded → w.forcedSince i = false

structure Tracked (w : Crowd ι) (i : ι) : Prop where
  baseline : w.waits i = .baseline → w.asked i = true
  untilReady : kind (w.waits i) = some .untilReady → w.asked i = false
  newEvent : ∀ generation baselineForced,
    kind (w.waits i) = some (.newEvent generation baselineForced) →
      Baseline w i generation baselineForced
  returned : w.asked i = true → w.waits i = .done → w.News i

/-- Fewer events than the generation counts do not bring it back. -/
theorem add_ofNat_eq_self {n : Nat} (few : n < 2 ^ 64) :
    generation + UInt64.ofNat n = generation ↔ n = 0 := by
  rw [← UInt64.toNat_inj, UInt64.toNat_add, UInt64.toNat_ofNat']
  have bound := generation.toNat_lt
  omega

theorem Baseline.satisfied_iff (h : Baseline w i generation baselineForced)
    (few : w.recorded < 2 ^ 64) :
    WaitKind.satisfied (.newEvent generation baselineForced) w.now w.inner.state = true ↔
      w.News i := by
  have before := h.before
  have same : w.inner.state.eventGeneration = generation ↔ ¬ w.marks i < w.recorded := by
    rw [h.events, add_ofNat_eq_self (by omega)]
    omega
  have forces := h.forces
  have clear := h.clear
  by_cases later : w.marks i < w.recorded
  · simp [WaitKind.satisfied, same, Crowd.News, later]
  · have recorded : w.marks i = w.recorded := by omega
    cases baselineForced with
    | false => simpa [WaitKind.satisfied, same, Crowd.News, later] using forces
    | true => simpa [WaitKind.satisfied, same, Crowd.News, later] using clear rfl recorded

/-- All but some waits, and what their baselines are held against, are as before. -/
structure Keeps (touched : ι → Prop) (w w' : Crowd ι) : Prop where
  waits : ∀ j, ¬ touched j → w'.waits j = w.waits j
  asked : ∀ j, ¬ touched j → w'.asked j = w.asked j
  marks : ∀ j, ¬ touched j → w'.marks j = w.marks j
  forcedSince : ∀ j, ¬ touched j → w'.forcedSince j = w.forcedSince j
  recorded : w'.recorded = w.recorded
  state : w'.inner.state = w.inner.state

variable {touched : ι → Prop}

theorem Keeps.tracked (keeps : Keeps touched w w') (other : ¬ touched j) (h : Tracked w j) :
    Tracked w' j := by
  have waits := keeps.waits j other
  have asked := keeps.asked j other
  have marks := keeps.marks j other
  have forcedSince := keeps.forcedSince j other
  refine ⟨?_, ?_, fun generation baselineForced at_ => ?_, ?_⟩
  · rw [waits, asked]
    exact h.baseline
  · rw [waits, asked]
    exact h.untilReady
  · rw [waits] at at_
    obtain ⟨newEvent, before, events, forces, clear⟩ := h.newEvent _ _ at_
    constructor
    all_goals simpa only [asked, marks, forcedSince, keeps.recorded, keeps.state]
  · rw [waits, asked, Crowd.News, marks, forcedSince, keeps.recorded]
    exact h.returned

theorem Keeps.awaits (keeps : Keeps touched w w') (other : ¬ touched j) :
    w'.Awaits j ↔ w.Awaits j := by
  rw [Crowd.Awaits, keeps.waits j other]
  rfl

theorem Keeps.due (keeps : Keeps touched w w') (other : ¬ touched j) : w'.Due j ↔ w.Due j := by
  rw [Crowd.Due, keeps.awaits other, keeps.asked j other, Crowd.News, keeps.marks j other,
    keeps.forcedSince j other, keeps.recorded]
  rfl

/-- The invariant: while a wait is due, a notification is on its way. -/
structure Sound (w : Crowd ι) : Prop where
  queue : w.inner.notify.Sound w.Awaits
  tracked : ∀ i, Tracked w i
  served : ∀ i, w.Due i → 0 < w.total

theorem sound_start (state : TriggerState) (permit : Bool) (now : Nat) :
    Sound (.start state permit now : Crowd ι) := by
  refine ⟨⟨by simp [Crowd.start, Queue.polled], by simp [Crowd.start, Queue.polled], fun _ => rfl⟩,
    fun i => ⟨nofun, nofun, nofun, nofun⟩, ?_⟩
  rintro i ⟨⟨kind, deadline, at_⟩, -, -⟩
  cases at_

/-- The notifications that are left serve the other waits. -/
theorem Keeps.served (keeps : Keeps (· = i) w w') (calm : ¬ w'.Due i)
    (served : ∀ j, j ≠ i → w.Due j → 0 < w'.total) (j : ι) (due : w'.Due j) : 0 < w'.total := by
  have other : j ≠ i := by
    rintro rfl
    exact calm due
  exact served j other ((keeps.due other).mp due)

theorem Keeps.all_tracked (keeps : Keeps (· = i) w w') (h : ∀ j, Tracked w j)
    (tracked : Tracked w' i) (j : ι) : Tracked w' j := by
  by_cases same : j = i
  · rw [same]
    exact tracked
  · exact keeps.tracked same (h j)

theorem Keeps.queue (keeps : Keeps (· = i) w w') (h : w'.inner.notify.Sound w.Awaits)
    (free : i ∉ w'.inner.notify.polled) : w'.inner.notify.Sound w'.Awaits := by
  refine h.mono fun j held => ?_
  have other : j ≠ i := by
    rintro rfl
    exact free held
  exact (keeps.awaits other).mpr (h.awaits j held)

theorem Sound.free (h : Sound w) (idle : ¬ w.Awaits i) : i ∉ w.inner.notify.polled :=
  fun held => idle (h.queue.awaits i held)

variable [DecidableEq ι]

theorem call_sound (h : Sound w) (newEvent : Bool)
    (stepped : w.step (.call i newEvent) = some w') : Sound w' := by
  simp only [Crowd.step] at stepped
  split at stepped
  · rename_i idle
    cases stepped
    have free : ¬ w.Awaits i := by
      rintro ⟨kind, deadline, at_⟩
      simp [at_] at idle
    have keeps : Keeps (· = i) w { w with
        waits := Function.update w.waits i (if newEvent then waitForNewEvent else waitUntilReady)
        asked := Function.update w.asked i newEvent } := by
      refine ⟨?_, ?_, fun _ _ => rfl, fun _ _ => rfl, rfl, rfl⟩
      all_goals
        intro j other
        exact Function.update_of_ne other _ _
    refine ⟨keeps.queue h.queue (h.free free), keeps.all_tracked h.tracked ?_,
      keeps.served ?_ fun j _ due => h.served j due⟩
    · cases newEvent with
      | true =>
        constructor
        all_goals simp [waitForNewEvent, kind]
      | false =>
        constructor
        all_goals simp [waitUntilReady, kind]
    · rintro ⟨⟨kind, deadline, at_⟩, -, -⟩
      cases newEvent <;> simp [waitForNewEvent, waitUntilReady] at at_
  · cases stepped

def Crowd.go (w : Crowd ι) (i : ι) (wait : Wait) (notify : Queue ι) : Crowd ι :=
  { w with inner := { w.inner with notify }, waits := Function.update w.waits i wait }

theorem keeps_go (wait : Wait) (notify : Queue ι) : Keeps (· = i) w (w.go i wait notify) :=
  ⟨fun _ other => Function.update_of_ne other _ _, fun _ _ => rfl, fun _ _ => rfl, fun _ _ => rfl,
    rfl, rfl⟩

@[simp] theorem go_waits (wait : Wait) (notify : Queue ι) :
    (w.go i wait notify).waits i = wait := Function.update_self _ _ _

theorem step_check {k : WaitKind} (at_ : w.waits i = .check k) :
    w.step (.proceed i) = some (w.go i
      (if k.satisfied w.now w.inner.state then .done else .await k (k.deadline w.inner.state))
      w.inner.notify) := by
  by_cases satisfied : k.satisfied w.now w.inner.state = true
  · simp [Crowd.step, Crowd.asleep, Crowd.go, at_, proceed, satisfied]
  · simp [Crowd.step, Crowd.asleep, Crowd.go, at_, proceed, satisfied]

theorem step_poll {k : WaitKind} {deadline : Option Nat} (at_ : w.waits i = .await k deadline)
    (awake : i ∉ w.inner.notify.waiting) :
    w.step (.proceed i) = some (w.go i
      (if (w.inner.notify.poll i).1 then .check k else .await k deadline)
      (w.inner.notify.poll i).2) := by
  cases completes : (w.inner.notify.poll i).1 with
  | true => simp [Crowd.step, Crowd.asleep, Crowd.go, at_, awake, proceed, waiter, completes]
  | false => simp [Crowd.step, Crowd.asleep, Crowd.go, at_, awake, proceed, waiter, completes]

theorem tracked_go (h : Tracked w i) {k : WaitKind} {wait : Wait}
    (was : kind (w.waits i) = some k) (is : kind wait = some k) (notify : Queue ι) :
    Tracked (w.go i wait notify) i := by
  refine ⟨?_, ?_, ?_, ?_⟩
  · rw [go_waits]
    rintro rfl
    cases is
  · rw [go_waits, is, ← was]
    exact h.untilReady
  · intro generation baselineForced same
    rw [go_waits, is, ← was] at same
    have baseline := h.newEvent _ _ same
    exact ⟨baseline.asked, baseline.before, baseline.events, baseline.forces, baseline.clear⟩
  · rw [go_waits]
    rintro - rfl
    cases is

theorem not_due_go (wait : Wait) (early : ∀ k deadline, wait ≠ .await k deadline)
    (notify : Queue ι) : ¬ (w.go i wait notify).Due i := by
  rintro ⟨⟨k, deadline, awaits⟩, -, -⟩
  rw [go_waits] at awaits
  exact early k deadline awaits

theorem step_capture (at_ : w.waits i = .baseline) :
    w.step (.proceed i) = some { w with
      waits := Function.update w.waits i
        (.check (.newEvent w.inner.state.eventGeneration w.inner.state.forced))
      marks := Function.update w.marks i w.recorded
      forcedSince := Function.update w.forcedSince i false } := by
  simp [Crowd.step, Crowd.asleep, at_, proceed]

theorem capture_sound (h : Sound w) (at_ : w.waits i = .baseline)
    (stepped : w.step (.proceed i) = some w') : Sound w' := by
  rw [step_capture at_] at stepped
  obtain rfl := Option.some.inj stepped
  have free : ¬ w.Awaits i := by
    rintro ⟨kind, deadline, awaits⟩
    rw [at_] at awaits
    cases awaits
  have keeps : Keeps (· = i) w { w with
      waits := Function.update w.waits i
        (.check (.newEvent w.inner.state.eventGeneration w.inner.state.forced))
      marks := Function.update w.marks i w.recorded
      forcedSince := Function.update w.forcedSince i false } := by
    refine ⟨?_, fun _ _ => rfl, ?_, ?_, rfl, rfl⟩
    all_goals
      intro j other
      exact Function.update_of_ne other _ _
  refine ⟨keeps.queue h.queue (h.free free), keeps.all_tracked h.tracked ⟨?_, ?_, ?_, ?_⟩,
    keeps.served ?_ fun j _ due => h.served j due⟩
  · simp
  · simp [kind]
  · intro generation baselineForced same
    obtain ⟨rfl, rfl⟩ : w.inner.state.eventGeneration = generation ∧
        w.inner.state.forced = baselineForced := by simpa [kind] using same
    refine ⟨(h.tracked i).baseline at_, ?_, ?_, ?_, ?_⟩
    all_goals simp
  · simp
  · rintro ⟨⟨kind, deadline, awaits⟩, -, -⟩
    simp at awaits

theorem check_sound (h : Sound w) (few : w.recorded < 2 ^ 64) {k : WaitKind}
    (at_ : w.waits i = .check k) (stepped : w.step (.proceed i) = some w') : Sound w' := by
  rw [step_check at_] at stepped
  obtain rfl := Option.some.inj stepped
  have tracked := h.tracked i
  have was : kind (w.waits i) = some k := by rw [at_, kind]
  have free : ¬ w.Awaits i := by
    rintro ⟨kind, deadline, awaits⟩
    rw [at_] at awaits
    cases awaits
  have news : w.asked i = true → (k.satisfied w.now w.inner.state = true ↔ w.News i) := by
    intro asked
    cases k with
    | untilReady =>
      have other := tracked.untilReady was
      rw [asked] at other
      cases other
    | newEvent generation baselineForced => exact (tracked.newEvent _ _ was).satisfied_iff few
  refine ⟨(keeps_go _ _).queue h.queue (h.free free), (keeps_go _ _).all_tracked h.tracked ?_,
    (keeps_go _ _).served ?_ fun j _ due => h.served j due⟩
  · by_cases satisfied : k.satisfied w.now w.inner.state = true
    · rw [if_pos satisfied]
      refine ⟨?_, ?_, ?_, fun asked _ => (news asked).mp satisfied⟩
      all_goals simp [kind]
    · rw [if_neg satisfied]
      exact tracked_go tracked was rfl _
  · rintro ⟨⟨l, deadline, awaits⟩, asked, told⟩
    rw [go_waits, if_pos ((news asked).mpr told)] at awaits
    cases awaits

theorem poll_sound (h : Sound w) {k : WaitKind} {deadline : Option Nat}
    (at_ : w.waits i = .await k deadline) (distinct : Distinct w (.proceed i))
    (stepped : w.step (.proceed i) = some w') : Sound w' := by
  have awake : i ∉ w.inner.notify.waiting := by
    intro asleep
    simp [Crowd.step, Crowd.asleep, at_, asleep] at stepped
  rw [step_poll at_ awake] at stepped
  obtain rfl := Option.some.inj stepped
  have was : kind (w.waits i) = some k := by rw [at_, kind]
  have awaits : w.Awaits i := ⟨k, deadline, at_⟩
  cases completes : (w.inner.notify.poll i).1 with
  | true =>
    obtain ⟨sound, free, -, taken⟩ := Queue.poll_completes h.queue completes
    rw [if_pos rfl]
    refine ⟨(keeps_go _ _).queue sound free,
      (keeps_go _ _).all_tracked h.tracked (tracked_go (h.tracked i) was rfl _),
      (keeps_go _ _).served (not_due_go (.check k) nofun _) fun j other due => ?_⟩
    rcases distinct awaits completes with alone | enough
    · exact absurd due (alone j other)
    · simp only [Crowd.total, Crowd.go] at enough ⊢
      omega
  | false =>
    obtain ⟨sound, -, -, same⟩ := Queue.poll_sleeps h.queue awaits completes
    rw [if_neg Bool.false_ne_true]
    have stays : ∀ j, (w.go i (.await k deadline) (w.inner.notify.poll i).2).Awaits j ↔
        w.Awaits j := by
      intro j
      by_cases other : j = i
      · rw [other]
        exact iff_of_true ⟨k, deadline, go_waits _ _⟩ awaits
      · exact (keeps_go _ _).awaits other
    refine ⟨sound.mono fun j held => (stays j).mpr (sound.awaits j held),
      (keeps_go _ _).all_tracked h.tracked (tracked_go (h.tracked i) was rfl _), fun j due => ?_⟩
    have served := h.served j ⟨(stays j).mp due.1, due.2.1, due.2.2⟩
    simp only [Crowd.total, Crowd.go] at served ⊢
    omega

theorem cancel_sound (h : Sound w) {wait : Wait} (early : ∀ k deadline, wait ≠ .await k deadline)
    (tracked : Tracked (w.go i wait (w.inner.notify.cancel i)) i) :
    Sound (w.go i wait (w.inner.notify.cancel i)) := by
  obtain ⟨sound, free, kept⟩ := Queue.cancel_sound (i := i) h.queue
  refine ⟨(keeps_go _ _).queue sound free, (keeps_go _ _).all_tracked h.tracked tracked,
    (keeps_go _ _).served (not_due_go wait early _) fun j _ due => ?_⟩
  have served := h.served j due
  simp only [Crowd.total, Crowd.go] at served ⊢
  omega

theorem expire_sound (h : Sound w) (stepped : w.step (.expire i) = some w') : Sound w' := by
  cases at_ : w.waits i with
  | await k deadline =>
    cases deadline with
    | none => simp [Crowd.step, at_, expire] at stepped
    | some deadline =>
      obtain ⟨-, rfl⟩ : deadline ≤ w.now ∧ w.go i (.check k) (w.inner.notify.cancel i) = w' := by
        simpa [Crowd.step, Crowd.go, at_, expire, waiter] using stepped
      exact cancel_sound h nofun (tracked_go (h.tracked i) (by rw [at_, kind]) rfl _)
  | _ => simp [Crowd.step, at_, expire] at stepped

theorem drop_sound (h : Sound w) (stepped : w.step (.drop i) = some w') : Sound w' := by
  obtain rfl := Option.some.inj stepped
  have tracked : ∀ notify, Tracked (w.go i .absent notify) i := by
    intro notify
    constructor
    all_goals simp [kind]
  by_cases awaits : w.Awaits i
  · obtain ⟨k, deadline, at_⟩ := awaits
    rw [at_]
    exact cancel_sound h nofun (tracked _)
  · have same : abandon (waiter i) w.inner (w.waits i) = w.inner := by
      cases at_ : w.waits i with
      | await k deadline => exact absurd ⟨k, deadline, at_⟩ awaits
      | _ => rfl
    rw [same]
    exact ⟨(keeps_go _ _).queue h.queue (h.free awaits),
      (keeps_go _ _).all_tracked h.tracked (tracked _),
      (keeps_go _ _).served (not_due_go .absent nofun _) fun j _ due => h.served j due⟩

theorem recordEvent_sound (h : Sound w) (stepped : w.step (.update .recordEvent) = some w') :
    Sound w' := by
  obtain rfl := Option.some.inj stepped
  refine ⟨h.queue, fun i => ?_, fun i _ => Nat.lt_add_left _ (Nat.succ_pos _)⟩
  have tracked := h.tracked i
  refine ⟨tracked.baseline, tracked.untilReady, fun generation baselineForced at_ => ?_,
    fun asked done => ?_⟩
  · obtain ⟨asked, before, events, forces, clear⟩ := tracked.newEvent _ _ at_
    refine ⟨asked, Nat.le_succ_of_le before, ?_, forces, fun _ same => ?_⟩
    · have later : w.recorded + 1 - w.marks i = w.recorded - w.marks i + 1 := by omega
      simp only [TriggerState.recordEvent, events, later, UInt64.ofNat_add, UInt64.add_assoc]
      rfl
    · dsimp only at same
      omega
  · rcases tracked.returned asked done with event | force
    · exact .inl (Nat.lt_succ_of_lt event)
    · exact .inr force

theorem force_sound (h : Sound w) (distinct : Distinct w (.update .force))
    (stepped : w.step (.update .force) = some w') : Sound w' := by
  obtain rfl := Option.some.inj stepped
  refine ⟨h.queue, fun i => ?_, fun i _ => Nat.lt_add_left _ (Nat.succ_pos _)⟩
  have tracked := h.tracked i
  refine ⟨tracked.baseline, tracked.untilReady, fun generation baselineForced at_ => ?_,
    fun _ _ => .inr rfl⟩
  obtain ⟨asked, before, events, -, -⟩ := tracked.newEvent _ _ at_
  refine ⟨asked, before, events, iff_of_true rfl (.inr rfl), fun forced same => ?_⟩
  rw [forced] at at_
  have event := distinct i generation at_
  dsimp only at same
  omega

theorem notify_sound (h : Sound w) (stepped : w.step .notify = some w') : Sound w' := by
  simp only [Crowd.step] at stepped
  split at stepped
  · cases stepped
    have keeps : Keeps (fun _ => False) w { w with
        inner := { w.inner with notify := w.inner.notify.notifyOne }
        owed := w.owed - 1 } :=
      ⟨fun _ _ => rfl, fun _ _ => rfl, fun _ _ => rfl, fun _ _ => rfl, rfl, rfl⟩
    refine ⟨Queue.notifyOne_sound h.queue, fun i => keeps.tracked id (h.tracked i), fun i _ => ?_⟩
    have sent := (Queue.notifyOne_pending w.inner.notify).1
    simp only [Crowd.total]
    omega
  · cases stepped

theorem pass_sound (h : Sound w) {time : Nat} (stepped : w.step (.pass time) = some w') :
    Sound w' := by
  obtain rfl := Option.some.inj stepped
  have keeps : Keeps (fun _ => False) w { w with now := w.now + time } :=
    ⟨fun _ _ => rfl, fun _ _ => rfl, fun _ _ => rfl, fun _ _ => rfl, rfl, rfl⟩
  exact ⟨h.queue, fun i => keeps.tracked id (h.tracked i), h.served⟩

theorem step_sound (h : Sound w) (few : w.recorded < 2 ^ 64) {a : Action ι}
    (distinct : Distinct w a) (stepped : w.step a = some w') : Sound w' := by
  cases a with
  | call i newEvent => exact call_sound h newEvent stepped
  | proceed i =>
    cases at_ : w.waits i with
    | baseline => exact capture_sound h at_ stepped
    | check k => exact check_sound h few at_ stepped
    | await k deadline => exact poll_sound h at_ distinct stepped
    | _ => simp [Crowd.step, Crowd.asleep, at_, proceed] at stepped
  | expire i => exact expire_sound h stepped
  | drop i => exact drop_sound h stepped
  | update u =>
    cases u with
    | force => exact force_sound h distinct stepped
    | recordEvent => exact recordEvent_sound h stepped
  | notify => exact notify_sound h stepped
  | pass time => exact pass_sound h stepped

theorem step_recorded {a : Action ι} (stepped : w.step a = some w') :
    w.recorded ≤ w'.recorded ∧ (Runs a → w'.recorded = w.recorded) := by
  cases a with
  | call i newEvent =>
    simp only [Crowd.step] at stepped
    split at stepped
    · cases stepped
      exact ⟨Nat.le_refl _, fun _ => rfl⟩
    · cases stepped
  | proceed i =>
    simp only [Crowd.step] at stepped
    split at stepped
    · cases stepped
    · obtain ⟨moved, -, rfl⟩ := Option.map_eq_some_iff.mp stepped
      exact ⟨Nat.le_refl _, fun _ => rfl⟩
  | expire i =>
    obtain ⟨moved, -, rfl⟩ := Option.map_eq_some_iff.mp stepped
    exact ⟨Nat.le_refl _, fun _ => rfl⟩
  | update u =>
    cases u with
    | force =>
      cases stepped
      exact ⟨Nat.le_refl _, fun _ => rfl⟩
    | recordEvent =>
      cases stepped
      exact ⟨Nat.le_succ _, nofun⟩
  | notify =>
    simp only [Crowd.step] at stepped
    split at stepped
    · cases stepped
      exact ⟨Nat.le_refl _, fun _ => rfl⟩
    · cases stepped
  | _ =>
    cases stepped
    exact ⟨Nat.le_refl _, fun _ => rfl⟩

/-- Nothing is owed where all sleep, so nothing is due. -/
theorem Sound.exact (h : Sound w) : Exact w := by
  refine ⟨fun i => (h.tracked i).returned, ?_⟩
  rintro ⟨paid, rests⟩ i asked awaits news
  have asleep : ∀ j, w.Awaits j → j ∈ w.inner.notify.waiting := by
    rintro j ⟨k, deadline, at_⟩
    simpa [at_, Crowd.asleep] using rests j
  have none_ : w.inner.notify.notified = [] := by
    rw [List.eq_nil_iff_forall_not_mem]
    intro j woken
    have held : j ∈ w.inner.notify.polled := List.mem_append_right _ woken
    exact List.disjoint_of_nodup_append h.queue.distinct (asleep j (h.queue.awaits j held)) woken
  have permit : w.inner.notify.permit = false := by
    by_contra permit
    have waits := asleep i awaits
    rw [h.queue.permit (by simpa using permit)] at waits
    cases waits
  have served := h.served i ⟨awaits, asked, news⟩
  simp [Crowd.total, Queue.pending, paid, none_, permit] at served

/-- A run that meets the condition keeps the invariant while the events are few. -/
theorem path_sound {state : TriggerState} {permit : Bool} {now : Nat} {es : List (Action ι)}
    (path : Path (gated Distinct (ofFn Crowd.step)) (.start state permit now) es w)
    (few : w.recorded < 2 ^ 64) : Sound w := by
  have kept : w.recorded < 2 ^ 64 → Sound w := by
    refine path.invariant (I := fun v => v.recorded < 2 ^ 64 → Sound v)
      (fun v a u before step few => ?_) fun _ => sound_start state permit now
    have fewer : v.recorded < 2 ^ 64 := Nat.lt_of_le_of_lt (step_recorded step.2).1 few
    exact step_sound (before fewer) fewer step.1 step.2
  exact kept few

theorem runs_of_not_settled (unsettled : ¬ w.Settled) :
    ∃ a, Runs a ∧ ∃ v, w.step a = some v := by
  by_cases paid : w.owed = 0
  · obtain ⟨i, busy⟩ : ∃ i, ¬ (w.waits i = .absent ∨ w.waits i = .done ∨ w.asleep i = true) := by
      by_contra rests
      exact unsettled ⟨paid, fun i => by_contra fun busy => rests ⟨i, busy⟩⟩
    refine ⟨.proceed i, trivial, ?_⟩
    cases at_ : w.waits i with
    | absent => simp [at_] at busy
    | done => simp [at_] at busy
    | baseline => simp [Crowd.step, Crowd.asleep, at_, proceed]
    | check k => exact ⟨_, step_check at_⟩
    | await k deadline =>
      have awake : i ∉ w.inner.notify.waiting := by simpa [at_, Crowd.asleep] using busy
      exact ⟨_, step_poll at_ awake⟩
  · exact ⟨.notify, trivial, _, if_pos (Nat.pos_of_ne_zero paid)⟩

/-- The steps a wait has before it sleeps or returns, unless it is notified. -/
def rank (w : Crowd ι) (i : ι) : Nat :=
  match w.waits i with
  | .baseline => 3
  | .check _ => 2
  | .await _ _ => if i ∈ w.inner.notify.polled then 0 else 1
  | _ => 0

theorem rank_eq (waits : w'.waits j = w.waits j)
    (held : j ∈ w'.inner.notify.polled ↔ j ∈ w.inner.notify.polled) : rank w' j = rank w j := by
  simp only [rank, waits, held]

variable [Fintype ι]

def effort (w : Crowd ι) : Nat :=
  ∑ i, rank w i + 4 * w.inner.notify.pending + 5 * w.owed

theorem sum_rank (others : ∀ j, j ≠ i → rank w' j = rank w j) :
    ∑ j, rank w' j + rank w i = ∑ j, rank w j + rank w' i := by
  rw [← Finset.add_sum_erase _ _ (Finset.mem_univ i),
    ← Finset.add_sum_erase _ (rank w) (Finset.mem_univ i)]
  have same : ∑ j ∈ Finset.univ.erase i, rank w' j = ∑ j ∈ Finset.univ.erase i, rank w j :=
    Finset.sum_congr rfl fun j other => others j (Finset.ne_of_mem_erase other)
  omega

theorem effort_lt (others : ∀ j, j ≠ i → rank w' j = rank w j) (same : w'.owed = w.owed)
    (less : rank w' i + 4 * w'.inner.notify.pending < rank w i + 4 * w.inner.notify.pending) :
    effort w' < effort w := by
  have sums := sum_rank others
  unfold effort
  omega

theorem poll_effort (queue : w.inner.notify.Sound w.Awaits) {k : WaitKind}
    {deadline : Option Nat} (at_ : w.waits i = .await k deadline)
    (awake : i ∉ w.inner.notify.waiting) (stepped : w.step (.proceed i) = some w') :
    effort w' < effort w := by
  rw [step_poll at_ awake] at stepped
  obtain rfl := Option.some.inj stepped
  cases completes : (w.inner.notify.poll i).1 with
  | true =>
    obtain ⟨-, -, others, taken⟩ := Queue.poll_completes queue completes
    rw [if_pos rfl]
    refine effort_lt (fun j other => rank_eq ((keeps_go _ _).waits j other) (others j other)) rfl ?_
    have after : rank (w.go i (.check k) (w.inner.notify.poll i).2) i = 2 := by
      rw [rank, go_waits]
    rw [after]
    simp only [Crowd.go]
    omega
  | false =>
    obtain ⟨-, asleep, others, same⟩ := Queue.poll_sleeps queue ⟨k, deadline, at_⟩ completes
    rw [if_neg Bool.false_ne_true]
    refine effort_lt (fun j other => rank_eq ((keeps_go _ _).waits j other) (others j other)) rfl ?_
    have fresh : i ∉ w.inner.notify.polled := by
      intro held
      rcases List.mem_append.mp held with waits | woken
      · exact awake waits
      · simp [Queue.poll, woken] at completes
    have before : rank w i = 1 := by simp [rank, at_, fresh]
    have after : rank (w.go i (.await k deadline) (w.inner.notify.poll i).2) i = 0 := by
      rw [rank, go_waits]
      exact if_pos (List.mem_append_left _ asleep)
    rw [before, after]
    simp only [Crowd.go]
    omega

theorem runs_effort (queue : w.inner.notify.Sound w.Awaits) {a : Action ι} (runs : Runs a)
    (stepped : w.step a = some w') : effort w' < effort w := by
  cases a with
  | proceed i =>
    cases at_ : w.waits i with
    | absent => simp [Crowd.step, Crowd.asleep, at_, proceed] at stepped
    | done => simp [Crowd.step, Crowd.asleep, at_, proceed] at stepped
    | baseline =>
      rw [step_capture at_] at stepped
      obtain rfl := Option.some.inj stepped
      refine effort_lt (fun j other => rank_eq (Function.update_of_ne other _ _) Iff.rfl) rfl ?_
      simp [rank, at_]
    | check k =>
      rw [step_check at_] at stepped
      obtain rfl := Option.some.inj stepped
      refine effort_lt (fun j other => rank_eq ((keeps_go _ _).waits j other) Iff.rfl) rfl ?_
      have free : i ∉ w.inner.notify.polled := by
        intro held
        obtain ⟨l, deadline, awaits⟩ := queue.awaits i held
        rw [at_] at awaits
        cases awaits
      have before : rank w i = 2 := by rw [rank, at_]
      rw [before, rank, go_waits]
      by_cases satisfied : k.satisfied w.now w.inner.state = true
      · simp [satisfied, Crowd.go]
      · simp [satisfied, Crowd.go, free]
    | await k deadline =>
      have awake : i ∉ w.inner.notify.waiting := by
        intro asleep
        simp [Crowd.step, Crowd.asleep, at_, asleep] at stepped
      exact poll_effort queue at_ awake stepped
  | notify =>
    simp only [Crowd.step] at stepped
    split at stepped
    · cases stepped
      have same : ∀ j, rank { w with
          inner := { w.inner with notify := w.inner.notify.notifyOne }
          owed := w.owed - 1 } j = rank w j := fun j =>
        rank_eq rfl (Queue.notifyOne_polled _).mem_iff
      have sent := (Queue.notifyOne_pending w.inner.notify).2
      simp only [effort, same]
      omega
    · cases stepped
  | _ => cases runs

theorem path_effort (h : Sound w) (few : w.recorded < 2 ^ 64) {es : List (Action ι)}
    (path : Path (gated (fun u a => Runs a ∧ Distinct u a) (ofFn Crowd.step)) w es w') :
    Sound w' ∧ w'.recorded < 2 ^ 64 ∧ es.length + effort w' ≤ effort w := by
  induction path with
  | refl => exact ⟨h, few, by simp⟩
  | snoc _ last ih =>
    obtain ⟨sound, fewer, spent⟩ := ih
    obtain ⟨⟨runs, distinct⟩, stepped⟩ := last
    have less := runs_effort sound.queue runs stepped
    refine ⟨step_sound sound fewer distinct stepped, ?_, ?_⟩
    · rw [(step_recorded stepped).2 runs]
      exact fewer
    · rw [List.length_append, List.length_singleton]
      omega

end Tracking

/-- In every run that meets the condition, a wait for a new event returns only with
news, and what is not settled has a step to take, and only so many before it is. -/
theorem newEvent_exact [DecidableEq ι] [Fintype ι] {state : TriggerState} {permit : Bool}
    {now : Nat} {es : List (Action ι)} {w : Crowd ι}
    (path : Path (gated Distinct (ofFn Crowd.step)) (.start state permit now) es w)
    (few : w.recorded < 2 ^ 64) :
    Exact w ∧ (¬ w.Settled → ∃ a, Runs a ∧ ∃ v, w.step a = some v) ∧
      ∀ fs v, Path (gated (fun u a => Runs a ∧ Distinct u a) (ofFn Crowd.step)) w fs v →
        fs.length ≤ effort w := by
  have sound := path_sound path few
  refine ⟨sound.exact, runs_of_not_settled, fun fs v onward => ?_⟩
  have spent := (path_effort sound few onward).2.2
  omega

section Runs

theorem distinct_alone (w : Crowd (Fin 1)) (i : Fin 1) : Distinct w (.proceed i) :=
  fun _ _ => .inl fun _ other => absurd (Subsingleton.elim _ _) other

/-- A stored permit wakes the wait once; the event ends it. -/
theorem newEvent_exact_permit :
    ∃ w : Crowd (Fin 1), Path (gated Distinct (ofFn Crowd.step)) (.start .initial true 0)
        [.call 0 true, .proceed 0, .proceed 0, .proceed 0, .proceed 0, .proceed 0,
          .update .recordEvent, .notify, .proceed 0, .proceed 0] w ∧
      w.waits 0 = .done ∧ Exact w := by
  have path : Path (gated Distinct (ofFn Crowd.step)) (.start .initial true 0 : Crowd (Fin 1))
      [.call 0 true, .proceed 0, .proceed 0, .proceed 0, .proceed 0, .proceed 0,
        .update .recordEvent, .notify, .proceed 0, .proceed 0] _ :=
    Path.gate_run (fun _ _ _ => id) rfl ⟨trivial, distinct_alone _ _, distinct_alone _ _,
      distinct_alone _ _, distinct_alone _ _, distinct_alone _ _, trivial, trivial,
      distinct_alone _ _, distinct_alone _ _, trivial⟩
  exact ⟨_, path, rfl, (newEvent_exact path (by decide)).1⟩

/-- A force after a baseline that was forced ends no wait; nor does an event whose
notification another wait takes. -/
theorem newEvent_missed :
    (¬ ∀ es w, Path (ofFn Crowd.step) (.start TriggerState.initial.force false 0 : Crowd (Fin 1))
        es w → w.recorded < 2 ^ 64 → Exact w) ∧
    ¬ ∀ es w, Path (ofFn Crowd.step) (.start .initial false 0 : Crowd (Fin 2)) es w →
        w.recorded < 2 ^ 64 → Exact w := by
  constructor
  · intro claim
    have exact_ := claim [.call 0 true, .proceed 0, .proceed 0, .proceed 0, .update .force, .notify,
      .proceed 0, .proceed 0, .proceed 0] _ (Path.of_run rfl) (by decide)
    exact exact_.awake ⟨rfl, Fin.forall_fin_one.mpr (.inr (.inr rfl))⟩ 0 rfl ⟨_, _, rfl⟩ (.inr rfl)
  · intro claim
    have exact_ := claim [.call 0 false, .proceed 0, .proceed 0, .call 1 true, .proceed 1,
      .proceed 1, .proceed 1, .update .recordEvent, .notify, .proceed 0, .proceed 0, .proceed 0] _
      (Path.of_run rfl) (by decide)
    exact exact_.awake ⟨rfl, Fin.forall_fin_two.mpr ⟨.inr (.inr rfl), .inr (.inr rfl)⟩⟩ 1 rfl
      ⟨_, _, rfl⟩ (.inl (by decide))

end Runs

end WalletDaemon.NewEventWait
