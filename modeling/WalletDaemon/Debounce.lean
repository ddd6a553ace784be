import WalletDaemon.Transition
import WalletDaemon.WorkTrigger
import Mathlib.Data.ENat.Basic
import Mathlib.Order.Bounds.Basic

/-! How long `wait_until_ready` lasts for a worker that is blocked on a cleared
trigger, with no force and every wake-up run at once. -/

namespace WalletDaemon.Debounce

open Notify Transition WorkTrigger

section ClosedForm

-- When each event comes, the first one first; `⊤` is never.
variable (times : ℕ → ℕ∞)

/-- No next event comes before the debounce of this one. -/
def Quiet (k : ℕ) : Prop := times k + eventDebounce ≤ times (k + 1)

def FirstQuiet (k : ℕ) : Prop := Quiet times k ∧ ∀ j < k, ¬ Quiet times j

/-- The earlier of the event that fills the count and the debounce of the first
quiet event. -/
def ReturnTime (r : ℕ∞) : Prop :=
  IsLeast {s | s = times (eventTriggerLimit - 1) ∨
    ∃ k, FirstQuiet times k ∧ s = times k + eventDebounce} r

variable {times}

theorem firstQuiet_unique {j k : ℕ} (first : FirstQuiet times j) (other : FirstQuiet times k) :
    j = k := by
  by_contra differ
  rcases Nat.lt_or_gt_of_ne differ with before | after
  · exact other.2 j before first.1
  · exact first.2 k after other.1

theorem returnTime_exists (times : ℕ → ℕ∞) : ∃ r, ReturnTime times r := by
  by_cases some_ : ∃ k, FirstQuiet times k
  · obtain ⟨k, first⟩ := some_
    refine ⟨min (times (eventTriggerLimit - 1)) (times k + eventDebounce), ?_, ?_⟩
    · rcases min_choice (times (eventTriggerLimit - 1)) (times k + eventDebounce) with full | quiet
      · exact .inl full
      · exact .inr ⟨k, first, quiet⟩
    · rintro s (rfl | ⟨j, other, rfl⟩)
      · exact min_le_left _ _
      · rw [firstQuiet_unique other first]
        exact min_le_right _ _
  · refine ⟨times (eventTriggerLimit - 1), .inl rfl, ?_⟩
    rintro s (rfl | ⟨k, first, -⟩)
    · exact le_rfl
    · exact absurd ⟨k, first⟩ some_

theorem times_le_of_loud {n : ℕ} (loud : ∀ j < n, ¬ Quiet times j) :
    times n ≤ times 0 + (n * eventDebounce : ℕ) := by
  induction n with
  | zero => simp
  | succ n ih =>
    have before := ih fun j less => loud j (by omega)
    have next : times (n + 1) < times n + eventDebounce := not_le.mp (loud n (by omega))
    calc times (n + 1) ≤ times n + eventDebounce := next.le
      _ ≤ times 0 + (n * eventDebounce : ℕ) + eventDebounce := by gcongr
      _ = times 0 + ((n + 1) * eventDebounce : ℕ) := by
        rw [add_assoc, ← Nat.cast_add, Nat.succ_mul]

theorem ReturnTime.le_bound {r : ℕ∞} (h : ReturnTime times r) :
    r ≤ times 0 + ((eventTriggerLimit - 1) * eventDebounce : ℕ) := by
  classical
  by_cases some_ : ∃ k, k < eventTriggerLimit - 1 ∧ Quiet times k
  · have spec := Nat.find_spec some_
    have loud : ∀ j < Nat.find some_, ¬ Quiet times j := fun j less quiet =>
      Nat.find_min some_ less ⟨less.trans spec.1, quiet⟩
    calc r ≤ times (Nat.find some_) + eventDebounce := h.2 (.inr ⟨_, ⟨spec.2, loud⟩, rfl⟩)
      _ ≤ times 0 + (Nat.find some_ * eventDebounce : ℕ) + eventDebounce := by
        gcongr
        exact times_le_of_loud loud
      _ ≤ times 0 + ((eventTriggerLimit - 1) * eventDebounce : ℕ) := by
        rw [add_assoc, ← Nat.cast_add, ← Nat.succ_mul]
        gcongr
        exact spec.1
  · have loud : ∀ j < eventTriggerLimit - 1, ¬ Quiet times j := fun j less quiet =>
      some_ ⟨j, less, quiet⟩
    exact (h.2 (.inl rfl)).trans (times_le_of_loud loud)

end ClosedForm

/-- A worker in `wait_until_ready`, and the events it is sent. -/
structure Waiting where
  now : ℕ
  recorded : ℕ
  inner : Inner Slot
  wait : Wait

inductive Event
  | proceed
  | expire
  | recordEvent
  | pass
deriving DecidableEq, Repr

namespace Waiting

def asleep (w : Waiting) : Bool :=
  match w.wait with
  | .await _ _ => w.inner.notify.future = .waiting
  | _ => false

/-- The worker sleeps, and its deadline is not reached. -/
def blocked (w : Waiting) : Bool :=
  match w.wait with
  | .await _ deadline => w.inner.notify.future = .waiting && deadline.all (w.now < ·)
  | _ => false

/-- A worker that can run does so before the next event, and before time passes. -/
def step (times : ℕ → ℕ∞) (w : Waiting) : Event → Option Waiting
  | .proceed =>
    if w.asleep then none
    else (proceed slot w.now w.inner w.wait).map fun next =>
      { w with wait := next.1, inner := next.2 }
  | .expire =>
    if w.asleep then
      (expire slot w.now w.inner w.wait).map fun next => { w with wait := next.1, inner := next.2 }
    else none
  | .recordEvent =>
    if w.blocked ∧ times w.recorded = w.now then
      some { w with
        recorded := w.recorded + 1
        inner := ⟨w.inner.state.recordEvent w.now, slot.notifyOne w.inner.notify⟩ }
    else none
  | .pass =>
    if w.blocked ∧ times w.recorded ≠ w.now then some { w with now := w.now + 1 } else none

/-- Blocked on a trigger that a fresh lookup has cleared. -/
def cleared (t : TriggerState) (now : ℕ) : Waiting where
  now
  recorded := 0
  inner := ⟨t.beginFreshLookup, ⟨false, .waiting⟩⟩
  wait := .await .untilReady none

end Waiting

section Debounced

variable (times : ℕ → ℕ∞)

/-- What the events recorded so far have left. -/
structure Recorded (w : Waiting) : Prop where
  count : w.recorded ≤ eventTriggerLimit
  pending : w.inner.state.pendingEventCount = w.recorded
  unforced : w.inner.state.forced = false
  untimed : w.recorded = 0 → w.inner.state.debounceDeadline = none
  timed : ∀ j, w.recorded = j + 1 → ∃ last : ℕ, times j = last ∧
    w.inner.state.debounceDeadline = some (last + eventDebounce) ∧ w.now ≤ last + eventDebounce
  loud : ∀ j, j + 1 < w.recorded → ¬ Quiet times j
  ahead : w.now ≤ times w.recorded
  permit : w.inner.notify.permit = false

def Fresh (w : Waiting) : Prop :=
  w.inner.state.debounceDeadline = some (w.now + eventDebounce) ∧
    ∃ j, w.recorded = j + 1 ∧ times j = w.now

/-- Where the worker is between two instants at which it is blocked, with the
steps it has left there. -/
inductive Stage (w : Waiting) : ℕ → Prop
  | notified {deadline : Option ℕ} : w.wait = .await .untilReady deadline →
      w.inner.notify.future = .notified → Fresh times w → Stage w 5
  | checking : w.wait = .check .untilReady → w.inner.notify.future = .absent →
      Fresh times w → Stage w 4
  | unpolled : w.wait = .await .untilReady w.inner.state.debounceDeadline →
      w.inner.notify.future = .absent → w.recorded < eventTriggerLimit →
      Fresh times w → Stage w 3
  | sleeping : w.wait = .await .untilReady w.inner.state.debounceDeadline →
      w.inner.notify.future = .waiting → w.recorded < eventTriggerLimit → Stage w 2
  | expired : w.wait = .check .untilReady → w.inner.notify.future = .absent →
      w.recorded < eventTriggerLimit → w.inner.state.debounceDeadline = some w.now → Stage w 1
  | filled : w.wait = .done → w.recorded = eventTriggerLimit → Fresh times w → Stage w 0
  | quiet : w.wait = .done → w.recorded < eventTriggerLimit →
      w.inner.state.debounceDeadline = some w.now → Stage w 0

variable {times} {w w' : Waiting} {rank : ℕ}

theorem recorded_cleared {t : TriggerState} {start : ℕ} (early : start ≤ times 0) :
    Recorded times (.cleared t start) := by
  constructor
  all_goals simp [Waiting.cleared, TriggerState.beginFreshLookup, early]

theorem stage_cleared (t : TriggerState) (start : ℕ) : Stage times (.cleared t start) 2 := by
  apply Stage.sleeping
  all_goals simp [Waiting.cleared, TriggerState.beginFreshLookup, eventTriggerLimit]

theorem Fresh.positive (h : Fresh times w) : 0 < w.recorded := by
  obtain ⟨-, j, count, -⟩ := h
  omega

theorem Recorded.keep (h : Recorded times w) (wait : Wait) (future : Future) :
    Recorded times { w with wait, inner := { w.inner with notify := { w.inner.notify with future } } } :=
  ⟨h.count, h.pending, h.unforced, h.untimed, h.timed, h.loud, h.ahead, h.permit⟩

theorem step_check_done {kind : WaitKind} (at_ : w.wait = .check kind)
    (satisfied : kind.satisfied w.now w.inner.state = true) :
    w.step times .proceed = some { w with wait := .done } := by
  simp [Waiting.step, Waiting.asleep, at_, proceed, satisfied]

theorem step_check_await {kind : WaitKind} (at_ : w.wait = .check kind)
    (unsatisfied : kind.satisfied w.now w.inner.state = false) :
    w.step times .proceed = some { w with wait := .await kind (kind.deadline w.inner.state) } := by
  simp [Waiting.step, Waiting.asleep, at_, proceed, unsatisfied]

theorem step_poll_notified {kind : WaitKind} {deadline : Option ℕ}
    (at_ : w.wait = .await kind deadline) (woken : w.inner.notify.future = .notified) :
    w.step times .proceed = some { w with
      wait := .check kind
      inner := { w.inner with notify := { w.inner.notify with future := .absent } } } := by
  simp [Waiting.step, Waiting.asleep, at_, woken, proceed, slot, Slot.poll]

theorem step_poll_absent {kind : WaitKind} {deadline : Option ℕ}
    (at_ : w.wait = .await kind deadline) (absent : w.inner.notify.future = .absent)
    (permit : w.inner.notify.permit = false) :
    w.step times .proceed = some { w with
      inner := { w.inner with notify := { w.inner.notify with future := .waiting } } } := by
  simp [Waiting.step, Waiting.asleep, at_, absent, permit, proceed, slot, Slot.poll]

theorem Recorded.satisfied (h : Recorded times w) :
    WaitKind.satisfied .untilReady w.now w.inner.state =
      (decide (eventTriggerLimit ≤ w.recorded) ||
        w.inner.state.debounceDeadline.any (· ≤ w.now)) := by
  simp [WaitKind.satisfied, h.unforced, h.pending]

theorem Fresh.satisfied (fresh : Fresh times w) (h : Recorded times w) :
    WaitKind.satisfied .untilReady w.now w.inner.state =
      decide (w.recorded = eventTriggerLimit) := by
  have count := h.count
  have full : eventTriggerLimit ≤ w.recorded ↔ w.recorded = eventTriggerLimit := by omega
  rw [h.satisfied, fresh.1]
  simp [full, eventDebounce]

theorem step_expire {kind : WaitKind} {deadline : ℕ}
    (at_ : w.wait = .await kind (some deadline)) (asleep : w.inner.notify.future = .waiting)
    (due : deadline ≤ w.now) :
    w.step times .expire = some { w with
      wait := .check kind
      inner := { w.inner with notify := { w.inner.notify with future := .absent } } } := by
  simp [Waiting.step, Waiting.asleep, at_, asleep, due, expire, slot, Slot.cancel]

structure Leads (times : ℕ → ℕ∞) (w : Waiting) (rank : ℕ) (w' : Waiting) : Prop where
  recorded : Recorded times w'
  clock : w.now ≤ w'.now
  stage : ∃ rank', Stage times w' rank' ∧
    4 * (eventTriggerLimit - w'.recorded) + rank' + 1 + w.now ≤
      4 * (eventTriggerLimit - w.recorded) + rank + w'.now

theorem proceed_leads (h : Recorded times w) (stage : Stage times w rank)
    (stepped : w.step times .proceed = some w') : Leads times w rank w' := by
  have count := h.count
  cases stage with
  | notified at_ woken fresh =>
    rw [step_poll_notified at_ woken] at stepped
    obtain rfl := Option.some.inj stepped
    exact ⟨h.keep _ _, le_rfl, 4, .checking rfl rfl fresh, by dsimp only; omega⟩
  | checking at_ absent fresh =>
    have satisfied := fresh.satisfied h
    by_cases full : w.recorded = eventTriggerLimit
    · rw [step_check_done at_ (by rw [satisfied]; exact decide_eq_true full)] at stepped
      obtain rfl := Option.some.inj stepped
      exact ⟨h.keep _ _, le_rfl, 0, .filled rfl full fresh, by dsimp only; omega⟩
    · rw [step_check_await at_ (by rw [satisfied]; exact decide_eq_false full)] at stepped
      obtain rfl := Option.some.inj stepped
      refine ⟨h.keep _ _, le_rfl, 3, .unpolled rfl absent ?_ fresh, ?_⟩
      · dsimp only
        omega
      · dsimp only
        omega
  | unpolled at_ absent few fresh =>
    rw [step_poll_absent at_ absent h.permit] at stepped
    obtain rfl := Option.some.inj stepped
    exact ⟨h.keep _ _, le_rfl, 2, .sleeping at_ rfl few, by dsimp only; omega⟩
  | sleeping at_ asleep few => simp [Waiting.step, Waiting.asleep, at_, asleep] at stepped
  | expired at_ absent few due =>
    rw [step_check_done at_ (by simp [h.satisfied, due])] at stepped
    obtain rfl := Option.some.inj stepped
    exact ⟨h.keep _ _, le_rfl, 0, .quiet rfl few due, by dsimp only; omega⟩
  | filled at_ full fresh => simp [Waiting.step, Waiting.asleep, at_, proceed] at stepped
  | quiet at_ few due => simp [Waiting.step, Waiting.asleep, at_, proceed] at stepped

theorem Stage.sleeps (stage : Stage times w rank) (asleep : w.asleep = true) :
    w.wait = .await .untilReady w.inner.state.debounceDeadline ∧
      w.inner.notify.future = .waiting ∧ w.recorded < eventTriggerLimit ∧ rank = 2 := by
  cases stage with
  | sleeping at_ future few => exact ⟨at_, future, few, rfl⟩
  | notified at_ future _ => simp [Waiting.asleep, at_, future] at asleep
  | checking at_ _ _ => simp [Waiting.asleep, at_] at asleep
  | unpolled at_ future _ _ => simp [Waiting.asleep, at_, future] at asleep
  | expired at_ _ _ _ => simp [Waiting.asleep, at_] at asleep
  | filled at_ _ _ => simp [Waiting.asleep, at_] at asleep
  | quiet at_ _ _ => simp [Waiting.asleep, at_] at asleep

theorem blocked_asleep (blocked : w.blocked = true) : w.asleep = true := by
  unfold Waiting.blocked at blocked
  unfold Waiting.asleep
  split
  · simp_all
  · simp_all

theorem Stage.ahead (stage : Stage times w rank) (blocked : w.blocked = true) {deadline : ℕ}
    (armed : w.inner.state.debounceDeadline = some deadline) : w.now < deadline := by
  obtain ⟨at_, future, -, -⟩ := stage.sleeps (blocked_asleep blocked)
  simpa [Waiting.blocked, at_, future, armed] using blocked

theorem expire_leads (h : Recorded times w) (stage : Stage times w rank)
    (stepped : w.step times .expire = some w') : Leads times w rank w' := by
  by_cases asleep : w.asleep = true
  · obtain ⟨at_, future, few, rfl⟩ := stage.sleeps asleep
    cases armed : w.inner.state.debounceDeadline with
    | none => simp [Waiting.step, at_, armed, expire] at stepped
    | some deadline =>
      have due : deadline ≤ w.now := by
        by_contra early
        simp [Waiting.step, at_, armed, expire, early] at stepped
      rw [armed] at at_
      rw [step_expire at_ future due] at stepped
      obtain rfl := Option.some.inj stepped
      -- time has not passed the deadline
      have reached : deadline = w.now := by
        cases count : w.recorded with
        | zero => simp [h.untimed count] at armed
        | succ j =>
          obtain ⟨last, -, timed, within⟩ := h.timed j count
          rw [armed] at timed
          obtain rfl := Option.some.inj timed
          omega
      exact ⟨h.keep _ _, le_rfl, 1, .expired rfl rfl few (by rw [← reached]; exact armed),
        by dsimp only; omega⟩
  · simp [Waiting.step, asleep] at stepped

theorem recordEvent_leads (increasing : Monotone times) (h : Recorded times w)
    (stage : Stage times w rank) (stepped : w.step times .recordEvent = some w') :
    Leads times w rank w' := by
  obtain ⟨⟨blocked, arrives⟩, rfl⟩ : (w.blocked = true ∧ times w.recorded = w.now) ∧ { w with
      recorded := w.recorded + 1
      inner := ⟨w.inner.state.recordEvent w.now, slot.notifyOne w.inner.notify⟩ } = w' := by
    simpa [Waiting.step] using stepped
  obtain ⟨at_, future, few, rfl⟩ := stage.sleeps (blocked_asleep blocked)
  have fresh : Fresh times { w with
      recorded := w.recorded + 1
      inner := ⟨w.inner.state.recordEvent w.now, slot.notifyOne w.inner.notify⟩ } :=
    ⟨rfl, w.recorded, rfl, arrives⟩
  refine ⟨⟨few, ?_, h.unforced, nofun, ?_, ?_, ?_, ?_⟩, le_rfl, 5,
    .notified at_ ?_ fresh, ?_⟩
  · simp only [TriggerState.recordEvent, h.pending]
    omega
  · rintro j same
    obtain rfl : w.recorded = j := by simpa using same
    exact ⟨w.now, arrives, rfl, Nat.le_add_right _ _⟩
  · intro j earlier quiet
    rcases Nat.lt_or_ge (j + 1) w.recorded with before | last_
    · exact h.loud j before quiet
    · have count : w.recorded = j + 1 := by
        dsimp only at earlier
        omega
      obtain ⟨last, came, armed, -⟩ := h.timed j count
      have ahead := stage.ahead blocked armed
      rw [Quiet, came, ← count, arrives] at quiet
      have late : last + eventDebounce ≤ w.now := by exact_mod_cast quiet
      omega
  · calc (w.now : ℕ∞) = times w.recorded := arrives.symm
      _ ≤ times (w.recorded + 1) := increasing (Nat.le_succ _)
  · simp [slot, Slot.notifyOne, future, h.permit]
  · simp [slot, Slot.notifyOne, future]
  · dsimp only
    omega

theorem pass_leads (h : Recorded times w) (stage : Stage times w rank)
    (stepped : w.step times .pass = some w') : Leads times w rank w' := by
  obtain ⟨⟨blocked, later⟩, rfl⟩ : (w.blocked = true ∧ times w.recorded ≠ w.now) ∧
      { w with now := w.now + 1 } = w' := by
    simpa [Waiting.step] using stepped
  obtain ⟨at_, future, few, rfl⟩ := stage.sleeps (blocked_asleep blocked)
  refine ⟨⟨h.count, h.pending, h.unforced, h.untimed, ?_, h.loud, ?_, h.permit⟩, Nat.le_succ _, 2,
    .sleeping at_ future few, ?_⟩
  · intro j count
    obtain ⟨last, came, armed, -⟩ := h.timed j count
    exact ⟨last, came, armed, stage.ahead blocked armed⟩
  · have ahead : (w.now : ℕ∞) < times w.recorded := lt_of_le_of_ne h.ahead (Ne.symm later)
    exact_mod_cast Order.add_one_le_of_lt ahead
  · dsimp only
    omega

theorem step_leads (increasing : Monotone times) (h : Recorded times w)
    (stage : Stage times w rank) {e : Event} (stepped : w.step times e = some w') :
    Leads times w rank w' := by
  cases e with
  | proceed => exact proceed_leads h stage stepped
  | expire => exact expire_leads h stage stepped
  | recordEvent => exact recordEvent_leads increasing h stage stepped
  | pass => exact pass_leads h stage stepped

/-- A run is no longer than the instants it spans and the steps of the events allow. -/
theorem path_leads (increasing : Monotone times) {t : TriggerState} {start : ℕ}
    (early : start ≤ times 0) {es : List Event}
    (path : Path (ofFn (Waiting.step times)) (.cleared t start) es w) :
    Recorded times w ∧ start ≤ w.now ∧ ∃ rank, Stage times w rank ∧
      es.length + 4 * (eventTriggerLimit - w.recorded) + rank ≤
        4 * eventTriggerLimit + 2 + (w.now - start) := by
  induction path with
  | refl => exact ⟨recorded_cleared early, le_rfl, 2, stage_cleared t start, by
      simp [Waiting.cleared]⟩
  | @snoc v u es e _ stepped ih =>
    obtain ⟨recorded, began, rank, stage, spent⟩ := ih
    obtain ⟨after, clock, rank', staged, lower⟩ := step_leads increasing recorded stage stepped
    refine ⟨after, began.trans clock, rank', staged, ?_⟩
    rw [List.length_append, List.length_singleton]
    omega

theorem Stage.proceeds (h : Recorded times w) (stage : Stage times w rank)
    (waits : w.wait ≠ .done) : ∃ e w', w.step times e = some w' := by
  have checks : w.wait = .check .untilReady → ∃ e w', w.step times e = some w' := by
    intro at_
    by_cases satisfied : WaitKind.satisfied .untilReady w.now w.inner.state = true
    · exact ⟨.proceed, _, step_check_done at_ satisfied⟩
    · exact ⟨.proceed, _, step_check_await at_ (by simpa using satisfied)⟩
  cases stage with
  | notified at_ woken fresh => exact ⟨.proceed, _, step_poll_notified at_ woken⟩
  | checking at_ absent fresh => exact checks at_
  | unpolled at_ absent few fresh => exact ⟨.proceed, _, step_poll_absent at_ absent h.permit⟩
  | sleeping at_ asleep few =>
    by_cases blocked : w.blocked = true
    · by_cases arrives : times w.recorded = w.now
      · exact ⟨.recordEvent, _, if_pos ⟨blocked, arrives⟩⟩
      · exact ⟨.pass, _, if_pos ⟨blocked, arrives⟩⟩
    · cases armed : w.inner.state.debounceDeadline with
      | none => simp [Waiting.blocked, at_, asleep, armed] at blocked
      | some deadline =>
        have due : deadline ≤ w.now := by
          simpa [Waiting.blocked, at_, asleep, armed] using blocked
        rw [armed] at at_
        exact ⟨.expire, _, step_expire at_ asleep due⟩
  | expired at_ absent few due => exact checks at_
  | filled at_ full fresh => exact absurd at_ waits
  | quiet at_ few due => exact absurd at_ waits

theorem Stage.few_or_fresh (stage : Stage times w rank) :
    w.recorded < eventTriggerLimit ∨ Fresh times w := by
  cases stage with
  | notified _ _ fresh => exact .inr fresh
  | checking _ _ fresh => exact .inr fresh
  | unpolled _ _ few _ => exact .inl few
  | sleeping _ _ few => exact .inl few
  | expired _ _ few _ => exact .inl few
  | filled _ _ fresh => exact .inr fresh
  | quiet _ few _ => exact .inl few

/-- The worker never waits past the event that fills the count, nor past the
debounce of the first quiet event. -/
theorem now_le (increasing : Monotone times) (h : Recorded times w) (stage : Stage times w rank)
    {s : ℕ∞} (exit_ : s = times (eventTriggerLimit - 1) ∨
      ∃ k, FirstQuiet times k ∧ s = times k + eventDebounce) : w.now ≤ s := by
  have reached : ∀ k, w.recorded ≤ k → (w.now : ℕ∞) ≤ times k := fun k later =>
    h.ahead.trans (increasing later)
  have count := h.count
  rcases exit_ with rfl | ⟨k, first, rfl⟩
  · by_cases few : w.recorded ≤ eventTriggerLimit - 1
    · exact reached _ few
    · obtain ⟨-, j, same, came⟩ := stage.few_or_fresh.resolve_left (by omega)
      have last : eventTriggerLimit - 1 = j := by omega
      rw [last, came]
  · by_cases later : w.recorded ≤ k
    · exact (reached k later).trans le_self_add
    · obtain ⟨j, same⟩ : ∃ j, w.recorded = j + 1 := ⟨w.recorded - 1, by omega⟩
      have last : j = k := by
        by_contra other
        exact h.loud k (by omega) first.1
      obtain ⟨t, came, -, within⟩ := h.timed j same
      rw [← last, came]
      exact_mod_cast within

theorem returnTime_of_done (increasing : Monotone times) (h : Recorded times w)
    (stage : Stage times w rank) (done : w.wait = .done) : ReturnTime times w.now := by
  refine ⟨?_, fun s exit_ => now_le increasing h stage exit_⟩
  cases stage with
  | notified at_ _ _ => simp [at_] at done
  | checking at_ _ _ => simp [at_] at done
  | unpolled at_ _ _ _ => simp [at_] at done
  | sleeping at_ _ _ => simp [at_] at done
  | expired at_ _ _ _ => simp [at_] at done
  | filled at_ full fresh =>
    obtain ⟨-, j, same, came⟩ := fresh
    have last : eventTriggerLimit - 1 = j := by omega
    exact .inl (by rw [last, came])
  | quiet at_ few due =>
    cases same : w.recorded with
    | zero => simp [h.untimed same] at due
    | succ j =>
      obtain ⟨t, came, armed, -⟩ := h.timed j same
      rw [due] at armed
      have ends : (w.now : ℕ∞) = times j + eventDebounce := by
        rw [came]
        exact_mod_cast Option.some.inj armed
      refine .inr ⟨j, ⟨?_, fun i before => h.loud i (by omega)⟩, ends⟩
      rw [Quiet, ← ends, ← same]
      exact h.ahead

end Debounced

/-- A worker blocked on a cleared trigger returns at the closed form, and at most
24 debounces after the first event: whatever it does, it has a step to take until
then, and only so many. -/
theorem debounce_returns (t : TriggerState) {times : ℕ → ℕ∞} (increasing : Monotone times)
    {start : ℕ} (early : start ≤ times 0) :
    ∃ r, ReturnTime times r ∧
      r ≤ times 0 + ((eventTriggerLimit - 1) * eventDebounce : ℕ) ∧
      ∀ es w, Path (ofFn (Waiting.step times)) (.cleared t start) es w →
        w.now ≤ r ∧ (w.wait = .done → w.now = r) ∧
        (w.wait ≠ .done → ∃ e w', w.step times e = some w') ∧
        ∀ last : ℕ, r = last → es.length ≤ 4 * eventTriggerLimit + 2 + (last - start) := by
  obtain ⟨r, closed⟩ := returnTime_exists times
  refine ⟨r, closed, closed.le_bound, fun es w path => ?_⟩
  obtain ⟨recorded, began, rank, stage, spent⟩ := path_leads increasing early path
  have soon : (w.now : ℕ∞) ≤ r := now_le increasing recorded stage closed.1
  refine ⟨soon, fun done => ?_, stage.proceeds recorded, ?_⟩
  · exact (returnTime_of_done increasing recorded stage done).unique closed
  · rintro last rfl
    have within : w.now ≤ last := by exact_mod_cast soon
    omega

def twoEvents : ℕ → ℕ∞
  | 0 => 100
  | 1 => 400
  | _ => ⊤

theorem twoEvents_monotone : Monotone twoEvents := by
  apply monotone_nat_of_le_succ
  rintro (_ | _ | k)
  · have next : ((100 : ℕ) : ℕ∞) ≤ (400 : ℕ) := by norm_cast
    exact next
  · exact le_top
  · exact le_rfl

theorem twoEvents_returnTime : ReturnTime twoEvents 900 := by
  have first : FirstQuiet twoEvents 1 := by
    refine ⟨le_top, ?_⟩
    rintro j less quiet
    obtain rfl : j = 0 := by omega
    have late : ((100 : ℕ) : ℕ∞) + (500 : ℕ) ≤ (400 : ℕ) := quiet
    norm_cast at late
  refine ⟨.inr ⟨1, first, rfl⟩, ?_⟩
  rintro s (rfl | ⟨k, other, rfl⟩)
  · exact le_top
  · rw [firstQuiet_unique other first]
    rfl

/-- The second of them is quiet. -/
theorem debounce_returns_twoEvents :
    ReturnTime twoEvents 900 ∧ ∀ es w,
      Path (ofFn (Waiting.step twoEvents)) (.cleared .initial 0) es w →
        w.now ≤ 900 ∧ (w.wait = .done → w.now = 900) ∧ es.length ≤ 1002 := by
  have early : ((0 : ℕ) : ℕ∞) ≤ twoEvents 0 := by simp
  obtain ⟨r, closed, -, runs⟩ := debounce_returns .initial twoEvents_monotone early
  obtain rfl : r = (900 : ℕ) := closed.unique twoEvents_returnTime
  refine ⟨twoEvents_returnTime, fun es w path => ?_⟩
  obtain ⟨soon, ends, -, short⟩ := runs es w path
  exact ⟨by exact_mod_cast soon, fun done => by exact_mod_cast ends done, short 900 rfl⟩

end WalletDaemon.Debounce
