import WalletDaemon.Notify
import Mathlib.Data.List.Basic
import Mathlib.Data.List.Nodup

/-! A notifier with many waiting futures. A notification goes to the one that has
waited longest, or is kept as a permit while none waits. -/

namespace WalletDaemon.Notify

variable {ι : Type}

/-- The futures that sleep, longest first, and those notified but not yet polled. -/
structure Queue (ι : Type) where
  permit : Bool
  waiting : List ι
  notified : List ι
deriving DecidableEq, Repr

namespace Queue

def notifyOne (q : Queue ι) : Queue ι :=
  match q.waiting with
  | [] => { q with permit := true }
  | i :: rest => { q with waiting := rest, notified := i :: q.notified }

def poll [DecidableEq ι] (i : ι) (q : Queue ι) : Bool × Queue ι :=
  if i ∈ q.notified then (true, { q with notified := q.notified.erase i })
  else if i ∈ q.waiting then (false, q)
  else if q.permit then (true, { q with permit := false })
  else (false, { q with waiting := q.waiting ++ [i] })

/-- A future dropped after it was notified hands its notification on. -/
def cancel [DecidableEq ι] (i : ι) (q : Queue ι) : Queue ι :=
  if i ∈ q.notified then notifyOne { q with notified := q.notified.erase i }
  else { q with waiting := q.waiting.erase i }

def pending (q : Queue ι) : Nat := (if q.permit then 1 else 0) + q.notified.length

def polled (q : Queue ι) : List ι := q.waiting ++ q.notified

/-- Each future is held once, and a permit is kept only while none waits. -/
structure Sound (q : Queue ι) (awaits : ι → Prop) : Prop where
  distinct : q.polled.Nodup
  awaits : ∀ i ∈ q.polled, awaits i
  permit : q.permit = true → q.waiting = []

variable {q : Queue ι} {awaits : ι → Prop} {i : ι}

theorem Sound.mono (h : q.Sound awaits) {others : ι → Prop} (kept : ∀ i ∈ q.polled, others i) :
    q.Sound others :=
  ⟨h.distinct, kept, h.permit⟩

theorem notifyOne_polled (q : Queue ι) : q.notifyOne.polled.Perm q.polled := by
  unfold notifyOne polled
  split
  · exact List.Perm.refl _
  · rename_i first rest same
    rw [same]
    exact List.perm_middle

theorem notifyOne_sound (h : q.Sound awaits) : q.notifyOne.Sound awaits := by
  have perm := notifyOne_polled q
  refine ⟨perm.nodup_iff.mpr h.distinct, fun i held => h.awaits i (perm.mem_iff.mp held), ?_⟩
  unfold notifyOne
  split
  · rename_i same
    exact fun _ => same
  · rename_i first rest same
    intro permit
    rw [h.permit permit] at same
    cases same

theorem notifyOne_pending (q : Queue ι) :
    0 < q.notifyOne.pending ∧ q.notifyOne.pending ≤ q.pending + 1 := by
  unfold notifyOne pending
  split
  · simp only [if_true]
    omega
  · simp only [List.length_cons]
    omega

theorem Sound.release (h : q.Sound awaits) (r : Queue ι) (perm : q.polled.Perm (i :: r.polled))
    (permit : r.permit = true → r.waiting = []) :
    r.Sound awaits ∧ i ∉ r.polled ∧ ∀ j, j ≠ i → (j ∈ r.polled ↔ j ∈ q.polled) := by
  have distinct := List.nodup_cons.mp (perm.nodup_iff.mp h.distinct)
  refine ⟨⟨distinct.2, fun j held => h.awaits j ?_, permit⟩, distinct.1, fun j other => ?_⟩
  · exact perm.mem_iff.mpr (List.mem_cons_of_mem i held)
  · simp [perm.mem_iff, other]

variable [DecidableEq ι]

theorem poll_completes (h : q.Sound awaits) (completes : (poll i q).1 = true) :
    (poll i q).2.Sound awaits ∧ i ∉ (poll i q).2.polled ∧
      (∀ j, j ≠ i → (j ∈ (poll i q).2.polled ↔ j ∈ q.polled)) ∧
      (poll i q).2.pending + 1 = q.pending := by
  by_cases woken : i ∈ q.notified
  · have taken : poll i q = (true, { q with notified := q.notified.erase i }) := if_pos woken
    rw [taken]
    have perm : q.polled.Perm (i :: (q.waiting ++ q.notified.erase i)) :=
      ((List.perm_cons_erase woken).append_left q.waiting).trans List.perm_middle
    obtain ⟨sound, gone, others⟩ := h.release { q with notified := q.notified.erase i } perm h.permit
    refine ⟨sound, gone, others, ?_⟩
    have some_ := List.length_pos_of_mem woken
    simp only [pending, List.length_erase_of_mem woken]
    omega
  · by_cases asleep : i ∈ q.waiting
    · simp [poll, woken, asleep] at completes
    · by_cases permit : q.permit = true
      · have taken : poll i q = (true, { q with permit := false }) := by
          simp [poll, woken, asleep, permit]
        rw [taken]
        refine ⟨⟨h.distinct, h.awaits, nofun⟩, ?_, fun j other => Iff.rfl, ?_⟩
        · simp [polled, woken, asleep]
        · simp only [pending, permit, if_true, Bool.false_eq_true, if_false]
          omega
      · simp [poll, woken, asleep, permit] at completes

theorem poll_sleeps (h : q.Sound awaits) (at_ : awaits i) (sleeps : (poll i q).1 = false) :
    (poll i q).2.Sound awaits ∧ i ∈ (poll i q).2.waiting ∧
      (∀ j, j ≠ i → (j ∈ (poll i q).2.polled ↔ j ∈ q.polled)) ∧
      (poll i q).2.pending = q.pending := by
  by_cases woken : i ∈ q.notified
  · simp [poll, woken] at sleeps
  · by_cases asleep : i ∈ q.waiting
    · have same : poll i q = (false, q) := by simp [poll, woken, asleep]
      rw [same]
      exact ⟨h, asleep, fun j other => Iff.rfl, rfl⟩
    · by_cases permit : q.permit = true
      · simp [poll, woken, asleep, permit] at sleeps
      · have registered : poll i q = (false, { q with waiting := q.waiting ++ [i] }) := by
          simp [poll, woken, asleep, permit]
        rw [registered]
        have perm : (q.waiting ++ [i] ++ q.notified).Perm (i :: q.polled) := by
          rw [List.append_assoc]
          exact List.perm_middle
        refine ⟨⟨?_, ?_, fun kept => absurd kept permit⟩, by simp, ?_, rfl⟩
        · have fresh : i ∉ q.polled := by simp [polled, woken, asleep]
          exact perm.nodup_iff.mpr (List.nodup_cons.mpr ⟨fresh, h.distinct⟩)
        · intro j held
          rcases List.mem_cons.mp (perm.mem_iff.mp held) with rfl | earlier
          · exact at_
          · exact h.awaits j earlier
        · intro j other
          have same : j ∈ q.waiting ++ [i] ++ q.notified ↔ j ∈ q.polled := by
            rw [perm.mem_iff, List.mem_cons, or_iff_right other]
          exact same

theorem cancel_sound (h : q.Sound awaits) :
    (cancel i q).Sound awaits ∧ i ∉ (cancel i q).polled ∧
      (0 < q.pending → 0 < (cancel i q).pending) := by
  by_cases woken : i ∈ q.notified
  · have handed : cancel i q = notifyOne { q with notified := q.notified.erase i } := if_pos woken
    rw [handed]
    have perm : q.polled.Perm (i :: (q.waiting ++ q.notified.erase i)) :=
      ((List.perm_cons_erase woken).append_left q.waiting).trans List.perm_middle
    obtain ⟨sound, gone, -⟩ := h.release { q with notified := q.notified.erase i } perm h.permit
    refine ⟨notifyOne_sound sound, ?_, fun _ => (notifyOne_pending _).1⟩
    rw [(notifyOne_polled _).mem_iff]
    exact gone
  · have dropped : cancel i q = { q with waiting := q.waiting.erase i } := if_neg woken
    rw [dropped]
    by_cases asleep : i ∈ q.waiting
    · have perm : q.polled.Perm (i :: (q.waiting.erase i ++ q.notified)) :=
        (List.perm_cons_erase asleep).append_right q.notified
      obtain ⟨sound, gone, -⟩ := h.release { q with waiting := q.waiting.erase i } perm fun permit => by
        have none_ := h.permit permit
        rw [none_] at asleep
        cases asleep
      exact ⟨sound, gone, id⟩
    · rw [List.erase_of_not_mem asleep]
      exact ⟨h, by simp [polled, woken, asleep], id⟩

end Queue

def waiter [DecidableEq ι] (i : ι) : Notifier (Queue ι) where
  new := ⟨false, [], []⟩
  notifyOne := Queue.notifyOne
  poll := Queue.poll i
  cancel := Queue.cancel i
  permit := Queue.permit
  waiting q := i ∈ q.waiting

end WalletDaemon.Notify
