import Mathlib.Logic.Basic

/-! A notifier with one waiting future, and what its documentation promises.
A notification is kept as a single permit while no future waits. -/

namespace WalletDaemon.Notify

/-- `poll` polls the future and says whether it completes; `cancel` drops it.
`permit` says whether a permit is stored, `waiting` whether the future sleeps
without having been notified. -/
structure Notifier (N : Type) where
  new : N
  notifyOne : N → N
  poll : N → Bool × N
  cancel : N → N
  permit : N → Bool
  waiting : N → Bool

/-- A notification reaches the future that waits or the next that is polled, and
a future is not woken without one. What becomes of the notification of a dropped
future is left open. -/
structure Notifier.Documented {N : Type} (notifier : Notifier N) : Prop where
  reaches : ∀ n, (notifier.poll (notifier.notifyOne n)).1 = true
  sleeps : ∀ n, notifier.waiting n = true → notifier.permit n = false →
    (notifier.poll n).1 = false

inductive Future
  | absent
  | waiting
  | notified
deriving DecidableEq, Repr

/-- One permit, and the future of the one waiter. -/
structure Slot where
  permit : Bool
  future : Future
deriving DecidableEq, Repr

def Slot.notifyOne (n : Slot) : Slot :=
  match n.future with
  | .waiting => { n with future := .notified }
  | _ => { n with permit := true }

def Slot.poll (n : Slot) : Bool × Slot :=
  match n.future with
  | .absent =>
    if n.permit then (true, { n with permit := false }) else (false, { n with future := .waiting })
  | .waiting => (false, n)
  | .notified => (true, { n with future := .absent })

/-- A future dropped after it was notified hands its notification on. -/
def Slot.cancel (n : Slot) : Slot :=
  match n.future with
  | .notified => Slot.notifyOne { n with future := .absent }
  | _ => { n with future := .absent }

def slot : Notifier Slot where
  new := ⟨false, .absent⟩
  notifyOne := Slot.notifyOne
  poll := Slot.poll
  cancel := Slot.cancel
  permit := Slot.permit
  waiting n := n.future = .waiting

theorem slot_documented : slot.Documented := by
  constructor
  · rintro ⟨permit, future⟩
    cases future <;> rfl
  · intro n waiting _
    have asleep : n.future = .waiting := by simpa [slot] using waiting
    simp [slot, Slot.poll, asleep]

end WalletDaemon.Notify
