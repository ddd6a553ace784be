import WalletDaemon.Notify
import Mathlib.Data.Nat.Basic

/-! The trigger of one worker: what it knows of notifications and forces, and the
two waits on it, one step for each lock of the state and each poll of a future.
Times are in milliseconds. -/

namespace WalletDaemon.WorkTrigger

open Notify

def eventTriggerLimit : Nat := 25

def eventDebounce : Nat := 500

structure TriggerState where
  eventGeneration : UInt64
  lookupGeneration : Option UInt64
  pendingEventCount : Nat
  forced : Bool
  debounceDeadline : Option Nat
deriving DecidableEq, Repr

namespace TriggerState

def initial : TriggerState where
  eventGeneration := 0
  lookupGeneration := none
  pendingEventCount := 0
  forced := false
  debounceDeadline := none

def recordEvent (t : TriggerState) (now : Nat) : TriggerState :=
  { t with
    eventGeneration := t.eventGeneration + 1
    pendingEventCount := min (t.pendingEventCount + 1) eventTriggerLimit
    debounceDeadline := some (now + eventDebounce) }

def force (t : TriggerState) : TriggerState := { t with forced := true }

def beginFreshLookup (t : TriggerState) : TriggerState :=
  { t with
    lookupGeneration := some t.eventGeneration
    pendingEventCount := 0
    forced := false
    debounceDeadline := none }

/-- Whether new work arrived since the scan began. -/
def deferred (t : TriggerState) : Bool :=
  t.forced || 0 < t.pendingEventCount || t.lookupGeneration.any (· ≠ t.eventGeneration)

def finishBatch (t : TriggerState) (scanComplete : Bool) : TriggerState :=
  if scanComplete then { t with lookupGeneration := none } else t

def finishEmptyLookup (t : TriggerState) : TriggerState := { t with lookupGeneration := none }

def Armed (t : TriggerState) : Prop := t.forced = true ∨ 0 < t.pendingEventCount

def Timed (t : TriggerState) : Prop := 0 < t.pendingEventCount → t.debounceDeadline ≠ none

theorem recordEvent_armed (t : TriggerState) (now : Nat) : (t.recordEvent now).Armed := by
  right
  simp only [recordEvent, eventTriggerLimit]
  omega

theorem force_armed (t : TriggerState) : t.force.Armed := .inl rfl

theorem recordEvent_timed (t : TriggerState) (now : Nat) : (t.recordEvent now).Timed := by
  intro _
  simp [recordEvent]

theorem beginFreshLookup_timed (t : TriggerState) : t.beginFreshLookup.Timed := by
  intro pending
  simp [beginFreshLookup] at pending

@[simp] theorem finishBatch_pendingEventCount (t : TriggerState) (scanComplete : Bool) :
    (t.finishBatch scanComplete).pendingEventCount = t.pendingEventCount := by
  unfold finishBatch
  split <;> rfl

@[simp] theorem finishBatch_forced (t : TriggerState) (scanComplete : Bool) :
    (t.finishBatch scanComplete).forced = t.forced := by
  unfold finishBatch
  split <;> rfl

@[simp] theorem finishBatch_debounceDeadline (t : TriggerState) (scanComplete : Bool) :
    (t.finishBatch scanComplete).debounceDeadline = t.debounceDeadline := by
  unfold finishBatch
  split <;> rfl

theorem Armed.deferred {t : TriggerState} (armed : t.Armed) : t.deferred = true := by
  rcases armed with forced | pending
  · simp [TriggerState.deferred, forced]
  · simp [TriggerState.deferred, pending]

end TriggerState

/-- What a poller calls on its trigger. `deferred` is what it was answered. -/
inductive Call
  | none
  | beginFreshLookup
  | finishBatch (scanComplete deferred : Bool)
  | finishEmptyLookup
deriving DecidableEq, Repr

def TriggerState.called (t : TriggerState) : Call → Option TriggerState
  | .none => some t
  | .beginFreshLookup => some t.beginFreshLookup
  | .finishBatch scanComplete deferred =>
    if deferred = t.deferred then some (t.finishBatch scanComplete) else Option.none
  | .finishEmptyLookup => some t.finishEmptyLookup

namespace TriggerState

/-- What a waiting worker can see of the state is as before. -/
def SamePending (t t' : TriggerState) : Prop :=
  t'.forced = t.forced ∧ t'.pendingEventCount = t.pendingEventCount ∧
    t'.debounceDeadline = t.debounceDeadline

theorem SamePending.armed_iff {t t' : TriggerState} (same : SamePending t t') :
    t'.Armed ↔ t.Armed := by
  simp only [Armed, same.1, same.2.1]

theorem SamePending.timed_iff {t t' : TriggerState} (same : SamePending t t') :
    t'.Timed ↔ t.Timed := by
  simp only [Timed, same.2.1, same.2.2]

theorem called_cases {t t' : TriggerState} {call : Call} (h : t.called call = some t') :
    (call = .beginFreshLookup ∧ t' = t.beginFreshLookup) ∨
      (call ≠ .beginFreshLookup ∧ SamePending t t') := by
  cases call with
  | none =>
    cases h
    exact .inr ⟨nofun, rfl, rfl, rfl⟩
  | beginFreshLookup =>
    cases h
    exact .inl ⟨rfl, rfl⟩
  | finishBatch scanComplete deferred =>
    simp only [called] at h
    split at h
    · cases h
      exact .inr ⟨nofun, by simp [SamePending]⟩
    · cases h
  | finishEmptyLookup =>
    cases h
    exact .inr ⟨nofun, rfl, rfl, rfl⟩

end TriggerState

/-- `wait_until_ready`, or `wait_for_new_event` with its baseline. -/
inductive WaitKind
  | untilReady
  | newEvent (baselineGeneration : UInt64) (baselineForced : Bool)
deriving DecidableEq, Repr

/-- Where a wait is. At `check` its future has been made and the state is locked
next; at `await` the future is polled, against the deadline that was read. -/
inductive Wait
  | absent
  | baseline
  | check (kind : WaitKind)
  | await (kind : WaitKind) (deadline : Option Nat)
  | done
deriving DecidableEq, Repr

def waitUntilReady : Wait := .check .untilReady

def waitForNewEvent : Wait := .baseline

/-- Whether a wait ends at the check of the state. -/
def WaitKind.satisfied (kind : WaitKind) (now : Nat) (t : TriggerState) : Bool :=
  match kind with
  | .untilReady =>
    t.forced || eventTriggerLimit ≤ t.pendingEventCount || t.debounceDeadline.any (· ≤ now)
  | .newEvent baselineGeneration baselineForced =>
    t.eventGeneration ≠ baselineGeneration || (t.forced && !baselineForced)

/-- Only the wait for readiness sleeps against a deadline. -/
def WaitKind.deadline (kind : WaitKind) (t : TriggerState) : Option Nat :=
  match kind with
  | .untilReady => t.debounceDeadline
  | .newEvent _ _ => none

structure Inner (N : Type) where
  state : TriggerState
  notify : N

section Waits

variable {N : Type} (notifier : Notifier N)

/-- The next step of a wait that does not take its deadline. -/
def proceed (now : Nat) (w : Inner N) : Wait → Option (Wait × Inner N)
  | .baseline => some (.check (.newEvent w.state.eventGeneration w.state.forced), w)
  | .check kind =>
    if kind.satisfied now w.state then some (.done, w)
    else some (.await kind (kind.deadline w.state), w)
  | .await kind deadline =>
    let polled := notifier.poll w.notify
    some (if polled.1 then .check kind else .await kind deadline, { w with notify := polled.2 })
  | _ => none

/-- The deadline fires; the future is dropped with the branch it lost to. -/
def expire (now : Nat) (w : Inner N) : Wait → Option (Wait × Inner N)
  | .await kind (some deadline) =>
    if deadline ≤ now then some (.check kind, { w with notify := notifier.cancel w.notify })
    else none
  | _ => none

def abandon (w : Inner N) : Wait → Inner N
  | .await _ _ => { w with notify := notifier.cancel w.notify }
  | _ => w

/-- The state holds what would end the wait at once, or what no deadline will. -/
def Due (kind : WaitKind) (deadline : Option Nat) (t : TriggerState) : Prop :=
  match kind with
  | .untilReady =>
    t.forced = true ∨ eventTriggerLimit ≤ t.pendingEventCount ∨
      deadline = none ∧ 0 < t.pendingEventCount
  | .newEvent baselineGeneration baselineForced =>
    t.eventGeneration ≠ baselineGeneration ∨ t.forced = true ∧ baselineForced = false

theorem TriggerState.Armed.due {t : TriggerState} (armed : t.Armed) : Due .untilReady none t := by
  rcases armed with forced | pending
  · exact .inl forced
  · exact .inr (.inr ⟨rfl, pending⟩)

theorem not_due_of_unsatisfied {kind : WaitKind} {now : Nat} {t : TriggerState} (timed : t.Timed)
    (unsatisfied : kind.satisfied now t = false) : ¬ Due kind (kind.deadline t) t := by
  cases kind with
  | untilReady =>
    intro due
    simp only [WaitKind.satisfied, Bool.or_eq_false_iff, decide_eq_false_iff_not] at unsatisfied
    rcases due with forced | full | ⟨untimed, pending⟩
    · simp [forced] at unsatisfied
    · exact unsatisfied.1.2 full
    · exact timed pending untimed
  | newEvent generation forced =>
    intro due
    simp only [WaitKind.satisfied, Bool.or_eq_false_iff] at unsatisfied
    rcases due with changed | ⟨now_, before⟩
    · simp [changed] at unsatisfied
    · simp [now_, before] at unsatisfied

/-- A wait sleeps only where its next poll completes, if anything is due. -/
def Wakeful (wait : Wait) (w : Inner N) : Prop :=
  ∀ kind deadline, wait = .await kind deadline → Due kind deadline w.state →
    (notifier.poll w.notify).1 = true

theorem proceed_state {now : Nat} {w w' : Inner N} {wait wait' : Wait}
    (h : proceed notifier now w wait = some (wait', w')) : w'.state = w.state := by
  cases wait with
  | absent => cases h
  | done => cases h
  | baseline =>
    cases h
    rfl
  | check kind =>
    simp only [proceed] at h
    split at h <;> cases h <;> rfl
  | await kind deadline =>
    cases h
    rfl

theorem proceed_wakeful {now : Nat} {w w' : Inner N} {wait wait' : Wait}
    (timed : w.state.Timed) (wakeful : Wakeful notifier wait w)
    (h : proceed notifier now w wait = some (wait', w')) : Wakeful notifier wait' w' := by
  cases wait with
  | absent => cases h
  | done => cases h
  | baseline =>
    cases h
    intro _ _ awaits
    cases awaits
  | check kind =>
    simp only [proceed] at h
    split at h
    · cases h
      intro _ _ awaits
      cases awaits
    · rename_i unsatisfied
      cases h
      intro _ _ awaits due
      cases awaits
      exact absurd due (not_due_of_unsatisfied timed (by simpa using unsatisfied))
  | await kind deadline =>
    cases completes : (notifier.poll w.notify).1 with
    | true =>
      simp only [proceed, completes, if_true] at h
      cases h
      intro _ _ awaits
      cases awaits
    | false =>
      simp only [proceed, completes, Bool.false_eq_true, if_false] at h
      cases h
      intro _ _ awaits due
      cases awaits
      simp [wakeful kind deadline rfl due] at completes

theorem expire_wakeful {now : Nat} {w w' : Inner N} {wait wait' : Wait}
    (h : expire notifier now w wait = some (wait', w')) :
    w'.state = w.state ∧ Wakeful notifier wait' w' := by
  unfold expire at h
  split at h
  · split at h
    · cases h
      refine ⟨rfl, fun _ _ awaits => ?_⟩
      cases awaits
    · cases h
  · cases h

@[simp] theorem abandon_state (w : Inner N) (wait : Wait) :
    (abandon notifier w wait).state = w.state := by
  cases wait <;> rfl

end Waits

end WalletDaemon.WorkTrigger
