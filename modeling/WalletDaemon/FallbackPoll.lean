import WalletDaemon.Transition

/-! The fallback poll: a timer whose interval depends on whether the notification
service is connected. Its deadline outlives the tick that waits for it, and a
status change that the poller has not seen restarts it. Times are in
milliseconds. -/

namespace WalletDaemon.FallbackPoll

open Transition

def safetyPollInterval : Nat := 180000

def pusherOutagePollInterval : Nat := 6000

def pollInterval (pusherConnected : Bool) : Nat :=
  if pusherConnected then safetyPollInterval else pusherOutagePollInterval

/-- A poller's end of the status: its value, and whether that changed unseen. -/
structure PusherStatus where
  connected : Bool
  unseen : Bool
deriving DecidableEq, Repr

/-- A value that is already there is no change. -/
def PusherStatus.setConnected (status : PusherStatus) (connected : Bool) : PusherStatus :=
  if status.connected = connected then status else ⟨connected, true⟩

/-- Where a tick is: not called, at the head of its loop, or awaiting the timer
and the status. -/
inductive Tick
  | idle
  | check
  | select
deriving DecidableEq, Repr

structure PusherAwarePoller where
  status : PusherStatus
  deadline : Nat
  tick : Tick
deriving DecidableEq, Repr

namespace PusherAwarePoller

def new (now : Nat) (connected : Bool) : PusherAwarePoller where
  status := ⟨connected, false⟩
  deadline := now + pollInterval connected
  tick := .idle

def restart (p : PusherAwarePoller) (now : Nat) : PusherAwarePoller :=
  { p with deadline := now + pollInterval p.status.connected }

def see (p : PusherAwarePoller) : PusherAwarePoller :=
  { p with status := { p.status with unseen := false } }

end PusherAwarePoller

/-- `fire` and `changed` are the two arms of the select; a tick is dropped at its
await by `cancel`. -/
inductive Move
  | call
  | check
  | fire
  | changed
  | cancel
deriving DecidableEq, Repr

/-- The next step of a tick. The arm of the timer reads the status without seeing it. -/
def PusherAwarePoller.step (p : PusherAwarePoller) (now : Nat) : Move → Option PusherAwarePoller
  | .call => if p.tick = .idle then some { p with tick := .check } else none
  | .check =>
    if p.tick = .check then
      if p.status.unseen then some { (p.see.restart now) with tick := .select }
      else some { p with tick := .select }
    else none
  | .fire =>
    if p.tick = .select ∧ p.deadline ≤ now then some { (p.restart now) with tick := .idle } else none
  | .changed =>
    if p.tick = .select ∧ p.status.unseen then some { (p.see.restart now) with tick := .check }
    else none
  | .cancel => if p.tick ≠ .idle then some { p with tick := .idle } else none

inductive Moved (p : PusherAwarePoller) (now : Nat) : Move → PusherAwarePoller → Prop
  | call : p.tick = .idle → Moved p now .call { p with tick := .check }
  | checkSeen : p.tick = .check → p.status.unseen = false →
      Moved p now .check { p with tick := .select }
  | checkUnseen : p.tick = .check → p.status.unseen = true →
      Moved p now .check { (p.see.restart now) with tick := .select }
  | fire : p.tick = .select → p.deadline ≤ now →
      Moved p now .fire { (p.restart now) with tick := .idle }
  | changed : p.tick = .select → p.status.unseen = true →
      Moved p now .changed { (p.see.restart now) with tick := .check }
  | cancel : p.tick ≠ .idle → Moved p now .cancel { p with tick := .idle }

theorem step_moved {p p' : PusherAwarePoller} {now : Nat} {m : Move} (h : p.step now m = some p') :
    Moved p now m p' := by
  cases m with
  | call =>
    simp only [PusherAwarePoller.step] at h
    split at h
    · rename_i at_
      cases h
      exact .call at_
    · cases h
  | check =>
    simp only [PusherAwarePoller.step] at h
    split at h
    · rename_i at_
      split at h
      · rename_i unseen
        cases h
        exact .checkUnseen at_ unseen
      · rename_i seen
        cases h
        exact .checkSeen at_ (by simpa using seen)
    · cases h
  | fire =>
    simp only [PusherAwarePoller.step] at h
    split at h
    · rename_i due
      cases h
      exact .fire due.1 due.2
    · cases h
  | changed =>
    simp only [PusherAwarePoller.step] at h
    split at h
    · rename_i due
      cases h
      exact .changed due.1 due.2
    · cases h
  | cancel =>
    simp only [PusherAwarePoller.step] at h
    split at h
    · rename_i at_
      cases h
      exact .cancel at_
    · cases h

section Clock

/-- The poller among its callers, with the times its current tick was called and
its status last changed. -/
structure Clocked where
  now : Nat
  poller : PusherAwarePoller
  begun : Nat
  changedAt : Nat
deriving DecidableEq, Repr

inductive Event
  | move (m : Move)
  | setConnected (connected : Bool)
  | pass
deriving DecidableEq, Repr

/-- Time passes only while the poller has nothing to do: a tick that is woken runs
at once. -/
def Clocked.Still (w : Clocked) : Prop :=
  w.poller.tick = .idle ∨
    w.poller.tick = .select ∧ w.poller.status.unseen = false ∧ w.now < w.poller.deadline

instance (w : Clocked) : Decidable w.Still := inferInstanceAs (Decidable (_ ∨ _ ∧ _ ∧ _))

def Clocked.step (w : Clocked) : Event → Option Clocked
  | .move m => (w.poller.step w.now m).map fun p =>
      { w with poller := p, begun := if m = .call then w.now else w.begun }
  | .setConnected connected =>
    some { w with
      poller := { w.poller with status := w.poller.status.setConnected connected }
      changedAt := if w.poller.status.connected = connected then w.changedAt else w.now }
  | .pass => if w.Still then some { w with now := w.now + 1 } else none

def Clocked.new (now : Nat) (connected : Bool) : Clocked where
  now
  poller := .new now connected
  begun := 0
  changedAt := 0

/-- The later of the call and the last change, and an interval more. -/
def Clocked.limit (w : Clocked) : Nat :=
  max w.begun w.changedAt + pollInterval w.poller.status.connected

/-- What holds of the deadline wherever the tick is. -/
structure Clocked.Timely (w : Clocked) : Prop where
  begun : w.begun ≤ w.now
  changed : w.changedAt ≤ w.now
  seen : w.poller.status.unseen = false →
    w.poller.deadline ≤ w.now + pollInterval w.poller.status.connected
  check : w.poller.tick = .check → w.now = w.begun ∨ w.now = w.changedAt
  unseen : w.poller.tick = .select → w.poller.status.unseen = true → w.now = w.changedAt
  select : w.poller.tick = .select → w.poller.status.unseen = false → w.poller.deadline ≤ w.limit
  now : w.poller.tick ≠ .idle → w.now ≤ w.limit

theorem timely_new (now : Nat) (connected : Bool) : (Clocked.new now connected).Timely := by
  constructor <;> simp [Clocked.new, PusherAwarePoller.new]

theorem move_timely {w : Clocked} (h : w.Timely) {m : Move} {p : PusherAwarePoller}
    (moved : Moved w.poller w.now m p) :
    Clocked.Timely { w with poller := p, begun := if m = .call then w.now else w.begun } := by
  have begun := h.begun
  have changed := h.changed
  have seen := h.seen
  cases moved with
  | call at_ =>
    exact ⟨Nat.le_refl _, changed, seen, fun _ => .inl rfl, nofun, nofun,
      fun _ => Nat.le_trans (Nat.le_max_left _ _) (Nat.le_add_right _ _)⟩
  | checkSeen at_ same =>
    refine ⟨begun, changed, seen, nofun, by simp [same], fun _ _ => ?_,
      fun _ => h.now (by simp [at_])⟩
    -- the check runs at the instant of the call or of the change
    have due := seen same
    obtain at_call | at_change := h.check at_
    · simp only [Clocked.limit, reduceCtorEq, if_false]
      omega
    · simp only [Clocked.limit, reduceCtorEq, if_false]
      omega
  | checkUnseen at_ unseen =>
    have limit : w.now + pollInterval w.poller.status.connected ≤
        max w.begun w.changedAt + pollInterval w.poller.status.connected := by
      obtain at_call | at_change := h.check at_
      · omega
      · omega
    exact ⟨begun, changed, fun _ => Nat.le_refl _, nofun, nofun, fun _ _ => limit,
      fun _ => h.now (by simp [at_])⟩
  | fire at_ due =>
    refine ⟨begun, changed, fun _ => Nat.le_refl _, nofun, nofun, nofun, fun busy => absurd rfl busy⟩
  | changed at_ unseen =>
    refine ⟨begun, changed, fun _ => Nat.le_refl _, fun _ => .inr (h.unseen at_ unseen), nofun, nofun,
      fun _ => h.now (by simp [at_])⟩
  | cancel at_ =>
    exact ⟨begun, changed, seen, nofun, nofun, nofun, fun busy => absurd rfl busy⟩

theorem setConnected_timely {w : Clocked} (h : w.Timely) (connected : Bool) :
    Clocked.Timely { w with
      poller := { w.poller with status := w.poller.status.setConnected connected }
      changedAt := if w.poller.status.connected = connected then w.changedAt else w.now } := by
  by_cases same : w.poller.status.connected = connected
  · simpa [PusherStatus.setConnected, same] using h
  · simp only [PusherStatus.setConnected, same, if_false]
    exact ⟨h.begun, Nat.le_refl _, nofun, fun _ => .inr rfl, fun _ _ => rfl, nofun,
      fun _ => Nat.le_trans (Nat.le_max_right _ _) (Nat.le_add_right _ _)⟩

theorem pass_timely {w : Clocked} (h : w.Timely) (still : w.Still) :
    Clocked.Timely { w with now := w.now + 1 } := by
  have begun := Nat.le_succ_of_le h.begun
  have changed := Nat.le_succ_of_le h.changed
  have seen : w.poller.status.unseen = false →
      w.poller.deadline ≤ w.now + 1 + pollInterval w.poller.status.connected := by
    intro same
    have due := h.seen same
    omega
  rcases still with idle | ⟨at_, same, ahead⟩
  · exact ⟨begun, changed, seen, by simp [idle], by simp [idle], by simp [idle], by simp [idle]⟩
  · have limit := h.select at_ same
    exact ⟨begun, changed, seen, by simp [at_], by simp [same], fun _ _ => limit,
      fun _ => Nat.le_trans ahead limit⟩

theorem step_timely {w w' : Clocked} {e : Event} (h : w.Timely) (step : w.step e = some w') :
    w'.Timely := by
  cases e with
  | move m =>
    obtain ⟨p, moved, rfl⟩ := Option.map_eq_some_iff.mp step
    exact move_timely h (step_moved moved)
  | setConnected connected =>
    cases step
    exact setConnected_timely h connected
  | pass =>
    obtain ⟨still, rfl⟩ : w.Still ∧ { w with now := w.now + 1 } = w' := by
      simpa [Clocked.step] using step
    exact pass_timely h still

/-- In every run an awaited tick is due by the limit, but for the instant in which a
change has yet to wake it, and is not awaited past the limit. The status it already
has moves nothing. -/
theorem tick_due_soon {start : Nat} {connected : Bool} {es : List Event} {w : Clocked}
    (path : Path (ofFn Clocked.step) (.new start connected) es w) :
    (w.poller.tick = .select →
      w.poller.deadline ≤ w.limit ∨ w.poller.status.unseen = true ∧ w.now = w.changedAt) ∧
    (w.poller.tick ≠ .idle → w.now ≤ w.limit) ∧
    w.step (.setConnected w.poller.status.connected) = some w := by
  have timely : w.Timely :=
    path.invariant (fun _ _ _ before step => step_timely before step) (timely_new start connected)
  refine ⟨fun at_ => ?_, timely.now, by simp [Clocked.step, PusherStatus.setConnected]⟩
  by_cases unseen : w.poller.status.unseen = true
  · exact .inr ⟨unseen, timely.unseen at_ unseen⟩
  · exact .inl (timely.select at_ (by simpa using unseen))

/-- A tick is called again after a cancelled one; then the connection is lost. -/
theorem tick_due_soon_lost :
    ∃ w : Clocked, Path (ofFn Clocked.step) (.new 0 true) [.move .call, .move .check, .pass,
      .move .cancel, .pass, .move .call, .move .check, .pass, .setConnected false,
      .move .changed, .move .check] w ∧
      w.limit = 6003 ∧ w.poller.deadline ≤ w.limit := by
  have path : Path (ofFn Clocked.step) (.new 0 true) [.move .call, .move .check, .pass,
      .move .cancel, .pass, .move .call, .move .check, .pass, .setConnected false,
      .move .changed, .move .check] ⟨3, ⟨⟨false, false⟩, 6003, .select⟩, 2, 3⟩ :=
    Path.of_run rfl
  refine ⟨_, path, rfl, ?_⟩
  obtain ⟨due, -, -⟩ := tick_due_soon path
  exact (due rfl).resolve_right nofun

end Clock

end WalletDaemon.FallbackPoll
