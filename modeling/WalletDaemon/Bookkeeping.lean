import WalletDaemon.Notifications

/-! What the state of a trigger says of the calls made on it. Each call locks the
state once, so the calls of any number of tasks are one sequence. -/

namespace WalletDaemon.Bookkeeping

open Notify Transition WorkTrigger PusherConnection Notifications

/-- A call on a trigger. `deferred` is what `finish_batch` answers. -/
inductive Op
  | recordEvent (now : Nat)
  | force
  | beginFreshLookup
  | finishBatch (scanComplete deferred : Bool)
  | finishEmptyLookup
deriving DecidableEq, Repr

def step (t : TriggerState) : Op → Option TriggerState
  | .recordEvent now => some (t.recordEvent now)
  | .force => some t.force
  | .beginFreshLookup => t.called .beginFreshLookup
  | .finishBatch scanComplete deferred => t.called (.finishBatch scanComplete deferred)
  | .finishEmptyLookup => t.called .finishEmptyLookup

/-- The calls since the last fresh lookup began, or since the start, newest first. -/
def sinceFresh (ops : List Op) : List Op := ops.reverse.takeWhile fun op => op ≠ .beginFreshLookup

def Op.eventTime : Op → Option Nat
  | .recordEvent now => some now
  | _ => none

/-- The times of the events among them, the last event first. -/
def eventTimes (ops : List Op) : List Nat := (sinceFresh ops).filterMap Op.eventTime

variable {t u : TriggerState} {ops : List Op} {op : Op}

@[simp] theorem sinceFresh_begin (ops : List Op) :
    sinceFresh (ops ++ [.beginFreshLookup]) = [] := by
  simp [sinceFresh]

@[simp] theorem sinceFresh_snoc (other : op ≠ .beginFreshLookup) :
    sinceFresh (ops ++ [op]) = op :: sinceFresh ops := by
  simp [sinceFresh, other]

theorem eventTimes_begin (ops : List Op) : eventTimes (ops ++ [.beginFreshLookup]) = [] := by
  simp [eventTimes]

theorem eventTimes_event (ops : List Op) (now : Nat) :
    eventTimes (ops ++ [.recordEvent now]) = now :: eventTimes ops := by
  simp [eventTimes, Op.eventTime]

theorem eventTimes_quiet (other : op ≠ .beginFreshLookup) (quiet : op.eventTime = none) :
    eventTimes (ops ++ [op]) = eventTimes ops := by
  rw [eventTimes, sinceFresh_snoc other, List.filterMap_cons_none quiet]
  rfl

/-- The invariant. A generation that a lookup began at is behind by the events since,
up to wrapping. -/
structure Booked (t : TriggerState) (ops : List Op) : Prop where
  count : t.pendingEventCount = min (eventTimes ops).length eventTriggerLimit
  deadline : t.debounceDeadline = (eventTimes ops).head?.map (· + eventDebounce)
  forced : t.forced = true ↔ .force ∈ sinceFresh ops
  generation : ∀ began, t.lookupGeneration = some began →
    t.eventGeneration = began + UInt64.ofNat (eventTimes ops).length

theorem booked_initial : Booked .initial [] := by
  constructor <;> simp [TriggerState.initial, eventTimes, sinceFresh]

theorem recordEvent_booked (h : Booked t ops) (now : Nat) :
    Booked (t.recordEvent now) (ops ++ [.recordEvent now]) := by
  constructor
  · have counted := h.count
    simp only [TriggerState.recordEvent, eventTimes_event, List.length_cons]
    omega
  · rw [eventTimes_event]
    rfl
  · simpa [TriggerState.recordEvent] using h.forced
  · intro began at_
    rw [eventTimes_event, List.length_cons, UInt64.ofNat_add, ← UInt64.add_assoc,
      ← h.generation began at_]
    rfl

theorem force_booked (h : Booked t ops) : Booked t.force (ops ++ [.force]) := by
  have same : eventTimes (ops ++ [.force]) = eventTimes ops := eventTimes_quiet nofun rfl
  constructor
  · rw [same]
    exact h.count
  · rw [same]
    exact h.deadline
  · simp [TriggerState.force]
  · rw [same]
    exact h.generation

theorem beginFreshLookup_booked (t : TriggerState) (ops : List Op) :
    Booked t.beginFreshLookup (ops ++ [.beginFreshLookup]) := by
  constructor
  · rw [eventTimes_begin]
    rfl
  · rw [eventTimes_begin]
    rfl
  · simp [TriggerState.beginFreshLookup]
  · intro began at_
    rw [eventTimes_begin]
    simpa [TriggerState.beginFreshLookup] using at_

theorem Booked.finish (h : Booked t ops) (same : t.SamePending u)
    (events : u.eventGeneration = t.eventGeneration)
    (lookup : u.lookupGeneration = none ∨ u.lookupGeneration = t.lookupGeneration)
    (other : op ≠ .beginFreshLookup) (quiet : op.eventTime = none) (unforced : op ≠ .force) :
    Booked u (ops ++ [op]) := by
  obtain ⟨forced, pending, deadline⟩ := same
  constructor
  · rw [eventTimes_quiet other quiet, pending]
    exact h.count
  · rw [eventTimes_quiet other quiet, deadline]
    exact h.deadline
  · rw [sinceFresh_snoc other, List.mem_cons, forced, h.forced]
    simp [Ne.symm unforced]
  · intro began at_
    rw [eventTimes_quiet other quiet, events]
    rcases lookup with none_ | kept
    · rw [none_] at at_
      cases at_
    · exact h.generation began (kept ▸ at_)

theorem step_booked (h : Booked t ops) (stepped : step t op = some u) :
    Booked u (ops ++ [op]) := by
  cases op with
  | recordEvent now =>
    cases stepped
    exact recordEvent_booked h now
  | force =>
    cases stepped
    exact force_booked h
  | beginFreshLookup =>
    cases stepped
    exact beginFreshLookup_booked t ops
  | finishBatch scanComplete deferred =>
    simp only [step, TriggerState.called] at stepped
    split at stepped
    · cases stepped
      refine h.finish ⟨by simp, by simp, by simp⟩ ?_ ?_ (by simp) rfl (by simp)
      · cases scanComplete <;> rfl
      · cases scanComplete
        · exact .inr rfl
        · exact .inl rfl
    · cases stepped
  | finishEmptyLookup =>
    cases stepped
    exact h.finish ⟨rfl, rfl, rfl⟩ rfl (.inl rfl) (by simp) rfl (by simp)

/-- A generation that differs only ever tells of events that are pending too. -/
theorem Booked.deferred_iff (h : Booked t ops) :
    t.deferred = true ↔ 0 < (eventTimes ops).length ∨ .force ∈ sinceFresh ops := by
  have pending : 0 < t.pendingEventCount ↔ 0 < (eventTimes ops).length := by
    have counted := h.count
    simp only [eventTriggerLimit] at counted
    omega
  constructor
  · intro deferred
    simp only [TriggerState.deferred, Bool.or_eq_true, decide_eq_true_eq] at deferred
    rcases deferred with (forced | events) | changed
    · exact .inr (h.forced.mp forced)
    · exact .inl (pending.mp events)
    · obtain ⟨began, at_, differs⟩ := (Option.any_eq_true _ _).mp changed
      refine .inl (Nat.pos_of_ne_zero fun none_ => ?_)
      have same := h.generation began at_
      rw [none_] at same
      simp [same] at differs
  · rintro (events | forced)
    · exact TriggerState.Armed.deferred (.inr (pending.mpr events))
    · exact TriggerState.Armed.deferred (.inl (h.forced.mpr forced))

theorem path_booked (path : Path (ofFn step) .initial ops t) : Booked t ops := by
  induction path with
  | refl => exact booked_initial
  | snoc _ last ih => exact step_booked ih last

/-- After any calls the state counts the events since the last fresh lookup began,
holds the deadline of the last one and tells of a force since; and `finish_batch`
answers by these alone, though the generation may have wrapped. -/
theorem bookkeeping_exact (path : Path (ofFn step) .initial ops t) :
    t.pendingEventCount = min (eventTimes ops).length eventTriggerLimit ∧
      (t.debounceDeadline.isSome = true ↔ 0 < (eventTimes ops).length) ∧
      (∀ last earlier, eventTimes ops = last :: earlier →
        t.debounceDeadline = some (last + eventDebounce)) ∧
      (t.forced = true ↔ .force ∈ sinceFresh ops) ∧
      ∀ scanComplete deferred, (step t (.finishBatch scanComplete deferred)).isSome = true ↔
        (deferred = true ↔ 0 < (eventTimes ops).length ∨ .force ∈ sinceFresh ops) := by
  have h := path_booked path
  refine ⟨h.count, ?_, fun last earlier times => ?_, h.forced, fun scanComplete deferred => ?_⟩
  · rw [h.deadline, Option.isSome_map, List.isSome_head?, List.length_pos_iff]
  · rw [h.deadline, times]
    rfl
  · rw [← h.deferred_iff]
    simp only [step, TriggerState.called]
    split
    · rename_i answer
      exact iff_of_true rfl (by rw [answer])
    · rename_i other
      refine iff_of_false (by simp) fun same => other ?_
      exact Bool.eq_iff_iff.mpr same

/-- The event before the lookup is forgotten; the one after it is not. -/
theorem bookkeeping_exact_run :
    ∃ t, Path (ofFn step) .initial [.recordEvent 3, .beginFreshLookup,
        .recordEvent 10, .finishBatch false true, .finishEmptyLookup] t ∧
      t.pendingEventCount = 1 ∧ t.debounceDeadline = some 510 := by
  have path : Path (ofFn step) .initial [.recordEvent 3, .beginFreshLookup,
      .recordEvent 10, .finishBatch false true, .finishEmptyLookup] _ := Path.of_run rfl
  have exact_ := bookkeeping_exact path
  exact ⟨_, path, exact_.1, exact_.2.2.1 10 [] rfl⟩

section Daemon

def Op.entry : Op → Option Entry
  | .recordEvent _ => some .notified
  | .force => some .resubscribed
  | .beginFreshLookup => some .lookupStarted
  | _ => none

def logged (ops : List Op) : List Entry := ops.reverse.filterMap Op.entry

theorem logged_snoc (ops : List Op) (op : Op) :
    logged (ops ++ [op]) = op.entry.toList ++ logged ops := by
  simp only [logged, List.reverse_append, List.reverse_singleton, List.singleton_append]
  cases op <;> rfl

variable {N σ ε : Type} {notifier : Notifier N} {l l' : Station N}

/-- The station's log is that of calls which lead to its trigger's state. -/
def Reached (l : Station N) : Prop :=
  ∃ ops, Path (ofFn step) .initial ops l.trigger.state ∧ logged ops = l.log

theorem initial_reached : Reached (Station.initial notifier) := ⟨[], .refl, rfl⟩

theorem Reached.call (h : Reached l) (op : Op)
    (stepped : step l.trigger.state op = some l'.trigger.state)
    (log : l'.log = op.entry.toList ++ l.log) : Reached l' := by
  obtain ⟨ops, path, same⟩ := h
  exact ⟨ops ++ [op], path.snoc stepped, by rw [logged_snoc, same, log]⟩

theorem Reached.stay (h : Reached l) (state : l'.trigger.state = l.trigger.state)
    (log : l'.log = l.log) : Reached l' := by
  unfold Reached
  rw [state, log]
  exact h

theorem called_reached (h : Reached l) {call : Call} {wait : Wait}
    (called : l.called notifier call wait = some l') : Reached l' := by
  obtain ⟨state, answered, rfl⟩ := Option.map_eq_some_iff.mp called
  cases call with
  | none =>
    cases answered
    exact h.stay rfl rfl
  | beginFreshLookup => exact h.call .beginFreshLookup answered rfl
  | finishBatch scanComplete deferred =>
    exact h.call (.finishBatch scanComplete deferred) answered rfl
  | finishEmptyLookup => exact h.call .finishEmptyLookup answered rfl

theorem updated_reached (h : Reached l) (now : Nat) (update : Update) :
    Reached (l.updated now update) := by
  cases update with
  | force => exact h.call .force rfl rfl
  | recordEvent => exact h.call (.recordEvent now) rfl rfl

theorem signalled_reached (h : Reached l) (target : Target) (now : Nat) (signal : Signal) :
    Reached (l.signalled notifier target now signal) := by
  cases signal with
  | quiet => exact h
  | update called update =>
    simp only [Station.signalled]
    split
    · exact updated_reached h now update
    · exact h
  | notify called =>
    simp only [Station.signalled]
    split
    · exact h.stay rfl rfl
    · exact h

theorem worker_reached {loop : Loop σ ε} {now : Nat} {w w' : Worker σ N} {e : WorkerEvent ε}
    (h : Reached w.station) (stepped : w.step notifier loop now e = some w') :
    Reached w'.station := by
  cases e with
  | poll e =>
    obtain ⟨poller, -, rest⟩ := Option.bind_eq_some_iff.mp stepped
    obtain ⟨station, called, rfl⟩ := Option.map_eq_some_iff.mp rest
    exact called_reached h called
  | proceed =>
    obtain ⟨moved, proceeded, rfl⟩ := Option.map_eq_some_iff.mp stepped
    exact h.stay (proceed_state notifier proceeded) rfl
  | expire =>
    obtain ⟨moved, expired, rfl⟩ := Option.map_eq_some_iff.mp stepped
    exact h.stay (expire_wakeful notifier expired).1 rfl

theorem station_reached {now : Nat} {actions : List Notifications.Action}
    {s : Notifications.System N}
    (path : Path (ofFn (Notifications.step notifier)) (initial notifier now) actions s)
    (target : Target) : Reached (s.station target) := by
  have both : Reached s.transactions.station ∧ Reached s.wallets.station := by
    refine path.invariant (I := fun u => Reached u.transactions.station ∧ Reached u.wallets.station)
      (fun u a v reached stepped => ?_) ⟨initial_reached, initial_reached⟩
    cases a with
    | pass time =>
      cases stepped
      exact reached
    | connection e =>
      obtain ⟨moved, -, rfl⟩ := Option.map_eq_some_iff.mp stepped
      exact ⟨signalled_reached reached.1 _ _ _, signalled_reached reached.2 _ _ _⟩
    | transactions e =>
      obtain ⟨transactions, moved, rfl⟩ := Option.map_eq_some_iff.mp stepped
      exact ⟨worker_reached reached.1 moved, reached.2⟩
    | wallets e =>
      obtain ⟨wallets, moved, rfl⟩ := Option.map_eq_some_iff.mp stepped
      exact ⟨reached.1, worker_reached reached.2 moved⟩
  cases target with
  | transaction => exact both.1
  | wallet => exact both.2

/-- What reached a station since its last fresh lookup began. -/
def sinceLookup (log : List Entry) : List Entry := log.takeWhile fun entry => entry ≠ .lookupStarted

theorem sinceLookup_logged (ops : List Op) :
    sinceLookup (logged ops) = (sinceFresh ops).filterMap Op.entry := by
  unfold sinceLookup logged sinceFresh
  induction ops.reverse with
  | nil => rfl
  | cons op ops ih => cases op <;> simp_all [Op.entry, List.filterMap_cons]

theorem count_notified (ops : List Op) :
    (sinceLookup (logged ops)).count .notified = (eventTimes ops).length := by
  rw [sinceLookup_logged, eventTimes]
  induction sinceFresh ops with
  | nil => rfl
  | cons op ops ih => cases op <;> simp [Op.entry, Op.eventTime, List.filterMap_cons, ih]

theorem mem_resubscribed (ops : List Op) :
    .resubscribed ∈ sinceLookup (logged ops) ↔ .force ∈ sinceFresh ops := by
  rw [sinceLookup_logged]
  induction sinceFresh ops with
  | nil => simp
  | cons op ops ih => cases op <;> simp [Op.entry, List.filterMap_cons, ih]

/-- In every run of the daemon, what either trigger answers its worker is whether
anything reached it since the worker's last fresh lookup began. -/
theorem daemon_deferred_iff {now : Nat} {actions : List Notifications.Action}
    {s : Notifications.System N}
    (path : Path (ofFn (Notifications.step notifier)) (initial notifier now) actions s)
    (target : Target) :
    (s.station target).trigger.state.deferred = true ↔
      sinceLookup (s.station target).log ≠ [] := by
  obtain ⟨ops, calls, log⟩ := station_reached path target
  rw [(path_booked calls).deferred_iff, ← log, ← count_notified, ← mem_resubscribed]
  constructor
  · rintro (events | forced) none_
    · simp [none_] at events
    · simp [none_] at forced
  · intro some_
    obtain ⟨entry, rest, shape⟩ := List.exists_cons_of_ne_nil some_
    have started : entry ≠ .lookupStarted := by
      have member : entry ∈ sinceLookup (logged ops) := by simp [shape]
      simpa using List.mem_takeWhile_imp member
    cases entry with
    | notified => simp [shape]
    | resubscribed => simp [shape]
    | lookupStarted => exact absurd rfl started

end Daemon

end WalletDaemon.Bookkeeping
