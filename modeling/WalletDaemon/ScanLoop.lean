import WalletDaemon.Transition
import Mathlib.Data.Finset.Basic
import Mathlib.Data.List.Infix

/-! A cursor scan as an outsider sees it, and the loop both pollers run.
A trace holds what a poller shows, newest first. The abstract loop says when a
poller may rest: it keeps one flag for the work its scan left behind, and ends
such a scan with a wait. Rows `Q`, batch outcomes `O` and what is sent besides
the rows `I` are left open. -/

namespace WalletDaemon.ScanLoop

open Transition

variable {Q O I : Type}

inductive Obs (Q O I : Type)
  | lookup (cursor : Option String)
  | failed
  | noResult
  | page (requests : List Q) (next : Option String)
  | tick (requests : List Q) (idle : I)
  | outcome (result : O)
  | idleWait
  | backoffWait (attempt : Nat)

abbrev Trace (Q O I : Type) := List (Obs Q O I)

namespace Obs

def isWait : Obs Q O I → Bool
  | .idleWait => true
  | .backoffWait _ => true
  | _ => false

def isLookup : Obs Q O I → Bool
  | .lookup _ => true
  | _ => false

/-- Work is left behind by a failed lookup, a page without convertible rows that
has a next cursor, and a bad outcome. -/
def leavesWork (bad : O → Bool) : Obs Q O I → Bool
  | .failed => true
  | .page [] (some _) => true
  | .outcome result => bad result
  | _ => false

section Kinds

variable (bad : O → Bool)

@[simp] theorem leavesWork_failed : (failed : Obs Q O I).leavesWork bad = true := rfl

@[simp] theorem leavesWork_noResult : (noResult : Obs Q O I).leavesWork bad = false := rfl

@[simp] theorem leavesWork_lastPage (requests : List Q) :
    (page requests none : Obs Q O I).leavesWork bad = false := by cases requests <;> rfl

@[simp] theorem leavesWork_rows (request : Q) (rest : List Q) (next : Option String) :
    (page (request :: rest) next : Obs Q O I).leavesWork bad = false := rfl

@[simp] theorem leavesWork_noRows (next : String) :
    (page [] (some next) : Obs Q O I).leavesWork bad = true := rfl

@[simp] theorem leavesWork_tick (requests : List Q) (idle : I) :
    (tick requests idle : Obs Q O I).leavesWork bad = false := rfl

@[simp] theorem leavesWork_outcome (result : O) :
    (outcome result : Obs Q O I).leavesWork bad = bad result := rfl

@[simp] theorem leavesWork_backoffWait (attempt : Nat) :
    (backoffWait attempt : Obs Q O I).leavesWork bad = false := rfl

end Kinds

end Obs

def sinceFresh : Trace Q O I → Trace Q O I
  | [] => []
  | .lookup none :: _ => []
  | o :: earlier => o :: sinceFresh earlier

def owed (bad : O → Bool) (trace : Trace Q O I) : Bool :=
  (sinceFresh trace).any (Obs.leavesWork bad)

theorem sinceFresh_cons {o : Obs Q O I} (h : o.isLookup = false) (earlier : Trace Q O I) :
    sinceFresh (o :: earlier) = o :: sinceFresh earlier := by
  cases o <;> first | rfl | cases h

theorem sinceFresh_append {os : Trace Q O I} (h : ∀ o ∈ os, o.isLookup = false)
    (earlier : Trace Q O I) : sinceFresh (os ++ earlier) = os ++ sinceFresh earlier := by
  induction os with
  | nil => rfl
  | cons o os ih =>
    rw [List.cons_append, sinceFresh_cons (h o (by simp)), ih fun p mem => h p (by simp [mem])]
    rfl

theorem owed_append {bad : O → Bool} {os : Trace Q O I} (h : ∀ o ∈ os, o.isLookup = false)
    (earlier : Trace Q O I) :
    owed bad (os ++ earlier) = (os.any (Obs.leavesWork bad) || owed bad earlier) := by
  rw [owed, sinceFresh_append h, List.any_append]
  rfl

theorem owed_cons {bad : O → Bool} {o : Obs Q O I} (h : o.isLookup = false)
    (earlier : Trace Q O I) :
    owed bad (o :: earlier) = (o.leavesWork bad || owed bad earlier) := by
  rw [owed, sinceFresh_cons h, List.any_cons]
  rfl

theorem owed_fresh (bad : O → Bool) (earlier : Trace Q O I) :
    owed bad (.lookup none :: earlier) = false := rfl

theorem owed_continue (bad : O → Bool) (cursor : String) (earlier : Trace Q O I) :
    owed bad (.lookup (some cursor) :: earlier) = owed bad earlier := rfl

/-- `P` of every observation and what was shown before it. -/
def Everywhere (P : Obs Q O I → Trace Q O I → Prop) (trace : Trace Q O I) : Prop :=
  ∀ o earlier, (o :: earlier) <:+ trace → P o earlier

theorem Everywhere.nil (P : Obs Q O I → Trace Q O I → Prop) : Everywhere P [] := by
  intro o earlier suffix
  have empty := List.suffix_nil.mp suffix
  cases empty

theorem everywhere_cons {P : Obs Q O I → Trace Q O I → Prop} {o : Obs Q O I}
    {earlier : Trace Q O I} :
    Everywhere P (o :: earlier) ↔ P o earlier ∧ Everywhere P earlier := by
  constructor
  · intro h
    exact ⟨h o earlier (List.suffix_refl _), fun p past suffix =>
      h p past (suffix.trans (List.suffix_cons _ _))⟩
  · rintro ⟨now, before⟩ p past suffix
    rcases List.suffix_cons_iff.mp suffix with same | inside
    · cases same
      exact now
    · exact before p past inside

theorem everywhere_append {P : Obs Q O I → Trace Q O I → Prop} {os earlier : Trace Q O I}
    (fits : ∀ o ∈ os, ∀ past, P o past) (h : Everywhere P earlier) :
    Everywhere P (os ++ earlier) := by
  induction os with
  | nil => exact h
  | cons o os ih =>
    rw [List.cons_append, everywhere_cons]
    exact ⟨fits o (by simp) _, ih fun p mem => fits p (by simp [mem])⟩

/-- The last thing shown is one backoff wait. -/
def Rested (trace : Trace Q O I) : Prop :=
  ∃ attempt o earlier, trace = .backoffWait attempt :: o :: earlier ∧ o.isWait = false

/-- An idle wait starts only when nothing is owed, and the scan after one that
left work behind starts after exactly one wait, a backoff. -/
def Paced (bad : O → Bool) : Obs Q O I → Trace Q O I → Prop
  | .idleWait, earlier => owed bad earlier = false
  | .lookup none, earlier => owed bad earlier = true → Rested earlier
  | _, _ => True

inductive Stage
  | head
  | idle
  | ready
  | asking
  | sent
  | backoff
  | gone
deriving DecidableEq, Repr

structure View where
  stage : Stage
  cursor : Option String
  fetchNow : Bool
  failureCount : Nat
  flag : Bool

def Stage.Busy (stage : Stage) : Prop := stage = .asking ∨ stage = .sent

/-- No page is being worked on and the loop will ask for one. -/
def Stage.Between (stage : Stage) : Prop := stage = .head ∨ stage = .ready ∨ stage = .backoff

/-- What a busy loop shows: neither lookups nor waits. -/
def Quiet (os : Trace Q O I) : Prop := ∀ o ∈ os, o.isLookup = false ∧ o.isWait = false

/-- Moves of the loop. The flag survives, and is set by work left behind, for as
long as the scan goes on; a scan ends without a wait only when it is not set. -/
inductive Move (bad : O → Bool) : View → Trace Q O I → View → Prop
  | go {v : View} : v.stage = .head → v.fetchNow = true → Move bad v [] { v with stage := .ready }
  | park {v : View} : v.stage = .head → v.fetchNow = false →
      Move bad v [.idleWait] { v with stage := .idle }
  | wake {v : View} : v.stage = .idle → Move bad v [] { v with stage := .ready }
  | ask {v : View} : v.stage = .ready →
      Move bad v [.lookup v.cursor] { v with stage := .asking }
  | hold {v w : View} {os : Trace Q O I} : v.stage.Busy → Quiet os → os ≠ [] →
      w.stage = .sent → (os.any (Obs.leavesWork bad) = true ∨ v.flag = true → w.flag = true) →
      Move bad v os w
  | follow {v w : View} {os : Trace Q O I} : v.stage.Busy → Quiet os →
      w.stage = .head → w.fetchNow = true → w.cursor.isSome = true →
      (os.any (Obs.leavesWork bad) = true ∨ v.flag = true → w.flag = true) →
      Move bad v os w
  | settle {v w : View} {os : Trace Q O I} : v.stage.Busy → Quiet os → v.flag = false →
      os.any (Obs.leavesWork bad) = false → w.stage = .head → w.cursor = none →
      w.failureCount = 0 → Move bad v os w
  | rest {v w : View} {os : Trace Q O I} (attempt : Nat) : v.stage.Busy → Quiet os →
      w.stage = .backoff → w.fetchNow = true →
      (w.cursor.isSome = true → os.any (Obs.leavesWork bad) = true ∨ v.flag = true →
        w.flag = true) →
      Move bad v (.backoffWait attempt :: os) w
  | resume {v : View} : v.stage = .backoff → Move bad v [] { v with stage := .head }
  | leave {v w : View} : v.stage = .sent → w.stage = .gone → Move bad v [] w

structure Accounted (bad : O → Bool) (v : View) (trace : Trace Q O I) : Prop where
  paced : Everywhere (Paced bad) trace
  busy : v.stage.Busy → ∃ o earlier, trace = o :: earlier ∧ o.isWait = false
  flagged : v.stage.Busy → owed bad trace = true → v.flag = true
  continued : v.stage = .head ∨ v.stage = .ready ∨ v.stage = .backoff →
    v.cursor.isSome = true → owed bad trace = true → v.flag = true
  ended : v.stage = .head ∨ v.stage = .idle ∨ v.stage = .ready ∨ v.stage = .backoff →
    v.cursor = none → owed bad trace = true → Rested trace
  parked : v.stage = .head → v.fetchNow = false →
    v.cursor = none ∧ owed bad trace = false ∧ v.failureCount = 0
  idle : v.stage = .idle → v.cursor = none ∧ owed bad trace = false ∧ v.failureCount = 0
  waiting : v.stage = .backoff → Rested trace ∧ v.fetchNow = true

theorem quiet_single {o : Obs Q O I} (lookup : o.isLookup = false) (wait : o.isWait = false) :
    Quiet [o] := by
  intro p member
  rw [List.mem_singleton.mp member]
  exact ⟨lookup, wait⟩

theorem quiet_pair {o p : Obs Q O I} (first : Quiet [o]) (second : Quiet [p]) : Quiet [o, p] := by
  intro q member
  rcases List.mem_cons.mp member with rfl | member
  · exact first q (by simp)
  · exact second q member

theorem quiet_lookup {os : Trace Q O I} (quiet : Quiet os) : ∀ o ∈ os, o.isLookup = false :=
  fun o mem => (quiet o mem).1

theorem quiet_paced {bad : O → Bool} {os earlier : Trace Q O I} (quiet : Quiet os)
    (h : Everywhere (Paced bad) earlier) : Everywhere (Paced bad) (os ++ earlier) := by
  refine everywhere_append (fun o mem past => ?_) h
  have kind := quiet o mem
  cases o with
  | lookup cursor => cases kind.1
  | idleWait => cases kind.2
  | _ => trivial

theorem busy_append {os earlier : Trace Q O I} (quiet : Quiet os)
    (h : ∃ o past, earlier = o :: past ∧ o.isWait = false) :
    ∃ o past, os ++ earlier = o :: past ∧ o.isWait = false := by
  cases os with
  | nil => exact h
  | cons o os => exact ⟨o, os ++ earlier, rfl, (quiet o (by simp)).2⟩

theorem rested_append {os earlier : Trace Q O I} (quiet : Quiet os) (attempt : Nat)
    (h : ∃ o past, earlier = o :: past ∧ o.isWait = false) :
    Rested (.backoffWait attempt :: (os ++ earlier)) := by
  obtain ⟨o, past, shape, kind⟩ := busy_append quiet h
  exact ⟨attempt, o, past, by rw [shape], kind⟩

theorem Move.of_head {bad : O → Bool} {v w : View} {os : Trace Q O I} (move : Move bad v os w)
    (stage : v.stage = .head) (fetch : v.fetchNow = true) :
    os = [] ∧ w = { v with stage := .ready } := by
  cases move <;> simp_all [Stage.Busy]

theorem Move.of_ready {bad : O → Bool} {v w : View} {os : Trace Q O I} (move : Move bad v os w)
    (stage : v.stage = .ready) : os = [.lookup v.cursor] ∧ w = { v with stage := .asking } := by
  cases move <;> simp_all [Stage.Busy]

theorem Move.of_backoff {bad : O → Bool} {v w : View} {os : Trace Q O I} (move : Move bad v os w)
    (stage : v.stage = .backoff) : os = [] ∧ w = { v with stage := .head } := by
  cases move <;> simp_all [Stage.Busy]

theorem Accounted.initial (bad : O → Bool) {v : View} (stage : v.stage = .head)
    (fetchNow : v.fetchNow = true) : Accounted bad v ([] : Trace Q O I) where
  paced := Everywhere.nil _
  busy busy := by simp [stage, Stage.Busy] at busy
  flagged _ owes := by cases owes
  continued _ _ owes := by cases owes
  ended _ _ owes := by cases owes
  parked _ off := by simp [fetchNow] at off
  idle at_ := by simp [stage] at at_
  waiting at_ := by simp [stage] at at_

theorem Accounted.marked {bad : O → Bool} {v : View} {os trace : Trace Q O I}
    (h : Accounted bad v trace) (busy : v.stage.Busy) (quiet : Quiet os)
    (owes : owed bad (os ++ trace) = true) :
    os.any (Obs.leavesWork bad) = true ∨ v.flag = true := by
  rw [owed_append (quiet_lookup quiet), Bool.or_eq_true] at owes
  rcases owes with now | before
  · exact .inl now
  · exact .inr (h.flagged busy before)

theorem Move.accounted {bad : O → Bool} {v w : View} {os trace : Trace Q O I}
    (h : Accounted bad v trace) (move : Move bad v os w) : Accounted bad w (os ++ trace) := by
  cases move with
  | go head fetch =>
    refine ⟨h.paced, ?_, ?_, fun _ => h.continued (.inl head), fun _ => h.ended (.inl head), ?_, ?_,
      ?_⟩ <;> simp [Stage.Busy]
  | park head off =>
    have calm := h.parked head off
    have nothing : owed bad (.idleWait :: trace) = false := by
      rw [owed_cons rfl, calm.2.1]
      rfl
    refine ⟨everywhere_cons.mpr ⟨calm.2.1, h.paced⟩, ?_, ?_, ?_, ?_, ?_, ?_, ?_⟩ <;>
      simp [Stage.Busy, nothing, calm]
  | wake idle =>
    have calm := h.idle idle
    refine ⟨h.paced, ?_, ?_, ?_, ?_, ?_, ?_, ?_⟩ <;> simp [Stage.Busy, calm]
  | ask ready =>
    have rested : Paced bad (.lookup v.cursor) trace := by
      cases cursor : v.cursor with
      | none => exact h.ended (.inr (.inr (.inl ready))) cursor
      | some _ => trivial
    have flagged : owed bad (.lookup v.cursor :: trace) = true → v.flag = true := by
      cases cursor : v.cursor with
      | none => simp [owed_fresh]
      | some c =>
        rw [owed_continue]
        exact h.continued (.inr (.inl ready)) (by simp [cursor])
    refine ⟨everywhere_cons.mpr ⟨rested, h.paced⟩, fun _ => ⟨_, _, rfl, rfl⟩, fun _ => flagged,
      ?_, ?_, ?_, ?_, ?_⟩ <;> simp
  | hold busy quiet some_ sent flagged =>
    have owes : owed bad (os ++ trace) = true → w.flag = true := fun owed_ =>
      flagged (h.marked busy quiet owed_)
    refine ⟨quiet_paced quiet h.paced, fun _ => busy_append quiet (h.busy busy), fun _ => owes,
      ?_, ?_, ?_, ?_, ?_⟩ <;> simp [sent]
  | follow busy quiet head fetch cursor flagged =>
    have owes : owed bad (os ++ trace) = true → w.flag = true := fun owed_ =>
      flagged (h.marked busy quiet owed_)
    have some_ : w.cursor ≠ none := by
      intro none_
      rw [none_] at cursor
      cases cursor
    refine ⟨quiet_paced quiet h.paced, ?_, ?_, fun _ _ => owes, fun _ none_ => absurd none_ some_,
      ?_, ?_, ?_⟩ <;> simp [head, fetch, Stage.Busy]
  | settle busy quiet unset clean head none_ count =>
    have nothing : owed bad (os ++ trace) = false := by
      rw [Bool.eq_false_iff]
      intro owes
      simpa [clean, unset] using h.marked busy quiet owes
    refine ⟨quiet_paced quiet h.paced, ?_, ?_, ?_, ?_, ?_, ?_, ?_⟩ <;>
      simp [head, none_, count, nothing, Stage.Busy]
  | @rest _ os attempt busy quiet stage fetch flagged =>
    have rested := rested_append quiet attempt (h.busy busy)
    have owes : owed bad (.backoffWait attempt :: os ++ trace) = true →
        w.cursor.isSome = true → w.flag = true := by
      rw [List.cons_append, owed_cons rfl, Obs.leavesWork_backoffWait, Bool.false_or]
      exact fun owed_ cursor => flagged cursor (h.marked busy quiet owed_)
    refine ⟨everywhere_cons.mpr ⟨trivial, quiet_paced quiet h.paced⟩, ?_, ?_,
      fun _ cursor owed_ => owes owed_ cursor, fun _ _ _ => rested, ?_, ?_,
      fun _ => ⟨rested, fetch⟩⟩ <;> simp [stage, Stage.Busy]
  | resume stage =>
    have waited := h.waiting stage
    refine ⟨h.paced, ?_, ?_, fun _ => h.continued (.inr (.inr stage)),
      fun _ => h.ended (.inr (.inr (.inr stage))), ?_, ?_, ?_⟩ <;> simp [waited, Stage.Busy]
  | leave _ gone =>
    refine ⟨h.paced, ?_, ?_, ?_, ?_, ?_, ?_, ?_⟩ <;> simp [gone, Stage.Busy]

section Refinement

variable {σ ε : Type} {bad : O → Bool} {step : σ → ε → Option (σ × Trace Q O I)} {view : σ → View}

/-- Whatever happens, the next thing shown is `o`. -/
inductive Next (step : σ → ε → Option (σ × Trace Q O I)) (o : Obs Q O I) : σ → Prop
  | now {s t : σ} {e : ε} : step s e = some (t, [o]) →
      (∀ e t os, step s e = some (t, os) → os = [o]) → Next step o s
  | later {s t : σ} {e : ε} : step s e = some (t, []) →
      (∀ e t os, step s e = some (t, os) → os = []) →
      (∀ e t os, step s e = some (t, os) → Next step o t) → Next step o s

/-- No owed work is parked: the loop idles with nothing owed and no failure
counted, and a scan that left work behind is followed by one wait and then by a
fresh lookup. -/
structure Unparked (bad : O → Bool) (step : σ → ε → Option (σ × Trace Q O I)) (view : σ → View)
    (at_ : σ × Trace Q O I) : Prop where
  paced : Everywhere (Paced bad) at_.2
  idle : (view at_.1).stage = .idle → owed bad at_.2 = false ∧ (view at_.1).failureCount = 0
  ended : (view at_.1).stage ≠ .gone → ¬ (view at_.1).stage.Busy → (view at_.1).cursor = none →
    owed bad at_.2 = true → Rested at_.2 ∧ Next step (.lookup none) at_.1

section Between

variable (moves : ∀ s e t os, (view s).stage.Between → step s e = some (t, os) →
    Move bad (view s) os (view t))
  (alive : ∀ s, (view s).stage.Between → ∃ e t os, step s e = some (t, os))

include moves alive

theorem next_of_ready {s : σ} (stage : (view s).stage = .ready) (none_ : (view s).cursor = none) :
    Next step (.lookup none) s := by
  have between : (view s).stage.Between := .inr (.inl stage)
  have shows : ∀ e t os, step s e = some (t, os) → os = [.lookup none] := by
    intro e t os h
    have only := ((moves s e t os between h).of_ready stage).1
    rwa [none_] at only
  obtain ⟨e, t, os, h⟩ := alive s between
  rw [shows e t os h] at h
  exact .now h shows

theorem next_of_head {s : σ} (stage : (view s).stage = .head) (fetch : (view s).fetchNow = true)
    (none_ : (view s).cursor = none) : Next step (.lookup none) s := by
  have between : (view s).stage.Between := .inl stage
  have only : ∀ e t os, step s e = some (t, os) →
      os = [] ∧ view t = { view s with stage := .ready } :=
    fun e t os h => (moves s e t os between h).of_head stage fetch
  obtain ⟨e, t, os, h⟩ := alive s between
  rw [(only e t os h).1] at h
  refine .later h (fun e t os h => (only e t os h).1) fun e t os h => ?_
  have same := (only e t os h).2
  exact next_of_ready moves alive (by rw [same]) (by rw [same]; exact none_)

theorem next_of_backoff {s : σ} (stage : (view s).stage = .backoff)
    (fetch : (view s).fetchNow = true) (none_ : (view s).cursor = none) :
    Next step (.lookup none) s := by
  have between : (view s).stage.Between := .inr (.inr stage)
  have only : ∀ e t os, step s e = some (t, os) →
      os = [] ∧ view t = { view s with stage := .head } :=
    fun e t os h => (moves s e t os between h).of_backoff stage
  obtain ⟨e, t, os, h⟩ := alive s between
  rw [(only e t os h).1] at h
  refine .later h (fun e t os h => (only e t os h).1) fun e t os h => ?_
  have same := (only e t os h).2
  exact next_of_head moves alive (by rw [same]) (by rw [same]; exact fetch)
    (by rw [same]; exact none_)

theorem Accounted.unparked {at_ : σ × Trace Q O I} (h : Accounted bad (view at_.1) at_.2) :
    Unparked bad step view at_ where
  paced := h.paced
  idle idle := (h.idle idle).2
  ended here lazy none_ owes := by
    cases stage : (view at_.1).stage with
    | head =>
      have fetch : (view at_.1).fetchNow = true := by
        by_contra off
        have calm := h.parked stage (by simpa using off)
        rw [calm.2.1] at owes
        cases owes
      exact ⟨h.ended (.inl stage) none_ owes, next_of_head moves alive stage fetch none_⟩
    | idle =>
      rw [(h.idle stage).2.1] at owes
      cases owes
    | ready =>
      exact ⟨h.ended (.inr (.inr (.inl stage))) none_ owes, next_of_ready moves alive stage none_⟩
    | backoff =>
      have waited := h.waiting stage
      exact ⟨waited.1, next_of_backoff moves alive stage waited.2 none_⟩
    | asking => exact absurd (.inl stage) lazy
    | sent => exact absurd (.inr stage) lazy
    | gone => exact absurd stage here

end Between

/-- A poller whose steps are moves of the loop, as long as its state is `sane`,
accounts for its work in every run. -/
theorem accounted_of_moves {ok : σ × Trace Q O I → ε → Prop} {sane : σ → Prop}
    (moves : ∀ at_ e t os, sane at_.1 → ok at_ e → step at_.1 e = some (t, os) →
      Move bad (view at_.1) os (view t) ∧ sane t)
    {s : σ} (start : sane s) (stage : (view s).stage = .head)
    (fetchNow : (view s).fetchNow = true)
    {es : List ε} {reached : σ × Trace Q O I}
    (path : Path (gated ok (traced step)) (s, []) es reached) :
    Accounted bad (view reached.1) reached.2 := by
  have all := path.invariant
    (I := fun at_ => Accounted bad (view at_.1) at_.2 ∧ sane at_.1) ?_
    ⟨Accounted.initial bad stage fetchNow, start⟩
  · exact all.1
  · rintro ⟨s, before⟩ e ⟨t, after⟩ ⟨account, sane_⟩ ⟨allowed, os, stepped, rest⟩
    obtain ⟨move, next⟩ := moves (s, before) e t os sane_ allowed stepped
    rw [rest]
    exact ⟨move.accounted account, next⟩

end Refinement

end WalletDaemon.ScanLoop
