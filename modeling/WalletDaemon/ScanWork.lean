import WalletDaemon.ScanLoop

/-! What a scan has done by the time it ends.
A page's rows are handed over and answered before the next page is asked for. `settled`
says of rows that the work on them is done; work that is done stays done. -/

namespace WalletDaemon.ScanLoop

variable {Q O I : Type}

/-- Nothing that begins or ends a scan, and no rows. -/
def Obs.Plain : Obs Q O I → Prop
  | .lookup _ => False
  | .idleWait => False
  | .tick requests _ => requests = []
  | .page requests _ => requests = []
  | _ => True

/-- The work on the pages that the scan has met is done. -/
def Settled (settled : List Q → Prop) (trace : Trace Q O I) : Prop :=
  ∀ requests next, .page requests next ∈ sinceFresh trace → settled requests

/-- A scan that is over owes its rows, or has settled them. -/
def EndsSettled (bad : O → Bool) (settled : List Q → Prop) : Obs Q O I → Trace Q O I → Prop
  | .lookup none, earlier => owed bad earlier = false → Settled settled earlier
  | .idleWait, earlier => owed bad earlier = false → Settled settled earlier
  | _, _ => True

/-- What the loop shows while no rows are being worked on, and the rows that it hands over. -/
inductive Emits : Trace Q O I → Option (List Q) → Prop
  | begins (cursor : Option String) : Emits [.lookup cursor] none
  | parks : Emits [.idleWait] none
  | plain {os : Trace Q O I} : (∀ o ∈ os, o.Plain) → Emits os none
  | hands (requests : List Q) (idle : I) (next : Option String) :
      Emits [.tick requests idle, .page requests next] (some requests)

def Answers (result : O) (os : Trace Q O I) : Prop :=
  os = [.outcome result] ∨ ∃ attempt, os = [.backoffWait attempt, .outcome result]

/-- A scan that owes nothing has settled its rows, but for those that were handed over last
and are being worked on. -/
def Tallied (bad : O → Bool) (settled : List Q → Prop) : Option (List Q) → Trace Q O I → Prop
  | none, trace => owed bad trace = false → Settled settled trace
  | some away, trace => ∃ idle next earlier,
    trace = .tick away idle :: .page away next :: earlier ∧
      (owed bad earlier = false → Settled settled earlier)

section Kinds

theorem Obs.Plain.isLookup {o : Obs Q O I} (plain : o.Plain) : o.isLookup = false := by
  cases o with
  | lookup _ => exact plain.elim
  | _ => rfl

theorem Answers.plain {result : O} {os : Trace Q O I} (answers : Answers result os) :
    ∀ o ∈ os, o.Plain := by
  rcases answers with rfl | ⟨attempt, rfl⟩
  · simp [Obs.Plain]
  · simp [Obs.Plain]

theorem Answers.leaves {bad : O → Bool} {result : O} {os : Trace Q O I}
    (answers : Answers result os) : os.any (Obs.leavesWork bad) = bad result := by
  rcases answers with rfl | ⟨attempt, rfl⟩
  · simp
  · simp

end Kinds

section Account

variable {bad : O → Bool} {settled more : List Q → Prop}

theorem Settled.mono (kept : ∀ requests, settled requests → more requests) {trace : Trace Q O I}
    (h : Settled settled trace) : Settled more trace :=
  fun requests next member => kept requests (h requests next member)

theorem EndsSettled.mono (kept : ∀ requests, settled requests → more requests) {o : Obs Q O I}
    {earlier : Trace Q O I} (h : EndsSettled bad settled o earlier) :
    EndsSettled bad more o earlier := by
  cases o with
  | idleWait => exact fun clean => (h clean).mono kept
  | lookup cursor =>
    cases cursor with
    | none => exact fun clean => (h clean).mono kept
    | some _ => trivial
  | _ => trivial

theorem Tallied.mono (kept : ∀ requests, settled requests → more requests) {away : Option (List Q)}
    {trace : Trace Q O I} (h : Tallied bad settled away trace) : Tallied bad more away trace := by
  cases away with
  | none => exact fun clean => (h clean).mono kept
  | some away =>
    obtain ⟨idle, next, earlier, shape, before⟩ := h
    exact ⟨idle, next, earlier, shape, fun clean => (before clean).mono kept⟩

theorem Obs.Plain.ends {o : Obs Q O I} (plain : o.Plain) (earlier : Trace Q O I) :
    EndsSettled bad settled o earlier := by
  cases o with
  | lookup _ => exact plain.elim
  | idleWait => exact plain.elim
  | _ => trivial

theorem settled_plain (nothing : settled []) {os trace : Trace Q O I} (plain : ∀ o ∈ os, o.Plain)
    (even : owed bad trace = false → Settled settled trace)
    (clean : owed bad (os ++ trace) = false) : Settled settled (os ++ trace) := by
  have quiet : ∀ o ∈ os, o.isLookup = false := fun o member => (plain o member).isLookup
  rw [owed_append quiet, Bool.or_eq_false_iff] at clean
  intro requests next member
  rw [sinceFresh_append quiet, List.mem_append] at member
  rcases member with now | before
  · obtain rfl : requests = [] := plain _ now
    exact nothing
  · exact even clean.2 requests next before

theorem Emits.tallied (nothing : settled []) {os trace : Trace Q O I} {away : Option (List Q)}
    (emits : Emits os away) (tallied : Tallied bad settled none trace) :
    Tallied bad settled away (os ++ trace) := by
  cases emits with
  | begins cursor =>
    intro clean requests next member
    cases cursor with
    | none => cases member
    | some c =>
      rw [List.singleton_append, owed_continue] at clean
      rcases List.mem_cons.mp member with lookup | before
      · cases lookup
      · exact tallied clean requests next before
  | parks =>
    intro clean requests next member
    rw [List.singleton_append, owed_cons rfl, Bool.or_eq_false_iff] at clean
    rcases List.mem_cons.mp member with wait | before
    · cases wait
    · exact tallied clean.2 requests next before
  | plain plain => exact settled_plain nothing plain tallied
  | hands requests idle next => exact ⟨idle, next, trace, rfl, tallied⟩

theorem Emits.ends {os trace : Trace Q O I} {away : Option (List Q)} (emits : Emits os away)
    (tallied : Tallied bad settled none trace) (ends : Everywhere (EndsSettled bad settled) trace) :
    Everywhere (EndsSettled bad settled) (os ++ trace) := by
  cases emits with
  | begins cursor =>
    refine everywhere_cons.mpr ⟨?_, ends⟩
    cases cursor with
    | none => exact tallied
    | some c => trivial
  | parks => exact everywhere_cons.mpr ⟨tallied, ends⟩
  | plain plain => exact everywhere_append (fun o member past => (plain o member).ends past) ends
  | hands requests idle next =>
    exact everywhere_cons.mpr ⟨trivial, everywhere_cons.mpr ⟨trivial, ends⟩⟩

theorem Answers.ends {result : O} {os trace : Trace Q O I} (answers : Answers result os)
    (ends : Everywhere (EndsSettled bad settled) trace) :
    Everywhere (EndsSettled bad settled) (os ++ trace) :=
  everywhere_append (fun o member past => (answers.plain o member).ends past) ends

theorem Answers.tallied (nothing : settled []) {away : List Q} {result : O} {os trace : Trace Q O I}
    (answers : Answers result os) (tallied : Tallied bad settled (some away) trace)
    (taken : bad result = false → settled away) : Tallied bad settled none (os ++ trace) := by
  obtain ⟨idle, next, earlier, rfl, before⟩ := tallied
  intro clean
  refine settled_plain nothing answers.plain (fun owes => ?_) clean
  have quiet : ∀ o ∈ os, o.isLookup = false := fun o member => (answers.plain o member).isLookup
  rw [owed_append quiet, answers.leaves, Bool.or_eq_false_iff] at clean
  rw [owed_cons rfl, owed_cons rfl, Bool.or_eq_false_iff, Bool.or_eq_false_iff] at owes
  intro requests next' member
  rw [sinceFresh_cons rfl, sinceFresh_cons rfl, List.mem_cons, List.mem_cons] at member
  rcases member with tick | page | past
  · cases tick
  · cases page
    exact taken clean.1
  · exact before owes.2.2 requests next' past

end Account

end WalletDaemon.ScanLoop
