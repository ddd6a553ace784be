import WalletDaemon.OwedWork

/-! How the delays of scans that leave work behind grow. A page that makes
progress resets the count of failures, unless its scan was marked for a retry
before; that a later page leaves work behind is not known then. -/

namespace WalletDaemon

open Platform Transition Retry ScanLoop

namespace ScanLoop

variable {Q O I : Type}

section Counting

variable (bad progress : O → Bool)

def Obs.isBad : Obs Q O I → Bool
  | .outcome result => bad result
  | _ => false

/-- A page of the current scan was left behind, in part or in whole. -/
def leftBehind (trace : Trace Q O I) : Bool := (sinceFresh trace).any (Obs.isBad bad)

/-- The scans in a row, before the current one, that left work behind. -/
def strikes : Trace Q O I → Nat
  | [] => 0
  | .lookup none :: earlier => if leftBehind bad earlier then strikes earlier + 1 else 0
  | _ :: earlier => strikes earlier

/-- A page of the current scan made progress while nothing was owed yet. -/
def relaxed : Trace Q O I → Bool
  | [] => false
  | .lookup none :: _ => false
  | .outcome result :: earlier => (progress result && !owed bad earlier) || relaxed earlier
  | _ :: earlier => relaxed earlier

/-- A scan that left work behind waits at least as long as the scans before it in
a row call for, and is followed by such a wait. -/
def Escalates : Obs Q O I → Trace Q O I → Prop
  | .backoffWait attempt, earlier => leftBehind bad earlier = true →
      exponentialDelay (strikes bad earlier) ≤ exponentialDelay attempt
  | .idleWait, earlier => leftBehind bad earlier = false
  | .lookup none, earlier => leftBehind bad earlier = true →
      ∃ attempt past, earlier = .backoffWait attempt :: past
  | _, _ => True

def Plain (os : Trace Q O I) : Prop :=
  ∀ o ∈ os, o.isLookup = false ∧ o.isWait = false ∧ ∀ result, o ≠ .outcome result

variable {bad progress} {trace os : Trace Q O I}

theorem plain_nil : Plain ([] : Trace Q O I) := fun _ member => absurd member List.not_mem_nil

theorem plain_cons {o : Obs Q O I}
    (kind : o.isLookup = false ∧ o.isWait = false ∧ ∀ result, o ≠ .outcome result)
    (plain : Plain os) : Plain (o :: os) := by
  intro p member
  rcases List.mem_cons.mp member with rfl | member
  · exact kind
  · exact plain p member

theorem plain_tick (plain : Plain os) (requests : List Q) (idle : I) :
    Plain (.tick requests idle :: os) :=
  plain_cons ⟨rfl, rfl, nofun⟩ plain

theorem plain_page (requests : List Q) (nextCursor : Option String) :
    Plain [(.page requests nextCursor : Obs Q O I)] :=
  plain_cons ⟨rfl, rfl, nofun⟩ plain_nil

theorem plain_noResult : Plain [(.noResult : Obs Q O I)] :=
  plain_cons ⟨rfl, rfl, nofun⟩ plain_nil

theorem plain_failed : Plain [(.failed : Obs Q O I)] :=
  plain_cons ⟨rfl, rfl, nofun⟩ plain_nil

theorem leftBehind_cons {o : Obs Q O I} (h : o.isLookup = false) :
    leftBehind bad (o :: trace) = (o.isBad bad || leftBehind bad trace) := by
  rw [leftBehind, sinceFresh_cons h, List.any_cons]
  rfl

theorem owed_of_leftBehind (h : leftBehind bad trace = true) : owed bad trace = true := by
  obtain ⟨o, member, isBad⟩ := List.any_eq_true.mp h
  refine List.any_eq_true.mpr ⟨o, member, ?_⟩
  cases o with
  | outcome result => exact isBad
  | _ => cases isBad

theorem strikes_cons {o : Obs Q O I} (h : o.isLookup = false) :
    strikes bad (o :: trace) = strikes bad trace := by
  cases o with
  | lookup cursor => cases h
  | _ => rfl

theorem plain_append (bad progress : O → Bool) (trace : Trace Q O I) (plain : Plain os) :
    leftBehind bad (os ++ trace) = leftBehind bad trace ∧
      strikes bad (os ++ trace) = strikes bad trace ∧
      relaxed bad progress (os ++ trace) = relaxed bad progress trace ∧
      owed bad (os ++ trace) = (os.any (Obs.leavesWork bad) || owed bad trace) := by
  refine ⟨?_, ?_, ?_, owed_append (fun o member => (plain o member).1) trace⟩
  all_goals
    induction os with
    | nil => rfl
    | cons o os ih =>
      have kind := plain o (by simp)
      have rest := ih fun p member => plain p (by simp [member])
      cases o with
      | lookup cursor => cases kind.1
      | outcome result => exact absurd rfl (kind.2.2 result)
      | _ => exact rest

/-- Where a scan is: a page is worked on, the next one is due, its end is being
reported, or it is over. -/
inductive Place
  | scanning
  | following
  | closing
  | ended
  | gone
deriving DecidableEq, Repr

/-- What the poller keeps, as far as delays depend on it. -/
structure Tally where
  fetchNow : Bool
  flag : Bool
  count : Nat

/-- Within a scan the count is kept but for progress before anything is owed. -/
structure InScan (bad progress : O → Bool) (tally : Tally) (trace : Trace Q O I) : Prop where
  flagged : owed bad trace = true → tally.flag = true
  kept : relaxed bad progress trace = false → min (strikes bad trace) 6 ≤ tally.count
  first : leftBehind bad trace = true → relaxed bad progress trace = true →
    strikes bad trace = 0

def Escalating (bad progress : O → Bool) (place : Place) (tally : Tally) (trace : Trace Q O I) :
    Prop :=
  Everywhere (Escalates bad) trace ∧
    match place with
    | .scanning => InScan bad progress tally trace
    | .following => InScan bad progress tally trace ∧ tally.fetchNow = true
    | .closing => leftBehind bad trace = true →
        tally.flag = true ∧ min (strikes bad trace) 6 ≤ tally.count
    | .ended => leftBehind bad trace = true → tally.fetchNow = true ∧
        (∃ attempt past, trace = .backoffWait attempt :: past) ∧
        min (strikes bad trace + 1) 6 ≤ tally.count
    | .gone => leftBehind bad trace = true → min (strikes bad trace) 6 ≤ tally.count

variable {place : Place} {tally : Tally}

theorem InScan.counted (h : InScan bad progress tally trace)
    (behind : leftBehind bad trace = true) :
    min (strikes bad trace) 6 ≤ tally.count := by
  cases relaxes : relaxed bad progress trace with
  | false => exact h.kept relaxes
  | true =>
    rw [h.first behind relaxes]
    omega

theorem Escalating.counted (h : Escalating bad progress place tally trace)
    (behind : leftBehind bad trace = true) : min (strikes bad trace) 6 ≤ tally.count := by
  cases place with
  | scanning => exact h.2.counted behind
  | following => exact h.2.1.counted behind
  | closing => exact (h.2 behind).2
  | ended =>
    have counted := (h.2 behind).2.2
    omega
  | gone => exact h.2 behind

theorem Escalating.start : Escalating bad progress .ended tally ([] : Trace Q O I) :=
  ⟨Everywhere.nil _, nofun⟩

theorem Escalating.askFresh (h : Escalating bad progress .ended tally trace) :
    Escalating bad progress .scanning tally (.lookup none :: trace) := by
  refine ⟨everywhere_cons.mpr ⟨fun behind => (h.2 behind).2.1, h.1⟩, nofun, fun _ => ?_, nofun⟩
  unfold strikes
  split
  · rename_i behind
    exact (h.2 behind).2.2
  · omega

theorem Escalating.askNext (h : Escalating bad progress .following tally trace) (cursor : String) :
    Escalating bad progress .scanning tally (.lookup (some cursor) :: trace) :=
  ⟨everywhere_cons.mpr ⟨trivial, h.1⟩, h.2.1.flagged, h.2.1.kept, h.2.1.first⟩

theorem Escalating.park (h : Escalating bad progress .ended tally trace)
    (off : tally.fetchNow = false) : Escalating bad progress .ended tally (.idleWait :: trace) := by
  have clean : leftBehind bad trace = false := by
    by_contra behind
    have fetch := (h.2 (by simpa using behind)).1
    rw [off] at fetch
    cases fetch
  have same : leftBehind bad (.idleWait :: trace) = false := clean
  refine ⟨everywhere_cons.mpr ⟨clean, h.1⟩, fun behind => ?_⟩
  rw [same] at behind
  cases behind

theorem escalates_plain (plain : Plain os) (h : Everywhere (Escalates bad) trace) :
    Everywhere (Escalates bad) (os ++ trace) := by
  refine everywhere_append (fun o member past => ?_) h
  have kind := plain o member
  cases o with
  | lookup cursor => cases kind.1
  | idleWait => cases kind.2.1
  | backoffWait attempt => cases kind.2.1
  | _ => trivial

theorem Escalating.hold (h : Escalating bad progress .scanning tally trace) (plain : Plain os)
    (flag : Bool) (flagged : os.any (Obs.leavesWork bad) = true ∨ tally.flag = true → flag = true) :
    Escalating bad progress .scanning { tally with flag } (os ++ trace) := by
  have same := plain_append bad progress trace plain
  obtain ⟨behind, before, relaxes, owes⟩ := same
  refine ⟨escalates_plain plain h.1, ⟨?_, ?_, ?_⟩⟩
  · rw [owes, Bool.or_eq_true]
    rintro (now | earlier)
    · exact flagged (.inl now)
    · exact flagged (.inr (h.2.flagged earlier))
  · rw [relaxes, before]
    exact h.2.kept
  · rw [behind, relaxes, before]
    exact h.2.first

theorem Escalating.close (h : Escalating bad progress .scanning tally trace) (plain : Plain os)
    (flag : Bool) (flagged : tally.flag = true → flag = true) :
    Escalating bad progress .closing { tally with flag } (os ++ trace) := by
  have same := plain_append bad progress trace plain
  refine ⟨escalates_plain plain h.1, fun behind => ?_⟩
  rw [same.1] at behind
  rw [same.2.1]
  exact ⟨flagged (h.2.flagged (owed_of_leftBehind behind)), h.2.counted behind⟩

/-- A batch is answered. In a scan that was called for by one before it, no page
is left behind after one made progress with nothing owed. -/
theorem Escalating.answer (h : Escalating bad progress .scanning tally trace) {result : O}
    (flag : Bool) (count : Nat)
    (gate : bad result = true → strikes bad trace = 0 ∨
      relaxed bad progress (.outcome result :: trace) = false)
    (flagged : bad result = true ∨ tally.flag = true → flag = true)
    (kept : progress result = false ∨ tally.flag = true → count = tally.count) :
    Escalating bad progress .scanning ⟨tally.fetchNow, flag, count⟩ (.outcome result :: trace) := by
  have relaxes : relaxed bad progress (.outcome result :: trace) =
      ((progress result && !owed bad trace) || relaxed bad progress trace) := rfl
  refine ⟨everywhere_cons.mpr ⟨trivial, h.1⟩, ⟨?_, ?_, ?_⟩⟩
  · rw [owed_cons rfl, Bool.or_eq_true]
    rintro (now | earlier)
    · exact flagged (.inl now)
    · exact flagged (.inr (h.2.flagged earlier))
  · intro strict
    rw [relaxes, Bool.or_eq_false_iff, Bool.and_eq_false_iff] at strict
    have same : count = tally.count := by
      apply kept
      rcases strict.1 with none | owes
      · exact .inl none
      · exact .inr (h.2.flagged (by simpa using owes))
    rw [strikes_cons rfl, same]
    exact h.2.kept strict.2
  · intro behind lax
    rw [strikes_cons rfl]
    by_cases now : bad result = true
    · rcases gate now with none | strict
      · exact none
      · rw [strict] at lax
        cases lax
    · have before : leftBehind bad trace = true := by
        rw [leftBehind_cons rfl] at behind
        simpa [Obs.isBad, now] using behind
      rw [relaxes, owed_of_leftBehind before] at lax
      exact h.2.first before (by simpa using lax)

theorem escalates_rest (h : Escalating bad progress place tally trace) :
    Everywhere (Escalates bad) (.backoffWait tally.count :: trace) :=
  everywhere_cons.mpr ⟨fun behind => exponentialDelay_le (h.counted behind), h.1⟩

theorem Escalating.rest (h : Escalating bad progress place tally trace) (flag : Bool) :
    Escalating bad progress .ended ⟨true, flag, saturatingSucc tally.count⟩
      (.backoffWait tally.count :: trace) := by
  refine ⟨escalates_rest h, fun behind => ⟨rfl, ⟨_, _, rfl⟩, ?_⟩⟩
  rw [strikes_cons rfl]
  exact min_six_succ_le (h.counted behind)

theorem Escalating.pause (h : Escalating bad progress .scanning tally trace) :
    Escalating bad progress .following ⟨true, true, saturatingSucc tally.count⟩
      (.backoffWait tally.count :: trace) := by
  refine ⟨escalates_rest h, ⟨fun _ => rfl, fun strict => ?_, h.2.first⟩, rfl⟩
  have counted := min_six_succ_le (h.2.kept strict)
  rw [strikes_cons rfl]
  dsimp only
  omega

theorem Escalating.settle (h : Escalating bad progress .closing tally trace)
    (unset : tally.flag = false) (after : Tally) :
    Escalating bad progress .ended after trace := by
  refine ⟨h.1, fun behind => ?_⟩
  have flag := (h.2 behind).1
  rw [unset] at flag
  cases flag

theorem Escalating.follow (h : Escalating bad progress .scanning tally trace) :
    Escalating bad progress .following { tally with fetchNow := true } trace :=
  ⟨h.1, ⟨h.2.flagged, h.2.kept, h.2.first⟩, rfl⟩

theorem Escalating.leave (h : Escalating bad progress place tally trace) :
    Escalating bad progress .gone tally trace := ⟨h.1, h.counted⟩

end Counting

end ScanLoop

namespace TransactionPoller

def madeProgress (outcome : BatchOutcome) : Bool :=
  outcome = .completed || outcome = .partialProgress

def Phase.place (cursor : Option String) : Phase → Place
  | .lookup _ => .scanning
  | .sent _ => .scanning
  | .idleSent _ => .closing
  | .exited => .gone
  | _ => if cursor.isSome then .following else .ended

def tally (s : State) : Tally := ⟨s.fetchNow, s.scanRetry, s.failureCount⟩

def Escalate (at_ : State × List Shown) : Prop :=
  Escalating leftWork madeProgress (at_.1.phase.place at_.1.cursor) (tally at_.1) at_.2

/-- A page is left behind only in a scan that no scan before it called for, or
where no page made progress with nothing owed. -/
def setbackFirst (at_ : State × List Shown) : Event → Prop
  | .ack outcome _ => (∃ nextCursor, at_.1.phase = .sent nextCursor) → leftWork outcome = true →
      strikes leftWork at_.2 = 0 ∨
        relaxed leftWork madeProgress (.outcome outcome :: at_.2) = false
  | _ => True

theorem backoff_escalate {s : State} {where_ : Place} {t : Tally} {trace seen : List Shown}
    (h : Escalating leftWork madeProgress where_ t (seen ++ trace))
    (count : t.count = s.failureCount) (none_ : s.cursor = none) :
    Escalate ((backoff s seen).1, (backoff s seen).2 ++ trace) := by
  have rested := h.rest false
  rw [count] at rested
  simpa [Escalate, Phase.place, tally, backoff, none_] using rested

theorem finishScanRetry_escalate {s : State} {trace : List Shown} (seen : List Shown)
    (h : Escalating leftWork madeProgress .closing (tally s) (seen ++ trace))
    (none_ : s.cursor = none) (deferred : Bool) :
    Escalate ((finishScanRetry s deferred seen).1,
      (finishScanRetry s deferred seen).2 ++ trace) := by
  unfold finishScanRetry
  split
  · exact backoff_escalate h rfl none_
  · rename_i unset
    have settled := h.settle (by simpa [tally] using unset) ⟨deferred, s.scanRetry, 0⟩
    simpa [Escalate, Phase.place, tally, none_] using settled

theorem endScan_escalate {s : State} {trace : List Shown} {seen : Shown} {t : Tally}
    (h : Escalating leftWork madeProgress .scanning t trace) (plain : Plain [seen])
    (none_ : s.cursor = none) (fetch : t.fetchNow = s.fetchNow) (count : t.count = s.failureCount)
    (flagged : t.flag = true → s.scanRetry = true) (fresh deferred : Bool) :
    Escalate ((endScan s fresh deferred seen).1, (endScan s fresh deferred seen).2 ++ trace) := by
  have same : tally s = { t with flag := s.scanRetry } := by
    rw [tally, fetch, count]
  unfold endScan
  dsimp only
  split
  · have closed := h.close plain _ flagged
    rw [← same] at closed
    exact finishScanRetry_escalate (s := completeChainScan s) _ closed none_ _
  · have closed := h.close (plain_tick plain [] (idleChains s)) _ flagged
    rw [← same] at closed
    exact closed

theorem onPage_escalate {s : State} {trace : List Shown}
    (h : Escalating leftWork madeProgress .scanning (tally s) trace) (fresh deferred : Bool)
    (requests : List TransactionRequest) (nextCursor : Option String) :
    Escalate ((onPage s fresh deferred requests nextCursor (.page requests nextCursor)).1,
      (onPage s fresh deferred requests nextCursor (.page requests nextCursor)).2 ++ trace) := by
  have plain : Plain [(.page requests nextCursor : Shown)] := plain_page requests nextCursor
  unfold onPage
  split
  · split
    · rename_i drain
      obtain ⟨c, found, -⟩ := shouldContinueEmptyDrain_iff.mp drain
      have held := (h.hold plain true fun _ => rfl).follow
      simpa [Escalate, Phase.place, tally, found] using held
    · refine endScan_escalate h plain ?_ ?_ ?_ ?_ _ _
      · rfl
      · rfl
      · rfl
      · intro set_
        have flag : s.scanRetry = true := set_
        simp [flag]
  · rename_i some_
    have clean : (.page requests nextCursor : Shown).leavesWork leftWork = false := by
      cases requests with
      | nil => simp at some_
      | cons request rest => rfl
    have held : ∀ idle, Escalating leftWork madeProgress .scanning (tally s)
        ([.tick requests idle, .page requests nextCursor] ++ trace) := fun idle =>
      h.hold (plain_tick plain requests idle) s.scanRetry (by simp [clean, tally])
    dsimp only
    split
    · exact held _
    · exact held _

theorem onReply_escalate {s : State} {trace : List Shown}
    (h : Escalating leftWork madeProgress .scanning (tally s) trace) (fresh deferred : Bool)
    (send : Send (Option PendingPage)) :
    Escalate ((onReply s fresh deferred send).1, (onReply s fresh deferred send).2 ++ trace) := by
  have ended : ∀ seen : Shown, Plain [seen] → Escalate
      ((onError s fresh deferred noTransactionsMsg seen).1,
        (onError s fresh deferred noTransactionsMsg seen).2 ++ trace) := by
    intro seen plain
    rw [onError, if_pos rfl]
    refine endScan_escalate h plain ?_ ?_ ?_ ?_ _ _
    · rfl
    · rfl
    · rfl
    · exact id
  unfold onReply
  cases replyKind send with
  | failed e result other seen =>
    rw [result, seen]
    dsimp only
    rw [onError, if_neg other]
    exact backoff_escalate (h.hold plain_failed true fun _ => rfl) rfl rfl
  | noResult result seen =>
    rw [result, seen]
    exact ended _ plain_noResult
  | noRows nextCursor result seen hides =>
    rw [result, seen]
    exact ended _ (plain_page _ _)
  | rows requests nextCursor result seen =>
    rw [result, seen]
    exact onPage_escalate h fresh deferred requests nextCursor

theorem onOutcome_escalate {s : State} {trace : List Shown}
    (h : Escalating leftWork madeProgress .scanning (tally s) trace)
    (nextCursor : Option String) (deferred : Bool) {outcome : BatchOutcome}
    (gate : leftWork outcome = true → strikes leftWork trace = 0 ∨
      relaxed leftWork madeProgress (.outcome outcome :: trace) = false) :
    Escalate ((onOutcome s nextCursor deferred outcome).1,
      (onOutcome s nextCursor deferred outcome).2 ++ trace) := by
  unfold onOutcome
  split
  · rename_i cursor made retries decided
    obtain ⟨-, notFailed, retry, progress, -⟩ := batchStep_continue decided
    let next : State := if made then
        { s with
          unproductivePages := 0
          failureCount := if s.scanRetry then s.failureCount else 0 }
      else { s with unproductivePages := s.unproductivePages + 1 }
    have scanRetry : next.scanRetry = s.scanRetry := by
      cases made <;> rfl
    have kept : madeProgress outcome = false ∨ s.scanRetry = true →
        next.failureCount = s.failureCount := by
      have same : madeProgress outcome = made := by
        rw [progress]
        cases outcome <;> first | rfl | exact absurd rfl notFailed
      rintro (none | set_)
      · rw [same] at none
        subst none
        rfl
      · cases made <;> simp [next, set_]
    have answered := h.answer (s.scanRetry || retries) next.failureCount gate
      (by simp [tally, retry, or_comm]) kept
    have same : tally { next with scanRetry := next.scanRetry || retries, cursor } =
        ⟨s.fetchNow, s.scanRetry || retries, next.failureCount⟩ := by
      cases made <;> rfl
    have held := answered
    rw [tally, ← same] at held
    dsimp only
    split
    · rename_i last
      have none_ : cursor = none := by simpa using last
      have closed := held.close plain_nil _ id
      refine finishScanRetry_escalate _ ?_ ?_ deferred
      · exact closed
      · exact none_
    · rename_i more
      have some_ : cursor.isSome = true := by
        cases cursor with
        | none => simp at more
        | some _ => rfl
      have place : Phase.loopHead.place cursor = .following := if_pos some_
      have following := held.follow
      rw [← place] at following
      exact following
  · have answered := h.answer true s.failureCount gate (fun _ => rfl) fun _ => rfl
    exact backoff_escalate answered rfl rfl

theorem step_escalate {at_ : State × List Shown} {e : Event} {t : State} {os : List Shown}
    (h : Escalate at_) (sane : Sane at_.1) (gate : setbackFirst at_ e)
    (stepped : step at_.1 e = some (t, os)) : Escalate (t, os ++ at_.2) := by
  unfold Escalate at h
  cases step_cases stepped with
  | go phase fetch =>
    rw [phase] at h
    exact h
  | park phase off =>
    rw [phase] at h
    cases cursor : at_.1.cursor with
    | none =>
      rw [cursor] at h
      exact Escalating.park h off
    | some c =>
      rw [cursor] at h
      have fetch := h.2.2
      simp [tally, off] at fetch
  | wake phase =>
    rw [phase] at h
    exact h
  | begin phase =>
    rw [phase] at h
    cases cursor : at_.1.cursor with
    | none =>
      rw [cursor] at h
      exact Escalating.askFresh h
    | some c =>
      rw [cursor] at h
      exact Escalating.askNext h c
  | reply send deferred fresh phase same =>
    rw [phase] at h
    have escalate := onReply_escalate h fresh deferred send
    rwa [same] at escalate
  | ack outcome deferred nextCursor phase same =>
    rw [phase] at h
    have escalate := onOutcome_escalate h nextCursor deferred (gate ⟨nextCursor, phase⟩)
    rwa [same] at escalate
  | idleAck outcome deferred fresh phase same =>
    rw [phase] at h
    have escalate := finishScanRetry_escalate [] h (sane.idleSent phase).1
      (!fresh && deferred)
    rwa [same] at escalate
  | gone phase => exact h.leave
  | resume phase =>
    rw [phase] at h
    exact h

end TransactionPoller

namespace WalletPoller

def madeProgress (outcome : BatchOutcome) : Bool := outcome = .completed

def Phase.place (cursor : Option String) : Phase → Place
  | .lookup _ => .scanning
  | .sent _ => .scanning
  | .exited => .gone
  | _ => if cursor.isSome then .following else .ended

def tally (s : State) : Tally := ⟨s.fetchNow, s.restartAfterScan, s.failureCount⟩

def Escalate (at_ : State × List Shown) : Prop :=
  Escalating leftWork madeProgress (at_.1.phase.place at_.1.cursor) (tally at_.1) at_.2

/-- A page fails only in a scan that no scan before it called for, or where no page
made progress with nothing owed. -/
def setbackFirst (at_ : State × List Shown) : Event → Prop
  | .ack outcome _ => (∃ nextCursor, at_.1.phase = .sent nextCursor) → leftWork outcome = true →
      strikes leftWork at_.2 = 0 ∨
        relaxed leftWork madeProgress (.outcome outcome :: at_.2) = false
  | _ => True

variable {s : State} {trace seen : List Shown}

theorem continue_escalate {t : Tally} {cursor : Option String} {restart reset fetch : Bool}
    (h : Escalating leftWork madeProgress .scanning t (seen ++ trace)) (flag : t.flag = restart)
    (count : t.count = if reset then 0 else s.failureCount)
    (fetches : cursor.isSome = true → fetch = true) (ended : cursor = none → restart = false) :
    Escalate ((applyStep s (.continue cursor restart reset fetch) seen).1,
      (applyStep s (.continue cursor restart reset fetch) seen).2 ++ trace) := by
  cases cursor with
  | none =>
    have closed := h.close plain_nil t.flag id
    exact closed.settle (flag.trans (ended rfl)) _
  | some c =>
    have fetched := fetches rfl
    subst fetched
    have following := h.follow
    rw [flag, count] at following
    exact following

theorem delay_escalate {t : Tally} {cursor : Option String} {restart : Bool} {r : String}
    (h : Escalating leftWork madeProgress .scanning t (seen ++ trace))
    (count : t.count = s.failureCount) (kept : cursor.isSome = true → restart = true) :
    Escalate ((applyStep s (.delayThenFetch cursor restart r) seen).1,
      (applyStep s (.delayThenFetch cursor restart r) seen).2 ++ trace) := by
  cases cursor with
  | none =>
    have rested := h.rest restart
    rw [count] at rested
    exact rested
  | some c =>
    have marked := kept rfl
    subst marked
    have paused := h.pause
    rw [count] at paused
    exact paused

theorem onPage_escalate (h : Escalating leftWork madeProgress .scanning (tally s) trace)
    (fresh deferred : Bool) {requests : List DeriveWalletRequest} {nextCursor : Option String}
    {o : Shown} (plain : Plain [o]) (clean : requests ≠ [] → o.leavesWork leftWork = false)
    (owes : o.leavesWork leftWork = true → nextCursor.isSome = true) :
    Escalate ((onPage s fresh deferred requests nextCursor o).1,
      (onPage s fresh deferred requests nextCursor o).2 ++ trace) := by
  unfold onPage
  split
  · split
    · rename_i drain
      obtain ⟨c, found, -⟩ := shouldContinueEmptyDrain_iff.mp drain
      have place : Phase.loopHead.place nextCursor = .following := by
        rw [found]
        rfl
      have held := (h.hold plain true fun _ => rfl).follow
      rw [← place] at held
      exact held
    · have held := h.hold plain (s.restartAfterScan || nextCursor.isSome) (by
        intro set_
        rw [Bool.or_eq_true]
        rcases set_ with now | before
        · exact .inr (owes (by simpa using now))
        · exact .inl before)
      dsimp only
      unfold emptyScanStep
      split
      · exact delay_escalate held rfl nofun
      · rename_i unset
        have flag : (s.restartAfterScan || nextCursor.isSome) = false := by simpa using unset
        have closed := held.close plain_nil _ id
        exact closed.settle flag _
  · rename_i some_
    have none_ : o.leavesWork leftWork = false := clean (by simpa using some_)
    exact h.hold (plain_tick plain requests ()) s.restartAfterScan (by simp [none_, tally])

theorem onReply_escalate (h : Escalating leftWork madeProgress .scanning (tally s) trace)
    (fresh deferred : Bool) (send : Send (Option PendingPage)) :
    Escalate ((onReply s fresh deferred send).1, (onReply s fresh deferred send).2 ++ trace) := by
  unfold onReply getPendingWallets shown
  cases executeQuery send none with
  | error e =>
    exact delay_escalate (h.hold plain_failed true fun _ => rfl) rfl nofun
  | ok data =>
    cases data with
    | none =>
      exact onPage_escalate h fresh deferred plain_noResult (fun _ => rfl) nofun
    | some page =>
      have clean : convertible page ≠ [] →
          (.page (convertible page) (next page) : Shown).leavesWork leftWork = false := by
        intro some_
        cases rows : convertible page with
        | nil => exact absurd rows some_
        | cons request rest => rfl
      have owes : (.page (convertible page) (next page) : Shown).leavesWork leftWork = true →
          (next page).isSome = true := by
        intro owes
        cases last : next page with
        | none => simp [last] at owes
        | some c => rfl
      exact onPage_escalate h fresh deferred (plain_page _ _) clean owes

theorem onOutcome_escalate (h : Escalating leftWork madeProgress .scanning (tally s) trace)
    (nextCursor : Option String) (deferred : Bool) {outcome : BatchOutcome}
    (gate : leftWork outcome = true → strikes leftWork trace = 0 ∨
      relaxed leftWork madeProgress (.outcome outcome :: trace) = false) :
    Escalate ((applyStep s (walletStep outcome nextCursor s.restartAfterScan deferred)
        [.outcome outcome]).1,
      (applyStep s (walletStep outcome nextCursor s.restartAfterScan deferred)
        [.outcome outcome]).2 ++ trace) := by
  unfold walletStep
  cases outcome with
  | completed =>
    have answered := h.answer s.restartAfterScan
      (if !s.restartAfterScan then 0 else s.failureCount) gate (by simp [leftWork, tally])
      (by simp +contextual [madeProgress, tally])
    dsimp only
    split
    · rename_i last
      have flag : s.restartAfterScan = true := (by simpa using last : _ ∧ _).2
      exact delay_escalate (r := _) answered (by simp [flag]) (by simp)
    · rename_i more
      refine continue_escalate answered rfl rfl ?_ ?_
      · intro some_
        rw [some_, Bool.true_or]
      · intro none_
        simpa [none_] using more
  | submissionFailed =>
    have answered := h.answer true s.failureCount gate (fun _ => rfl) fun _ => rfl
    exact delay_escalate answered rfl id

theorem step_escalate {at_ : State × List Shown} {e : Event} {t : State} {os : List Shown}
    (h : Escalate at_) (gate : setbackFirst at_ e) (stepped : step at_.1 e = some (t, os)) :
    Escalate (t, os ++ at_.2) := by
  unfold Escalate at h
  cases step_cases stepped with
  | go phase fetch =>
    rw [phase] at h
    exact h
  | park phase off =>
    rw [phase] at h
    cases cursor : at_.1.cursor with
    | none =>
      rw [cursor] at h
      exact Escalating.park h off
    | some c =>
      rw [cursor] at h
      have fetch := h.2.2
      simp [tally, off] at fetch
  | wake phase =>
    rw [phase] at h
    exact h
  | begin phase =>
    rw [phase] at h
    cases cursor : at_.1.cursor with
    | none =>
      rw [cursor] at h
      exact Escalating.askFresh h
    | some c =>
      rw [cursor] at h
      exact Escalating.askNext h c
  | reply send deferred fresh phase same =>
    rw [phase] at h
    have escalate := onReply_escalate h fresh deferred send
    rwa [same] at escalate
  | ack outcome deferred nextCursor phase same =>
    rw [phase] at h
    have escalate := onOutcome_escalate h nextCursor deferred (gate ⟨nextCursor, phase⟩)
    rwa [same] at escalate
  | gone nextCursor phase => exact h.leave
  | resume phase =>
    rw [phase] at h
    exact h

end WalletPoller

/-- The delays of a run grow with the scans in a row that left work behind, and so
does the count they are taken from. -/
def DelaysGrow {Q O I : Type} (bad : O → Bool) (failureCount : Nat) (trace : Trace Q O I) : Prop :=
  Everywhere (Escalates bad) trace ∧ (leftBehind bad trace = true →
    exponentialDelay (strikes bad trace) ≤ exponentialDelay failureCount)

/-- In every run where setbacks come first, the delays of both pollers grow. -/
theorem delays_grow {es : List TransactionPoller.Event} {fs : List WalletPoller.Event}
    {reached : TransactionPoller.State × List TransactionPoller.Shown}
    {walletReached : WalletPoller.State × List WalletPoller.Shown}
    (path : Path (gated TransactionPoller.setbackFirst (traced TransactionPoller.step))
      (TransactionPoller.initial, []) es reached)
    (walletPath : Path (gated WalletPoller.setbackFirst (traced WalletPoller.step))
      (WalletPoller.initial, []) fs walletReached) :
    DelaysGrow TransactionPoller.leftWork reached.1.failureCount reached.2 ∧
      DelaysGrow WalletPoller.leftWork walletReached.1.failureCount walletReached.2 := by
  constructor
  · have all := path.invariant
      (I := fun at_ => TransactionPoller.Escalate at_ ∧ TransactionPoller.Sane at_.1) ?_
      ⟨Escalating.start, TransactionPoller.sane_initial⟩
    · exact ⟨all.1.1, fun behind => exponentialDelay_le (all.1.counted behind)⟩
    · rintro at_ e ⟨t, after⟩ ⟨h, sane⟩ ⟨gate, os, stepped, rfl⟩
      exact ⟨TransactionPoller.step_escalate h sane gate stepped,
        TransactionPoller.step_sane sane stepped⟩
  · have all := walletPath.invariant (I := WalletPoller.Escalate) ?_ Escalating.start
    · exact ⟨all.1, fun behind => exponentialDelay_le (all.counted behind)⟩
    · rintro at_ e ⟨t, after⟩ h ⟨gate, os, stepped, rfl⟩
      exact WalletPoller.step_escalate h gate stepped

section Runs

open TransactionPoller in
/-- Two scans in a row fail to submit their only page: the second waits two seconds. -/
theorem delays_grow_twice :
    (∃ reached, Path (gated setbackFirst (traced step)) (initial, [])
        [.start, .begin, .reply (answers (some ⟨[zeroRow "a" .matrix], none⟩)) false,
          .ack .submissionFailed false, .delayOver, .start, .begin,
          .reply (answers (some ⟨[zeroRow "a" .matrix], none⟩)) false,
          .ack .submissionFailed false] reached ∧
      reached.2.head? = some (.backoffWait 1) ∧
      DelaysGrow leftWork reached.1.failureCount reached.2) ∧
    ∃ reached, Path (gated WalletPoller.setbackFirst (traced WalletPoller.step))
        (WalletPoller.initial, [])
        [.start, .begin, .reply (answers (some ⟨[⟨some "a"⟩], none⟩)) false,
          .ack .submissionFailed false, .delayOver, .start, .begin,
          .reply (answers (some ⟨[⟨some "a"⟩], none⟩)) false, .ack .submissionFailed false]
        reached ∧
      reached.2.head? = some (.backoffWait 1) ∧
      DelaysGrow WalletPoller.leftWork reached.1.failureCount reached.2 := by
  have path : Path (gated setbackFirst (traced step)) (initial, [])
      [.start, .begin, .reply (answers (some ⟨[zeroRow "a" .matrix], none⟩)) false,
        .ack .submissionFailed false, .delayOver, .start, .begin,
        .reply (answers (some ⟨[zeroRow "a" .matrix], none⟩)) false,
        .ack .submissionFailed false] _ :=
    Path.gate_run (fun _ _ _ => traced_of_traceStep) rfl
      ⟨trivial, trivial, trivial, fun _ _ => .inl rfl, trivial, trivial, trivial, trivial,
        fun _ _ => .inr rfl, trivial⟩
  have walletPath : Path (gated WalletPoller.setbackFirst (traced WalletPoller.step))
      (WalletPoller.initial, [])
      [.start, .begin, .reply (answers (some ⟨[⟨some "a"⟩], none⟩)) false,
        .ack .submissionFailed false, .delayOver, .start, .begin,
        .reply (answers (some ⟨[⟨some "a"⟩], none⟩)) false, .ack .submissionFailed false] _ :=
    Path.gate_run (fun _ _ _ => traced_of_traceStep) rfl
      ⟨trivial, trivial, trivial, fun _ _ => .inl rfl, trivial, trivial, trivial, trivial,
        fun _ _ => .inr rfl, trivial⟩
  have both := delays_grow path walletPath
  exact ⟨⟨_, path, rfl, both.1⟩, ⟨_, walletPath, rfl, both.2⟩⟩

open TransactionPoller in
/-- A healthy page before the bad one resets the count: the second scan waits one
second again. -/
theorem delays_reset :
    (¬ ∀ es reached, Path (traced step) (initial, []) es reached →
        DelaysGrow leftWork reached.1.failureCount reached.2) ∧
    ¬ ∀ es reached, Path (traced WalletPoller.step) (WalletPoller.initial, []) es reached →
        DelaysGrow WalletPoller.leftWork reached.1.failureCount reached.2 := by
  constructor
  · intro claim
    have grows := claim
      [.start, .begin, .reply (answers (some ⟨[zeroRow "a" .matrix], none⟩)) false,
        .ack .submissionFailed false, .delayOver, .start, .begin,
        .reply (answers (some ⟨[zeroRow "b" .matrix], some "p"⟩)) false, .ack .completed false,
        .start, .begin, .reply (answers (some ⟨[zeroRow "a" .matrix], none⟩)) false,
        .ack .submissionFailed false] _ (Path.of_traced_run rfl)
    have longer := grows.1 (.backoffWait 0) _ (List.suffix_refl _) rfl
    exact absurd longer (by decide)
  · intro claim
    have grows := claim
      [.start, .begin, .reply (answers (some ⟨[⟨some "a"⟩], none⟩)) false,
        .ack .submissionFailed false, .delayOver, .start, .begin,
        .reply (answers (some ⟨[⟨some "b"⟩], some "p"⟩)) false, .ack .completed false, .start,
        .begin, .reply (answers (some ⟨[⟨some "a"⟩], none⟩)) false, .ack .submissionFailed false]
      _ (Path.of_traced_run rfl)
    have longer := grows.1 (.backoffWait 0) _ (List.suffix_refl _) rfl
    exact absurd longer (by decide)

end Runs

end WalletDaemon
