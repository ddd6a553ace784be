import WalletDaemon.TransactionPoller
import WalletDaemon.WalletPoller

/-! Neither poller rests while its last scan left work behind.
Each step of either poller is a move of the abstract scan loop. For the
transaction poller this needs that its first bad page is not one without rows
that has a next cursor, since it reads such a page as the end of the queue. -/

namespace WalletDaemon

open Platform Transition Retry ScanLoop

namespace TransactionPoller

def Phase.stage : Phase → Stage
  | .loopHead => .head
  | .idleWait => .idle
  | .ready => .ready
  | .lookup _ => .asking
  | .sent _ => .sent
  | .idleSent _ => .sent
  | .retryWait => .backoff
  | .exited => .gone

def view (s : State) : View := ⟨s.phase.stage, s.cursor, s.fetchNow, s.failureCount, s.scanRetry⟩

def leftWork (outcome : BatchOutcome) : Bool := outcome ≠ .completed

theorem backoff_move {v : View} (busy : v.stage.Busy) {s : State} (cursor : s.cursor = none)
    {seen : List Shown} (quiet : Quiet seen) :
    Move leftWork v (backoff s seen).2 (view (backoff s seen).1) := by
  refine .rest s.failureCount busy quiet rfl rfl ?_
  intro some_
  simp [view, backoff, cursor] at some_

theorem finishScanRetry_move {v : View} (busy : v.stage.Busy) {s : State}
    (cursor : s.cursor = none) {seen : List Shown} (quiet : Quiet seen)
    (flagged : seen.any (Obs.leavesWork leftWork) = true ∨ v.flag = true → s.scanRetry = true)
    (deferred : Bool) :
    Move leftWork v (finishScanRetry s deferred seen).2
      (view (finishScanRetry s deferred seen).1) := by
  unfold finishScanRetry
  split
  · exact backoff_move busy cursor quiet
  · rename_i unset
    rw [Bool.not_eq_true] at unset
    have clean : ¬ (seen.any (Obs.leavesWork leftWork) = true ∨ v.flag = true) := by
      intro owes
      rw [flagged owes] at unset
      cases unset
    rw [not_or, Bool.not_eq_true, Bool.not_eq_true] at clean
    exact .settle busy quiet clean.2 clean.1 rfl cursor rfl

theorem endScan_move {v : View} (busy : v.stage.Busy) {s : State} (cursor : s.cursor = none)
    {seen : Shown} (quiet : Quiet [seen])
    (flagged : seen.leavesWork leftWork = true ∨ v.flag = true → s.scanRetry = true)
    (fresh deferred : Bool) :
    Move leftWork v (endScan s fresh deferred seen).2
      (view (endScan s fresh deferred seen).1) := by
  unfold endScan
  dsimp only
  split
  · exact finishScanRetry_move (s := completeChainScan s) busy cursor quiet 
      (by simpa [completeChainScan] using flagged) _
  · refine .hold busy (quiet_pair (quiet_single rfl rfl) quiet) (by simp) rfl ?_
    simpa [view, completeChainScan] using flagged

theorem onPage_move {s : State} {fresh : Bool} (phase : s.phase = .lookup fresh)
    (deferred : Bool) (requests : List TransactionRequest) (nextCursor : Option String) :
    Move leftWork (view s) (onPage s fresh deferred requests nextCursor
        (.page requests nextCursor)).2
      (view (onPage s fresh deferred requests nextCursor (.page requests nextCursor)).1) := by
  have busy : (view s).stage.Busy := by
    left
    rw [view, phase]
    rfl
  have quiet : Quiet [(.page requests nextCursor : Shown)] := quiet_single rfl rfl
  unfold onPage
  split
  · rename_i empty
    have none_ : requests = [] := by simpa using empty
    rw [none_] at quiet ⊢
    split
    · rename_i drain
      obtain ⟨c, found, -, -, -⟩ := shouldContinueEmptyDrain_iff.mp drain
      refine .follow busy quiet rfl rfl ?_ fun _ => rfl
      simp [view, found]
    · refine endScan_move busy rfl quiet ?_ fresh deferred
      cases nextCursor <;> simp [view]
  · rename_i some_
    have clean : (.page requests nextCursor : Shown).leavesWork leftWork = false := by
      cases requests with
      | nil => simp at some_
      | cons request rest => rfl
    have both : ∀ idle, Quiet [.tick requests idle, (.page requests nextCursor : Shown)] :=
      fun idle => quiet_pair (quiet_single rfl rfl) quiet
    dsimp only
    split
    · refine .hold busy (both _) (by simp) rfl ?_
      simp [clean, view, completeChainScan]
    · refine .hold busy (both _) (by simp) rfl ?_
      simp [clean, view]

theorem onReply_move {s : State} {fresh : Bool} (phase : s.phase = .lookup fresh)
    (deferred : Bool) {send : Send (Option PendingPage)}
    (kept : HidesNext send → s.scanRetry = true) :
    Move leftWork (view s) (onReply s fresh deferred send).2
      (view (onReply s fresh deferred send).1) := by
  have busy : (view s).stage.Busy := by
    left
    rw [view, phase]
    rfl
  unfold onReply
  cases replyKind send with
  | failed e result other seen =>
    rw [result, seen]
    dsimp only
    rw [onError, if_neg other]
    exact backoff_move busy rfl (quiet_single rfl rfl)
  | noResult result seen =>
    rw [result, seen]
    dsimp only
    rw [onError, if_pos rfl]
    refine endScan_move busy rfl (quiet_single rfl rfl) ?_ fresh deferred
    simp [view]
  | noRows nextCursor result seen hides =>
    rw [result, seen]
    dsimp only
    rw [onError, if_pos rfl]
    refine endScan_move busy rfl (quiet_single rfl rfl) ?_ fresh deferred
    cases nextCursor with
    | none => simp [view]
    | some next =>
      intro _
      exact kept (hides (Option.some_ne_none next))
  | rows requests nextCursor result seen =>
    rw [result, seen]
    exact onPage_move phase deferred requests nextCursor

theorem batchStep_continue {outcome : BatchOutcome} {s : State} {nextCursor cursor : Option String}
    {madeProgress requiresFreshRetry : Bool}
    (decided : batchStep outcome s.cursor nextCursor s.unproductivePages =
      .continue cursor madeProgress requiresFreshRetry) :
    cursor = nextCursor ∧ outcome ≠ .submissionFailed ∧
      requiresFreshRetry = leftWork outcome ∧ madeProgress = decide (outcome ≠ .skipped) ∧
      (outcome = .skipped → cursor.isSome = true) := by
  unfold batchStep at decided
  cases outcome with
  | completed =>
    cases decided
    exact ⟨rfl, by decide, rfl, rfl, fun skips => by cases skips⟩
  | partialProgress =>
    cases decided
    exact ⟨rfl, by decide, rfl, rfl, fun skips => by cases skips⟩
  | skipped =>
    dsimp only at decided
    split at decided
    · rename_i drain
      obtain ⟨next, found, -⟩ := shouldContinueEmptyDrain_iff.mp drain
      cases decided
      exact ⟨rfl, by decide, rfl, rfl, fun _ => by rw [found]; rfl⟩
    · cases decided
  | submissionFailed => cases decided

theorem onOutcome_move {s : State} {nextCursor : Option String}
    (phase : s.phase = .sent nextCursor) (deferred : Bool) (outcome : BatchOutcome) :
    Move leftWork (view s) (onOutcome s nextCursor deferred outcome).2
      (view (onOutcome s nextCursor deferred outcome).1) := by
  have busy : (view s).stage.Busy := by
    right
    rw [view, phase]
    rfl
  have quiet : Quiet [(.outcome outcome : Shown)] := quiet_single rfl rfl
  unfold onOutcome
  split
  · rename_i cursor madeProgress requiresFreshRetry decided
    obtain ⟨-, -, retries, -, -⟩ := batchStep_continue decided
    have flagged : [(.outcome outcome : Shown)].any (Obs.leavesWork leftWork) = true ∨
        (view s).flag = true → (s.scanRetry || requiresFreshRetry) = true := by
      simp only [List.any_cons, List.any_nil, Bool.or_false, Obs.leavesWork_outcome, view]
      rintro (left_ | set_)
      · rw [retries, left_, Bool.or_true]
      · rw [set_, Bool.true_or]
    dsimp only
    split
    · rename_i last
      have none_ : cursor = none := by simpa using last
      refine finishScanRetry_move busy none_ quiet ?_ deferred
      split <;> exact flagged
    · rename_i more
      have some_ : cursor.isSome = true := by
        cases cursor with
        | none => simp at more
        | some _ => rfl
      refine .follow busy quiet rfl rfl some_ ?_
      split <;> exact flagged
  · exact backoff_move busy rfl quiet

/-- Between two scans there is no cursor, and no unproductive page is counted. -/
def Sane (s : State) : Prop :=
  match s.phase with
  | .loopHead => (s.fetchNow = false → s.cursor = none) ∧ (s.cursor = none → s.unproductivePages = 0)
  | .ready => s.cursor = none → s.unproductivePages = 0
  | .lookup fresh => s.cursor.isNone = fresh ∧ (s.cursor = none → s.unproductivePages = 0)
  | .sent _ => True
  | .exited => True
  | _ => s.cursor = none ∧ s.unproductivePages = 0

theorem Sane.idleSent {s : State} {fresh : Bool} (sane : Sane s) (phase : s.phase = .idleSent fresh) :
    s.cursor = none ∧ s.unproductivePages = 0 := by
  simpa only [Sane, phase] using sane

theorem step_move {s t : State} {e : Event} {os : List Shown}
    (ended : ∀ fresh, s.phase = .idleSent fresh → s.cursor = none)
    (kept : ∀ send deferred, e = .reply send deferred → HidesNext send → s.scanRetry = true)
    (h : step s e = some (t, os)) : Move leftWork (view s) os (view t) := by
  cases step_cases h with
  | go phase fetch =>
    have stage : (view s).stage = .head := by rw [view, phase]; rfl
    exact .go stage fetch
  | park phase off =>
    have stage : (view s).stage = .head := by rw [view, phase]; rfl
    exact .park stage off
  | wake phase =>
    have stage : (view s).stage = .idle := by rw [view, phase]; rfl
    exact .wake stage
  | begin phase =>
    have stage : (view s).stage = .ready := by rw [view, phase]; rfl
    exact .ask stage
  | reply send deferred fresh phase same =>
    have move := onReply_move phase deferred (kept send deferred rfl)
    rw [same] at move
    exact move
  | ack outcome deferred nextCursor phase same =>
    have move := onOutcome_move phase deferred outcome
    rw [same] at move
    exact move
  | idleAck outcome deferred fresh phase same =>
    have busy : (view s).stage.Busy := by
      right
      rw [view, phase]
      rfl
    have nothing : Quiet ([] : List Shown) := fun _ member => absurd member List.not_mem_nil
    have move := finishScanRetry_move busy (ended fresh phase) nothing (by simp [view])
      (!fresh && deferred)
    rw [same] at move
    exact move
  | gone phase =>
    rcases phase with ⟨nextCursor, phase⟩ | ⟨fresh, phase⟩
    · exact .leave (by rw [view, phase]; rfl) rfl
    · exact .leave (by rw [view, phase]; rfl) rfl
  | resume phase =>
    have stage : (view s).stage = .backoff := by rw [view, phase]; rfl
    exact .resume stage

theorem finishScanRetry_sane {s : State} (cursor : s.cursor = none)
    (unproductive : s.unproductivePages = 0) (deferred : Bool) (seen : List Shown) :
    Sane (finishScanRetry s deferred seen).1 := by
  unfold finishScanRetry
  split
  · exact ⟨cursor, unproductive⟩
  · exact ⟨fun _ => cursor, fun _ => unproductive⟩

theorem endScan_sane {s : State} (cursor : s.cursor = none) (unproductive : s.unproductivePages = 0)
    (fresh deferred : Bool) (seen : Shown) : Sane (endScan s fresh deferred seen).1 := by
  unfold endScan
  dsimp only
  split
  · refine finishScanRetry_sane ?_ ?_ _ _
    · exact cursor
    · exact unproductive
  · exact ⟨cursor, unproductive⟩

theorem onReply_sane (s : State) (fresh deferred : Bool) (send : Send (Option PendingPage)) :
    Sane (onReply s fresh deferred send).1 := by
  unfold onReply
  split
  · unfold onPage
    split
    · split
      · rename_i drain
        obtain ⟨next, found, -⟩ := shouldContinueEmptyDrain_iff.mp drain
        simp [Sane, found]
      · exact endScan_sane rfl rfl _ _ _
    · dsimp only
      split <;> exact True.intro
  · unfold onError
    dsimp only
    split
    · exact endScan_sane rfl rfl _ _ _
    · exact ⟨rfl, rfl⟩

theorem onOutcome_sane (s : State) (nextCursor : Option String) (deferred : Bool)
    (outcome : BatchOutcome) : Sane (onOutcome s nextCursor deferred outcome).1 := by
  unfold onOutcome
  split
  · rename_i cursor madeProgress requiresFreshRetry decided
    obtain ⟨-, -, -, progress, skips⟩ := batchStep_continue decided
    dsimp only
    split
    · rename_i last
      have none_ : cursor = none := by simpa using last
      have made : madeProgress = true := by
        rw [progress, decide_eq_true_iff]
        intro skipped
        have some_ := skips skipped
        rw [none_] at some_
        cases some_
      refine finishScanRetry_sane ?_ ?_ _ _
      · exact none_
      · rw [if_pos made]
    · rename_i more
      have some_ : cursor ≠ none := by simpa using more
      exact ⟨fun off => absurd off (by simp), fun none_ => absurd none_ some_⟩
  · exact ⟨rfl, rfl⟩

theorem step_sane {s t : State} {e : Event} {os : List Shown} (sane : Sane s)
    (h : step s e = some (t, os)) : Sane t := by
  cases step_cases h with
  | go phase fetch =>
    simp only [Sane, phase] at sane
    exact sane.2
  | park phase off =>
    simp only [Sane, phase] at sane
    have none_ := sane.1 off
    exact ⟨none_, sane.2 none_⟩
  | wake phase =>
    simp only [Sane, phase] at sane
    exact fun _ => sane.2
  | begin phase =>
    simp only [Sane, phase] at sane
    exact ⟨rfl, sane⟩
  | reply send deferred fresh phase same =>
    rw [← show _ = t from congrArg Prod.fst same]
    exact onReply_sane _ _ _ _
  | ack outcome deferred nextCursor phase same =>
    rw [← show _ = t from congrArg Prod.fst same]
    exact onOutcome_sane _ _ _ _
  | idleAck outcome deferred fresh phase same =>
    have ended := sane.idleSent phase
    rw [← show _ = t from congrArg Prod.fst same]
    exact finishScanRetry_sane ended.1 ended.2 _ _
  | gone phase => exact True.intro
  | resume phase =>
    simp only [Sane, phase] at sane
    exact ⟨fun _ => sane.1, fun _ => sane.2⟩

theorem sane_initial : Sane initial := ⟨fun _ => rfl, fun _ => rfl⟩

theorem between_alive (s : State) (between : (view s).stage.Between) :
    ∃ e t os, step s e = some (t, os) := by
  cases phase : s.phase with
  | loopHead =>
    cases fetch : s.fetchNow <;>
      exact ⟨.start, _, _, by simp only [step, phase, fetch]; rfl⟩
  | ready => exact ⟨.begin, _, _, by simp only [step, phase]; rfl⟩
  | retryWait => exact ⟨.delayOver, _, _, by simp only [step, phase]; rfl⟩
  | _ => simp [view, phase, Phase.stage, Stage.Between] at between

end TransactionPoller

namespace WalletPoller

def Phase.stage : Phase → Stage
  | .loopHead => .head
  | .idleWait => .idle
  | .ready => .ready
  | .lookup _ => .asking
  | .sent _ => .sent
  | .retryWait => .backoff
  | .exited => .gone

def view (s : State) : View :=
  ⟨s.phase.stage, s.cursor, s.fetchNow, s.failureCount, s.restartAfterScan⟩

def leftWork (outcome : BatchOutcome) : Bool := outcome ≠ .completed

theorem applyStep_continue_move {v : View} (busy : v.stage.Busy) {s : State}
    {cursor : Option String} {restart resetFailures fetchNow : Bool} {seen : List Shown}
    (quiet : Quiet seen)
    (clean : seen.any (Obs.leavesWork leftWork) = false) (flag : v.flag = restart)
    (fetch : cursor.isSome = true → fetchNow = true)
    (ended : cursor = none → restart = false ∧ resetFailures = true) :
    Move leftWork v (applyStep s (.continue cursor restart resetFailures fetchNow) seen).2
      (view (applyStep s (.continue cursor restart resetFailures fetchNow) seen).1) := by
  cases cursor with
  | none =>
    obtain ⟨calm, reset⟩ := ended rfl
    refine .settle busy quiet (by rw [flag, calm]) clean rfl rfl ?_
    simp [view, applyStep, reset]
  | some c =>
    refine .follow busy quiet rfl (fetch rfl) rfl ?_
    rintro (left_ | set_)
    · exact absurd (clean.symm.trans left_) Bool.false_ne_true
    · exact flag.symm.trans set_

theorem applyStep_delay_move {v : View} (busy : v.stage.Busy) {s : State}
    {cursor : Option String} {restart : Bool} {reason : String} {seen : List Shown}
    (quiet : Quiet seen) (kept : cursor.isSome = true → restart = true) :
    Move leftWork v (applyStep s (.delayThenFetch cursor restart reason) seen).2
      (view (applyStep s (.delayThenFetch cursor restart reason) seen).1) :=
  .rest s.failureCount busy quiet rfl rfl fun some_ _ => kept some_

theorem onPage_move {s : State} {fresh : Bool} (phase : s.phase = .lookup fresh)
    (deferred : Bool) {requests : List DeriveWalletRequest} {nextCursor : Option String}
    {seen : Shown}
    (shows : seen = .page requests nextCursor ∨
      seen = .noResult ∧ requests = [] ∧ nextCursor = none) :
    Move leftWork (view s) (onPage s fresh deferred requests nextCursor seen).2
      (view (onPage s fresh deferred requests nextCursor seen).1) := by
  have busy : (view s).stage.Busy := by
    left
    rw [view, phase]
    rfl
  have quiet : Quiet [seen] := by
    rcases shows with rfl | ⟨rfl, -, -⟩ <;> exact quiet_single rfl rfl
  unfold onPage
  split
  · rename_i empty
    have none_ : requests = [] := by simpa using empty
    split
    · rename_i drain
      obtain ⟨c, found, -, -, -⟩ := shouldContinueEmptyDrain_iff.mp drain
      refine .follow busy quiet rfl rfl ?_ fun _ => rfl
      simp [view, found]
    · dsimp only
      unfold emptyScanStep
      split
      · exact applyStep_delay_move busy quiet (by simp)
      · rename_i calm
        simp only [Bool.or_eq_true, not_or, Bool.not_eq_true] at calm
        have last : nextCursor = none := by simpa using calm.2
        have clean : [seen].any (Obs.leavesWork leftWork) = false := by
          rcases shows with rfl | ⟨rfl, -, -⟩ <;> simp [last]
        exact applyStep_continue_move busy quiet clean calm.1 (by simp) (by simp)
  · rename_i some_
    have page : seen = .page requests nextCursor := by
      rcases shows with page | ⟨-, none_, -⟩
      · exact page
      · simp [none_] at some_
    have clean : seen.leavesWork leftWork = false := by
      rw [page]
      cases requests with
      | nil => simp at some_
      | cons request rest => rfl
    refine .hold busy (quiet_pair (quiet_single rfl rfl) quiet) (by simp) rfl ?_
    simp [clean, view]

theorem onReply_move {s : State} {fresh : Bool} (phase : s.phase = .lookup fresh)
    (deferred : Bool) (send : Send (Option PendingPage)) :
    Move leftWork (view s) (onReply s fresh deferred send).2
      (view (onReply s fresh deferred send).1) := by
  have busy : (view s).stage.Busy := by
    left
    rw [view, phase]
    rfl
  unfold onReply getPendingWallets shown
  cases executeQuery send none with
  | error e => exact applyStep_delay_move busy (quiet_single rfl rfl) (by simp)
  | ok data =>
    cases data with
    | none => exact onPage_move phase deferred (.inr ⟨rfl, rfl, rfl⟩)
    | some page => exact onPage_move phase deferred (.inl rfl)

theorem onOutcome_move {s : State} {nextCursor : Option String}
    (phase : s.phase = .sent nextCursor) (deferred : Bool) (outcome : BatchOutcome) :
    Move leftWork (view s)
      (applyStep s (walletStep outcome nextCursor s.restartAfterScan deferred)
        [.outcome outcome]).2
      (view (applyStep s (walletStep outcome nextCursor s.restartAfterScan deferred)
        [.outcome outcome]).1) := by
  have busy : (view s).stage.Busy := by
    right
    rw [view, phase]
    rfl
  have quiet : Quiet [(.outcome outcome : Shown)] := quiet_single rfl rfl
  cases outcome with
  | completed =>
    unfold walletStep
    dsimp only
    split
    · exact applyStep_delay_move busy quiet (by simp)
    · rename_i more
      refine applyStep_continue_move busy quiet (by simp [leftWork]) rfl
        (fun some_ => by rw [some_, Bool.true_or]) ?_
      intro last
      simpa [last] using more
  | submissionFailed => exact applyStep_delay_move busy quiet fun some_ => some_

theorem step_move {s t : State} {e : Event} {os : List Shown} (h : step s e = some (t, os)) :
    Move leftWork (view s) os (view t) := by
  cases step_cases h with
  | go phase fetch =>
    have stage : (view s).stage = .head := by rw [view, phase]; rfl
    exact .go stage fetch
  | park phase off =>
    have stage : (view s).stage = .head := by rw [view, phase]; rfl
    exact .park stage off
  | wake phase =>
    have stage : (view s).stage = .idle := by rw [view, phase]; rfl
    exact .wake stage
  | begin phase =>
    have stage : (view s).stage = .ready := by rw [view, phase]; rfl
    exact .ask stage
  | reply send deferred fresh phase same =>
    have move := onReply_move phase deferred send
    rw [same] at move
    exact move
  | ack outcome deferred nextCursor phase same =>
    have move := onOutcome_move phase deferred outcome
    rw [same] at move
    exact move
  | gone nextCursor phase => exact .leave (by rw [view, phase]; rfl) rfl
  | resume phase =>
    have stage : (view s).stage = .backoff := by rw [view, phase]; rfl
    exact .resume stage

theorem between_alive (s : State) (between : (view s).stage.Between) :
    ∃ e t os, step s e = some (t, os) := by
  cases phase : s.phase with
  | loopHead =>
    cases fetch : s.fetchNow <;>
      exact ⟨.start, _, _, by simp only [step, phase, fetch]; rfl⟩
  | ready => exact ⟨.begin, _, _, by simp only [step, phase]; rfl⟩
  | retryWait => exact ⟨.delayOver, _, _, by simp only [step, phase]; rfl⟩
  | _ => simp [view, phase, Phase.stage, Stage.Between] at between

end WalletPoller

/-- A next cursor on a page without rows is met only by a scan that will be
retried anyway. -/
def nextsShown (at_ : TransactionPoller.State × List TransactionPoller.Shown)
    (e : TransactionPoller.Event) : Prop :=
  ∀ send deferred, e = .reply send deferred → TransactionPoller.HidesNext send →
    at_.1.scanRetry = true

namespace TransactionPoller

theorem between_move (s : State) (e : Event) (t : State) (os : List Shown)
    (between : (view s).stage.Between) (h : step s e = some (t, os)) :
    Move leftWork (view s) os (view t) := by
  refine step_move (fun fresh phase => ?_) (fun send deferred reply _ => ?_) h
  · simp [view, phase, Phase.stage, Stage.Between] at between
  · subst reply
    cases step_cases h with
    | reply _ _ fresh phase _ => simp [view, phase, Phase.stage, Stage.Between] at between

theorem unparked {es : List Event} {reached : State × List Shown}
    (path : Path (gated nextsShown (traced step)) (initial, []) es reached) :
    Unparked leftWork step view reached := by
  have moves : ∀ (at_ : State × List Shown) (e : Event) (t : State) (os : List Shown),
      Sane at_.1 → nextsShown at_ e → step at_.1 e = some (t, os) →
      Move leftWork (view at_.1) os (view t) ∧ Sane t :=
    fun _ _ _ _ sane kept h => ⟨step_move (fun _ phase => (sane.idleSent phase).1) kept h, step_sane sane h⟩
  have account := accounted_of_moves moves sane_initial rfl rfl path
  exact account.unparked between_move between_alive

end TransactionPoller

namespace WalletPoller

theorem unparked {es : List Event} {reached : State × List Shown}
    (path : Path (traced step) (initial, []) es reached) :
    Unparked leftWork step view reached := by
  have free : Path (gated (fun _ _ => True) (traced step)) (initial, []) es reached :=
    path.mono fun _ _ _ h => ⟨trivial, h⟩
  have account : Accounted leftWork (view reached.1) reached.2 :=
    accounted_of_moves (fun _ _ _ _ _ _ h => ⟨step_move h, trivial⟩) trivial rfl rfl free
  exact account.unparked (fun _ _ _ _ _ h => step_move h) between_alive

end WalletPoller

/-- In every run no owed work is parked, by either poller. -/
theorem pollers_unparked (es : List TransactionPoller.Event) (fs : List WalletPoller.Event)
    (reached : TransactionPoller.State × List TransactionPoller.Shown)
    (walletReached : WalletPoller.State × List WalletPoller.Shown)
    (path : Path (gated nextsShown (traced TransactionPoller.step))
      (TransactionPoller.initial, []) es reached)
    (walletPath : Path (traced WalletPoller.step) (WalletPoller.initial, []) fs walletReached) :
    Unparked TransactionPoller.leftWork TransactionPoller.step TransactionPoller.view reached ∧
      Unparked WalletPoller.leftWork WalletPoller.step WalletPoller.view walletReached :=
  ⟨TransactionPoller.unparked path, WalletPoller.unparked walletPath⟩

/-- One healthy page is worked on, and then both pollers idle. -/
theorem pollers_unparked_healthy :
    (∃ reached, Path (gated nextsShown (traced TransactionPoller.step))
        (TransactionPoller.initial, [])
        [.start, .begin,
          .reply (answers (some ⟨[TransactionPoller.zeroRow "a" .matrix], none⟩)) false,
          .ack .completed false, .start] reached ∧
      reached.1.phase = .idleWait ∧
      Unparked TransactionPoller.leftWork TransactionPoller.step TransactionPoller.view reached) ∧
    ∃ reached, Path (traced WalletPoller.step) (WalletPoller.initial, [])
        [.start, .begin, .reply (answers (some ⟨[⟨some "a"⟩], none⟩)) false,
          .ack .completed false, .start] reached ∧
      reached.1.phase = .idleWait ∧
      Unparked WalletPoller.leftWork WalletPoller.step WalletPoller.view reached := by
  have shows : ∀ e ∈ ([.start, .begin,
      .reply (answers (some ⟨[TransactionPoller.zeroRow "a" .matrix], none⟩)) false,
      .ack .completed false, .start] : List TransactionPoller.Event), ∀ at_, nextsShown at_ e := by
    intro e member at_ send deferred reply hides
    rw [reply] at member
    simp only [List.mem_cons, reduceCtorEq, TransactionPoller.Event.reply.injEq, List.not_mem_nil,
      false_or, or_false] at member
    rw [member.1, TransactionPoller.hidesNext_answers] at hides
    cases hides.1
  have path : Path (gated nextsShown (traced TransactionPoller.step))
      (TransactionPoller.initial, []) _ _ := (Path.of_traced_run rfl).gate shows
  have walletPath : Path (traced WalletPoller.step) (WalletPoller.initial, [])
      [.start, .begin, .reply (answers (some ⟨[⟨some "a"⟩], none⟩)) false,
        .ack .completed false, .start] _ := Path.of_traced_run rfl
  have both := pollers_unparked _ _ _ _ path walletPath
  exact ⟨⟨_, path, rfl, both.1⟩, ⟨_, walletPath, rfl, both.2⟩⟩

/-- The transaction poller idles after a page without rows, whatever follows it. -/
theorem poller_parks_hidden :
    ¬ ((∀ es reached, Path (traced TransactionPoller.step) (TransactionPoller.initial, [])
          es reached →
        Unparked TransactionPoller.leftWork TransactionPoller.step TransactionPoller.view
          reached) ∧
      ∀ es reached, Path (traced WalletPoller.step) (WalletPoller.initial, []) es reached →
        Unparked WalletPoller.leftWork WalletPoller.step WalletPoller.view reached) := by
  rintro ⟨claim, -⟩
  have idles := claim
    [.start, .begin, .reply (answers (some ⟨[], some "p2"⟩)) false, .start] _
    (Path.of_traced_run rfl)
  have owes := (idles.idle rfl).1
  cases owes

end WalletDaemon