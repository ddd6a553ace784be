import WalletDaemon.TransactionPoller
import WalletDaemon.WalletPoller

/-! Whether a scan moves from page to page. A page that submitted nothing is
followed only where its next cursor is another; one that made progress is
followed wherever it points. -/

namespace WalletDaemon

open Platform Transition Retry ScanLoop

namespace ScanLoop

variable {Q O I : Type}

/-- The cursor last looked up, with no wait since. -/
def lastLookup : Trace Q O I → Option (Option String)
  | [] => none
  | .lookup cursor :: _ => some cursor
  | .idleWait :: _ => none
  | .backoffWait _ :: _ => none
  | _ :: earlier => lastLookup earlier

/-- No lookup with a cursor repeats the one before it unpaced. -/
def Unrepeated : Obs Q O I → Trace Q O I → Prop
  | .lookup (some cursor), earlier => lastLookup earlier ≠ some (some cursor)
  | _, _ => True

/-- A page is asked for or worked on, the next lookup is due, or the loop is left. -/
inductive Stance
  | asks
  | moves
  | left
deriving DecidableEq, Repr

/-- What the loop's cursor is to the trace. -/
def Follows (stance : Stance) (cursor : Option String) (trace : Trace Q O I) : Prop :=
  Everywhere Unrepeated trace ∧
    match stance with
    | .asks => lastLookup trace = some cursor
    | .moves => ∀ next, cursor = some next → lastLookup trace ≠ some (some next)
    | .left => True

variable {cursor next : Option String} {os trace : Trace Q O I} {stance : Stance}

theorem lastLookup_append (quiet : Quiet os) : lastLookup (os ++ trace) = lastLookup trace := by
  induction os with
  | nil => rfl
  | cons o os ih =>
    have kind := quiet o (by simp)
    have rest := ih fun p member => quiet p (by simp [member])
    cases o with
    | lookup cursor => cases kind.1
    | idleWait => cases kind.2
    | backoffWait attempt => cases kind.2
    | _ => exact rest

theorem unrepeated_append (h : Everywhere Unrepeated trace)
    (silent : ∀ o ∈ os, o.isLookup = false) : Everywhere Unrepeated (os ++ trace) := by
  refine everywhere_append (fun o member past => ?_) h
  have kind := silent o member
  cases o with
  | lookup cursor => cases kind
  | _ => trivial

theorem Follows.nil : Follows .moves cursor ([] : Trace Q O I) :=
  ⟨Everywhere.nil _, fun _ _ => nofun⟩

theorem Follows.ask (h : Follows .moves cursor trace) :
    Follows .asks cursor (.lookup cursor :: trace) := by
  refine ⟨everywhere_cons.mpr ⟨?_, h.1⟩, rfl⟩
  cases cursor with
  | none => trivial
  | some c => exact h.2 c rfl

theorem Follows.hold (h : Follows .asks cursor trace) (quiet : Quiet os) :
    Follows .asks cursor (os ++ trace) :=
  ⟨unrepeated_append h.1 (quiet_lookup quiet), by
    dsimp only
    rw [lastLookup_append quiet]
    exact h.2⟩

theorem Follows.go (h : Follows .asks cursor trace) (quiet : Quiet os)
    (other : ∀ c, next = some c → cursor ≠ some c) : Follows .moves next (os ++ trace) := by
  refine ⟨unrepeated_append h.1 (quiet_lookup quiet), fun c some_ same => other c some_ ?_⟩
  rw [lastLookup_append quiet, h.2] at same
  exact Option.some.inj same

theorem Follows.stop (h : Follows stance cursor trace) (silent : ∀ o ∈ os, o.isLookup = false) :
    Follows .moves none (os ++ trace) := ⟨unrepeated_append h.1 silent, nofun⟩

theorem Follows.rest (h : Follows stance cursor trace) (quiet : Quiet os) (attempt : Nat) :
    Follows .moves next (.backoffWait attempt :: os ++ trace) :=
  ⟨everywhere_cons.mpr ⟨trivial, unrepeated_append h.1 (quiet_lookup quiet)⟩, fun _ _ => nofun⟩

theorem Follows.park (h : Follows .moves cursor trace) :
    Follows .moves cursor (.idleWait :: trace) :=
  ⟨everywhere_cons.mpr ⟨trivial, h.1⟩, fun _ _ => nofun⟩

end ScanLoop

namespace TransactionPoller

def Phase.stance : Phase → Stance
  | .lookup _ => .asks
  | .sent _ => .asks
  | .exited => .left
  | _ => .moves

def Follow (at_ : State × List Shown) : Prop := Follows at_.1.phase.stance at_.1.cursor at_.2

/-- A page with progress is followed by another, or by none. -/
def progressMoves (at_ : State × List Shown) : Event → Prop
  | .ack outcome _ => ∀ nextCursor, at_.1.phase = .sent nextCursor →
      outcome = .completed ∨ outcome = .partialProgress → nextCursor ≠ none →
        at_.1.cursor ≠ nextCursor
  | _ => True

theorem finishScanRetry_follow {stance : Stance} {cursor : Option String} {s : State}
    {trace seen : List Shown} (h : Follows stance cursor trace) (none_ : s.cursor = none)
    (quiet : Quiet seen) (deferred : Bool) :
    Follow ((finishScanRetry s deferred seen).1,
      (finishScanRetry s deferred seen).2 ++ trace) := by
  unfold finishScanRetry
  split
  · exact h.rest quiet _
  · have ended := h.stop (quiet_lookup quiet)
    rw [← none_] at ended
    exact ended

theorem endScan_follow {stance : Stance} {cursor : Option String} {s : State}
    {trace : List Shown} {seen : Shown} (h : Follows stance cursor trace) (none_ : s.cursor = none)
    (quiet : Quiet [seen]) (fresh deferred : Bool) :
    Follow ((endScan s fresh deferred seen).1, (endScan s fresh deferred seen).2 ++ trace) := by
  unfold endScan
  dsimp only
  split
  · exact finishScanRetry_follow (s := completeChainScan s) h none_ quiet _
  · have both := quiet_pair (o := (.tick [] (idleChains s) : Shown)) (quiet_single rfl rfl) quiet
    have ended := h.stop (quiet_lookup both)
    rw [← none_] at ended
    exact ended

theorem onReply_follow {s : State} {trace : List Shown} (h : Follows .asks s.cursor trace)
    (fresh deferred : Bool) (send : Send (Option PendingPage)) :
    Follow ((onReply s fresh deferred send).1, (onReply s fresh deferred send).2 ++ trace) := by
  have quiet : Quiet [shown send] := by
    cases replyKind send with
    | failed _ _ _ seen => exact seen ▸ quiet_single rfl rfl
    | noResult _ seen => exact seen ▸ quiet_single rfl rfl
    | noRows _ _ seen _ => exact seen ▸ quiet_single rfl rfl
    | rows _ _ _ seen => exact seen ▸ quiet_single rfl rfl
  unfold onReply
  split
  · rename_i requests nextCursor _
    unfold onPage
    split
    · split
      · rename_i drain
        obtain ⟨c, found, other, -⟩ := shouldContinueEmptyDrain_iff.mp drain
        exact h.go quiet fun d some_ => by rwa [← some_, found]
      · exact endScan_follow h rfl quiet _ _
    · have both : ∀ idle, Quiet [.tick requests idle, shown send] :=
        fun idle => quiet_pair (quiet_single rfl rfl) quiet
      dsimp only
      split
      · exact h.hold (both _)
      · exact h.hold (both _)
  · unfold onError
    dsimp only
    split
    · exact endScan_follow h rfl quiet _ _
    · exact h.rest quiet _

theorem onOutcome_follow {s : State} {trace : List Shown} (h : Follows .asks s.cursor trace)
    {nextCursor : Option String} (deferred : Bool) {outcome : BatchOutcome}
    (moves : outcome = .completed ∨ outcome = .partialProgress → nextCursor ≠ none →
      s.cursor ≠ nextCursor) :
    Follow ((onOutcome s nextCursor deferred outcome).1,
      (onOutcome s nextCursor deferred outcome).2 ++ trace) := by
  have quiet : Quiet [(.outcome outcome : Shown)] := quiet_single rfl rfl
  unfold onOutcome
  split
  · rename_i cursor madeProgress requiresFreshRetry decided
    have other : ∀ c, cursor = some c → s.cursor ≠ some c := by
      intro c some_
      unfold batchStep at decided
      cases outcome with
      | completed =>
        cases decided
        exact some_ ▸ moves (.inl rfl) (by simp [some_])
      | partialProgress =>
        cases decided
        exact some_ ▸ moves (.inr rfl) (by simp [some_])
      | skipped =>
        dsimp only at decided
        split at decided
        · rename_i drain
          obtain ⟨d, found, other, -⟩ := shouldContinueEmptyDrain_iff.mp drain
          cases decided
          rwa [← some_, found]
        · cases decided
      | submissionFailed => cases decided
    dsimp only
    split
    · rename_i last
      have none_ : cursor = none := by simpa using last
      exact finishScanRetry_follow h none_ quiet _
    · exact h.go quiet other
  · exact h.rest quiet _

theorem step_follow {at_ : State × List Shown} {e : Event} {t : State} {os : List Shown}
    (h : Follow at_) (moves : progressMoves at_ e) (stepped : step at_.1 e = some (t, os)) :
    Follow (t, os ++ at_.2) := by
  obtain ⟨s, trace⟩ := at_
  unfold Follow at h
  cases step_cases stepped with
  | go phase fetch =>
    rw [phase] at h
    exact h
  | park phase off =>
    rw [phase] at h
    exact Follows.park h
  | wake phase =>
    rw [phase] at h
    exact h
  | begin phase =>
    rw [phase] at h
    exact Follows.ask h
  | reply send deferred fresh phase same =>
    rw [phase] at h
    have follow := onReply_follow h fresh deferred send
    rwa [same] at follow
  | ack outcome deferred nextCursor phase same =>
    rw [phase] at h
    have follow := onOutcome_follow h deferred (moves nextCursor phase)
    rwa [same] at follow
  | idleAck outcome deferred fresh phase same =>
    rw [phase] at h
    unfold finishScanRetry at same
    split at same
    · cases same
      have nothing : Quiet ([] : List Shown) := fun _ member => absurd member List.not_mem_nil
      exact h.rest nothing _
    · cases same
      exact h
  | gone phase => exact ⟨h.1, trivial⟩
  | resume phase =>
    rw [phase] at h
    exact h

end TransactionPoller

namespace WalletPoller

def Phase.stance : Phase → Stance
  | .lookup _ => .asks
  | .sent _ => .asks
  | .exited => .left
  | _ => .moves

def Follow (at_ : State × List Shown) : Prop := Follows at_.1.phase.stance at_.1.cursor at_.2

/-- A populated page is followed by another, or by none. -/
def progressMoves (at_ : State × List Shown) : Event → Prop
  | .ack outcome _ => ∀ nextCursor, at_.1.phase = .sent nextCursor → outcome = .completed →
      nextCursor ≠ none → at_.1.cursor ≠ nextCursor
  | _ => True

theorem applyStep_follow {s : State} {trace seen : List Shown} {cursor : Option String}
    (h : Follows .asks cursor trace) (quiet : Quiet seen) (decided : WalletStep)
    (other : ∀ next restart reset fetch, decided = .continue (some next) restart reset fetch →
      cursor ≠ some next) :
    Follow ((applyStep s decided seen).1, (applyStep s decided seen).2 ++ trace) := by
  cases decided with
  | «continue» next restart reset fetch =>
    refine h.go quiet fun c some_ => other c restart reset fetch ?_
    exact congrArg (WalletStep.continue · restart reset fetch) some_
  | delayThenFetch next restart reason => exact h.rest quiet _

theorem onReply_follow {s : State} {trace : List Shown} (h : Follows .asks s.cursor trace)
    (fresh deferred : Bool) (send : Send (Option PendingPage)) :
    Follow ((onReply s fresh deferred send).1, (onReply s fresh deferred send).2 ++ trace) := by
  have quiet : Quiet [shown send] := by
    unfold shown
    split <;> exact quiet_single rfl rfl
  unfold onReply
  split
  · rename_i requests nextCursor _
    unfold onPage
    split
    · split
      · rename_i drain
        obtain ⟨c, found, other, -⟩ := shouldContinueEmptyDrain_iff.mp drain
        exact h.go quiet fun d some_ => by rwa [← some_, found]
      · refine applyStep_follow h quiet _ fun next restart reset fetch decided => ?_
        unfold emptyScanStep at decided
        split at decided <;> cases decided
    · exact h.hold (quiet_pair (quiet_single rfl rfl) quiet)
  · exact applyStep_follow h quiet _ fun _ _ _ _ decided => by cases decided

theorem onOutcome_follow {s : State} {trace : List Shown} (h : Follows .asks s.cursor trace)
    {nextCursor : Option String} (deferred : Bool) {outcome : BatchOutcome}
    (moves : outcome = .completed → nextCursor ≠ none → s.cursor ≠ nextCursor) :
    Follow ((applyStep s (walletStep outcome nextCursor s.restartAfterScan deferred)
        [.outcome outcome]).1,
      (applyStep s (walletStep outcome nextCursor s.restartAfterScan deferred)
        [.outcome outcome]).2 ++ trace) := by
  refine applyStep_follow h (quiet_single rfl rfl) _ fun next restart reset fetch decided => ?_
  unfold walletStep at decided
  cases outcome with
  | completed =>
    dsimp only at decided
    split at decided
    · cases decided
    · have same : nextCursor = some next := by
        injection decided
      rw [← same]
      exact moves rfl (by simp [same])
  | submissionFailed => cases decided

theorem step_follow {at_ : State × List Shown} {e : Event} {t : State} {os : List Shown}
    (h : Follow at_) (moves : progressMoves at_ e) (stepped : step at_.1 e = some (t, os)) :
    Follow (t, os ++ at_.2) := by
  obtain ⟨s, trace⟩ := at_
  unfold Follow at h
  cases step_cases stepped with
  | go phase fetch =>
    rw [phase] at h
    exact h
  | park phase off =>
    rw [phase] at h
    exact Follows.park h
  | wake phase =>
    rw [phase] at h
    exact h
  | begin phase =>
    rw [phase] at h
    exact Follows.ask h
  | reply send deferred fresh phase same =>
    rw [phase] at h
    have follow := onReply_follow h fresh deferred send
    rwa [same] at follow
  | ack outcome deferred nextCursor phase same =>
    rw [phase] at h
    have follow := onOutcome_follow h deferred (moves nextCursor phase)
    rwa [same] at follow
  | gone nextCursor phase => exact ⟨h.1, trivial⟩
  | resume phase =>
    rw [phase] at h
    exact h

end WalletPoller

/-- In every run in which a page that made progress points to another page, no
cursor is looked up twice in a row unpaced, by either poller. -/
theorem cursors_unrepeated {es : List TransactionPoller.Event} {fs : List WalletPoller.Event}
    {reached : TransactionPoller.State × List TransactionPoller.Shown}
    {walletReached : WalletPoller.State × List WalletPoller.Shown}
    (path : Path (gated TransactionPoller.progressMoves (traced TransactionPoller.step))
      (TransactionPoller.initial, []) es reached)
    (walletPath : Path (gated WalletPoller.progressMoves (traced WalletPoller.step))
      (WalletPoller.initial, []) fs walletReached) :
    Everywhere Unrepeated reached.2 ∧ Everywhere Unrepeated walletReached.2 := by
  constructor
  · have follow := path.invariant (I := TransactionPoller.Follow) ?_ Follows.nil
    · exact follow.1
    · rintro at_ e ⟨t, after⟩ h ⟨moves, os, stepped, rfl⟩
      exact TransactionPoller.step_follow h moves stepped
  · have follow := walletPath.invariant (I := WalletPoller.Follow) ?_ Follows.nil
    · exact follow.1
    · rintro at_ e ⟨t, after⟩ h ⟨moves, os, stepped, rfl⟩
      exact WalletPoller.step_follow h moves stepped

/-- Both pollers follow one page to the next. -/
theorem cursors_unrepeated_followed :
    (∃ reached, Path (gated TransactionPoller.progressMoves (traced TransactionPoller.step))
        (TransactionPoller.initial, [])
        [.start, .begin,
          .reply (answers (some ⟨[TransactionPoller.zeroRow "a" .matrix], some "p"⟩)) false,
          .ack .completed false, .start, .begin] reached ∧
      reached.2.head? = some (.lookup (some "p")) ∧ Everywhere Unrepeated reached.2) ∧
    ∃ reached, Path (gated WalletPoller.progressMoves (traced WalletPoller.step))
        (WalletPoller.initial, [])
        [.start, .begin, .reply (answers (some ⟨[⟨some "a"⟩], some "p"⟩)) false,
          .ack .completed false, .start, .begin] reached ∧
      reached.2.head? = some (.lookup (some "p")) ∧ Everywhere Unrepeated reached.2 := by
  have path : Path (gated TransactionPoller.progressMoves (traced TransactionPoller.step))
      (TransactionPoller.initial, [])
      [.start, .begin,
        .reply (answers (some ⟨[TransactionPoller.zeroRow "a" .matrix], some "p"⟩)) false,
        .ack .completed false, .start, .begin] _ :=
    Path.gate_run (fun _ _ _ => traced_of_traceStep) rfl
      ⟨trivial, trivial, trivial, fun next phase _ _ => by cases phase; nofun, trivial, trivial,
        trivial⟩
  have walletPath : Path (gated WalletPoller.progressMoves (traced WalletPoller.step))
      (WalletPoller.initial, [])
      [.start, .begin, .reply (answers (some ⟨[⟨some "a"⟩], some "p"⟩)) false,
        .ack .completed false, .start, .begin] _ :=
    Path.gate_run (fun _ _ _ => traced_of_traceStep) rfl
      ⟨trivial, trivial, trivial, fun next phase _ _ => by cases phase; nofun, trivial, trivial,
        trivial⟩
  have both := cursors_unrepeated path walletPath
  exact ⟨⟨_, path, rfl, both.1⟩, ⟨_, walletPath, rfl, both.2⟩⟩

/-- A server that repeats its cursor on a page with work is asked for it again at once. -/
theorem cursors_repeat :
    (¬ ∀ es reached, Path (traced TransactionPoller.step) (TransactionPoller.initial, [])
        es reached → Everywhere Unrepeated reached.2) ∧
    ¬ ∀ es reached, Path (traced WalletPoller.step) (WalletPoller.initial, []) es reached →
        Everywhere Unrepeated reached.2 := by
  constructor
  · intro claim
    have all := claim [.start, .begin,
      .reply (answers (some ⟨[TransactionPoller.zeroRow "a" .matrix], some "p"⟩)) false,
      .ack .completed false, .start, .begin,
      .reply (answers (some ⟨[TransactionPoller.zeroRow "a" .matrix], some "p"⟩)) false,
      .ack .completed false, .start, .begin] _ (Path.of_traced_run rfl)
    exact all (.lookup (some "p")) _ (List.suffix_refl _) rfl
  · intro claim
    have all := claim [.start, .begin, .reply (answers (some ⟨[⟨some "a"⟩], some "p"⟩)) false,
      .ack .completed false, .start, .begin,
      .reply (answers (some ⟨[⟨some "a"⟩], some "p"⟩)) false, .ack .completed false, .start,
      .begin] _ (Path.of_traced_run rfl)
    exact all (.lookup (some "p")) _ (List.suffix_refl _) rfl

end WalletDaemon
