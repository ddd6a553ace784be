import WalletDaemon.OwedWork

/-! How far a scan drains past pages that submit nothing. Each poller counts
such pages, and its counter bounds the lookups shown since the last wait. -/

namespace WalletDaemon

open Platform Transition Retry

namespace ScanLoop

variable {Q O I : Type}

/-- The lookups of the scan since its last wait and its last batch that was not
skipped. -/
def streak (skipped : O → Bool) : Trace Q O I → Nat
  | [] => 0
  | .lookup none :: _ => 1
  | .lookup (some _) :: earlier => streak skipped earlier + 1
  | .outcome result :: earlier => if skipped result then streak skipped earlier else 0
  | .idleWait :: _ => 0
  | .backoffWait _ :: _ => 0
  | _ :: earlier => streak skipped earlier

/-- A page that submits nothing is passed over for the ones behind it, or given
up on. -/
def passesOver (skipped : O → Bool) : Obs Q O I → Bool
  | .page [] (some _) => true
  | .outcome result => skipped result
  | _ => false

/-- Draining is bounded and paced: few lookups in a row submit nothing, and between
a scan that passed over such a page and the next one stands a wait. -/
structure Drains (skipped : O → Bool) (trace : Trace Q O I) : Prop where
  bounded : Everywhere
    (fun o earlier => streak skipped (o :: earlier) ≤ maxConsecutiveEmptyPages + 1) trace
  waited : ∀ earlier, (.lookup none :: earlier) <:+ trace →
    (sinceFresh earlier).any (passesOver skipped) = true →
      ∃ attempt before, earlier = .backoffWait attempt :: before

variable {skipped : O → Bool}

theorem streak_append {os : Trace Q O I} (quiet : ∀ o ∈ os, o.isLookup = false)
    (earlier : Trace Q O I) : streak skipped (os ++ earlier) ≤ streak skipped earlier := by
  induction os with
  | nil => exact Nat.le_refl _
  | cons o os ih =>
    have rest := ih fun p member => quiet p (by simp [member])
    have here := quiet o (by simp)
    rw [List.cons_append]
    cases o with
    | lookup cursor => cases here
    | outcome result =>
      simp only [streak]
      split <;> omega
    | idleWait => simp [streak]
    | backoffWait attempt => simp [streak]
    | _ => exact rest

/-- How a step spends the lookups a poller has left before it must stop. -/
inductive Spends (skipped : O → Bool) : Nat → Trace Q O I → Nat → Prop
  | fresh {before after : Nat} : 1 ≤ after → Spends skipped before [.lookup none] after
  | follow {before after : Nat} (cursor : String) : before + 1 ≤ after →
      Spends skipped before [.lookup (some cursor)] after
  | quiet {before after : Nat} {os : Trace Q O I} : (∀ o ∈ os, o.isLookup = false) →
      before ≤ after → Spends skipped before os after
  | renew {before after : Nat} (os : Trace Q O I) (result : O) :
      (∀ o ∈ os, o.isLookup = false) → skipped result = false →
      Spends skipped before (os ++ [.outcome result]) after

theorem Spends.streak {before after : Nat} {os trace : Trace Q O I}
    (spends : Spends skipped before os after) (h : streak skipped trace ≤ before) :
    ScanLoop.streak skipped (os ++ trace) ≤ after := by
  cases spends with
  | fresh one => exact one
  | follow cursor one =>
    simp only [List.singleton_append, ScanLoop.streak]
    omega
  | quiet lookups more => exact (streak_append lookups trace).trans (h.trans more)
  | renew os result lookups submits =>
    rw [List.append_assoc]
    refine (streak_append lookups _).trans ?_
    simp [ScanLoop.streak, submits]

theorem Spends.everywhere {before after : Nat} {os trace : Trace Q O I} {bound : Nat}
    (spends : Spends skipped before os after) (h : ScanLoop.streak skipped trace ≤ before)
    (left : before ≤ bound) (right : after ≤ bound)
    (all : Everywhere (fun o earlier => ScanLoop.streak skipped (o :: earlier) ≤ bound) trace) :
    Everywhere (fun o earlier => ScanLoop.streak skipped (o :: earlier) ≤ bound) (os ++ trace) := by
  have silent : ∀ os : Trace Q O I, (∀ o ∈ os, o.isLookup = false) →
      Everywhere (fun o earlier => ScanLoop.streak skipped (o :: earlier) ≤ bound) (os ++ trace) := by
    intro os quiet
    induction os with
    | nil => exact all
    | cons o os ih =>
      rw [List.cons_append, everywhere_cons]
      refine ⟨?_, ih fun p member => quiet p (by simp [member])⟩
      exact (streak_append quiet trace).trans (h.trans left)
  cases spends with
  | fresh one => exact everywhere_cons.mpr ⟨one.trans right, all⟩
  | follow cursor one =>
    refine everywhere_cons.mpr ⟨?_, all⟩
    change ScanLoop.streak skipped trace + 1 ≤ bound
    omega
  | quiet lookups _ => exact silent os lookups
  | renew os result lookups _ =>
    apply silent
    intro o member
    rcases List.mem_append.mp member with inside | last
    · exact lookups o inside
    · rw [List.mem_singleton.mp last]
      rfl

/-- A poller that keeps within its allowance drains a bounded number of pages in
every run. -/
theorem bounded_of_spends {σ ε : Type} {step : σ → ε → Option (σ × Trace Q O I)}
    (allowance : σ → Nat) (sane : σ → Prop) {bound : Nat}
    (limit : ∀ s, sane s → allowance s ≤ bound)
    (spends : ∀ s e t os, sane s → step s e = some (t, os) →
      Spends skipped (allowance s) os (allowance t) ∧ sane t)
    {s : σ} (start : sane s) {es : List ε} {reached : σ × Trace Q O I}
    (path : Path (traced step) (s, []) es reached) :
    Everywhere (fun o earlier => streak skipped (o :: earlier) ≤ bound) reached.2 := by
  have all := path.invariant
    (I := fun at_ => sane at_.1 ∧ streak skipped at_.2 ≤ allowance at_.1 ∧
      Everywhere (fun o earlier => streak skipped (o :: earlier) ≤ bound) at_.2) ?_
    ⟨start, Nat.zero_le _, Everywhere.nil _⟩
  · exact all.2.2
  · rintro ⟨s, before⟩ e ⟨t, after⟩ ⟨sane_, within, bounded⟩ ⟨os, stepped, rest⟩
    obtain ⟨spent, next⟩ := spends s e t os sane_ stepped
    rw [rest]
    exact ⟨next, spent.streak within,
      spent.everywhere within (limit s sane_) (limit t next) bounded⟩

theorem Drains.of_paced {bad : O → Bool} {trace : Trace Q O I}
    (skips : ∀ result, skipped result = true → bad result = true)
    (bounded : Everywhere
      (fun o earlier => ScanLoop.streak skipped (o :: earlier) ≤ maxConsecutiveEmptyPages + 1) trace)
    (paced : Everywhere (Paced bad) trace) : Drains skipped trace where
  bounded := bounded
  waited earlier suffix passes := by
    obtain ⟨o, member, passed⟩ := List.any_eq_true.mp passes
    have work : o.leavesWork bad = true := by
      unfold passesOver at passed
      split at passed
      · rfl
      · exact skips _ passed
      · cases passed
    have owes : owed bad earlier = true := List.any_eq_true.mpr ⟨o, member, work⟩
    obtain ⟨attempt, last, before, shape, -⟩ := paced _ _ suffix owes
    exact ⟨attempt, _, shape⟩

end ScanLoop

namespace TransactionPoller

open ScanLoop

def skippedAll (outcome : BatchOutcome) : Bool := outcome = .skipped

/-- The lookups in a row a scan may have shown, by its counter. -/
def allowance (s : State) : Nat :=
  match s.phase with
  | .lookup _ => s.unproductivePages + 1
  | .sent _ => s.unproductivePages + 1
  | .exited => maxConsecutiveEmptyPages + 1
  | _ => if s.cursor.isNone then maxConsecutiveEmptyPages + 1 else s.unproductivePages

theorem allowance_le {s : State} (h : s.unproductivePages ≤ maxConsecutiveEmptyPages) :
    allowance s ≤ maxConsecutiveEmptyPages + 1 := by
  unfold allowance
  split
  · omega
  · omega
  · omega
  · split <;> omega

def Counts (before : Nat) (result : State × List Shown) : Prop :=
  Spends skippedAll before result.2 (allowance result.1) ∧
    result.1.unproductivePages ≤ maxConsecutiveEmptyPages

theorem finishScanRetry_counts {before : Nat} {s : State} {seen : List Shown}
    (quiet : ∀ o ∈ seen, o.isLookup = false) (cursor : s.cursor = none)
    (before_ : before ≤ maxConsecutiveEmptyPages + 1)
    (counter : s.unproductivePages ≤ maxConsecutiveEmptyPages) (deferred : Bool) :
    Counts before (finishScanRetry s deferred seen) := by
  unfold finishScanRetry
  split
  · refine ⟨.quiet ?_ ?_, counter⟩
    · intro o member
      rcases List.mem_cons.mp member with rfl | inside
      · rfl
      · exact quiet o inside
    · simpa [allowance, backoff, cursor] using before_
  · exact ⟨.quiet quiet (by simpa [allowance, cursor] using before_), counter⟩

theorem finishScanRetry_renews {before : Nat} {s : State} {outcome : BatchOutcome}
    (submits : skippedAll outcome = false)
    (counter : s.unproductivePages ≤ maxConsecutiveEmptyPages) (deferred : Bool) :
    Counts before (finishScanRetry s deferred [.outcome outcome]) := by
  unfold finishScanRetry
  split
  · exact ⟨.renew [.backoffWait _] outcome (by simp [Obs.isLookup]) submits, counter⟩
  · exact ⟨.renew [] outcome (by simp) submits, counter⟩

theorem backoff_counts {before : Nat} {s : State} {seen : List Shown}
    (quiet : ∀ o ∈ seen, o.isLookup = false) (cursor : s.cursor = none)
    (before_ : before ≤ maxConsecutiveEmptyPages + 1)
    (counter : s.unproductivePages ≤ maxConsecutiveEmptyPages) :
    Counts before (backoff s seen) := by
  refine ⟨.quiet ?_ ?_, counter⟩
  · intro o member
    rcases List.mem_cons.mp member with rfl | inside
    · rfl
    · exact quiet o inside
  · simpa [allowance, backoff, cursor] using before_

theorem endScan_counts {before : Nat} {s : State} {seen : Shown} (lookup : seen.isLookup = false)
    (cursor : s.cursor = none) (before_ : before ≤ maxConsecutiveEmptyPages + 1)
    (counter : s.unproductivePages = 0) (fresh deferred : Bool) :
    Counts before (endScan s fresh deferred seen) := by
  unfold endScan
  dsimp only
  split
  · apply finishScanRetry_counts
    · simpa using lookup
    · exact cursor
    · exact before_
    · simp [completeChainScan, counter]
  · refine ⟨.quiet ?_ ?_, by simp [completeChainScan, counter]⟩
    · intro o member
      rcases List.mem_cons.mp member with rfl | inside
      · rfl
      · rw [List.mem_singleton.mp inside]
        exact lookup
    · simpa [allowance, completeChainScan, cursor] using before_

theorem shown_isLookup (send : Send (Option PendingPage)) : (shown send).isLookup = false := by
  unfold shown
  split <;> rfl

theorem onReply_counts {s : State} (counter : s.unproductivePages ≤ maxConsecutiveEmptyPages)
    (fresh deferred : Bool) (send : Send (Option PendingPage)) :
    Counts (s.unproductivePages + 1) (onReply s fresh deferred send) := by
  have quiet := shown_isLookup send
  have limit : s.unproductivePages + 1 ≤ maxConsecutiveEmptyPages + 1 := by omega
  unfold onReply
  split
  · rename_i requests nextCursor _
    unfold onPage
    split
    · split
      · rename_i drain
        obtain ⟨next, found, -, below, -⟩ := shouldContinueEmptyDrain_iff.mp drain
        refine ⟨.quiet (by simpa using quiet) ?_, below⟩
        simp [allowance, found]
      · exact endScan_counts quiet rfl limit rfl _ _
    · dsimp only
      split
      · refine ⟨.quiet ?_ (Nat.le_refl _), counter⟩
        simpa [Obs.isLookup] using quiet
      · refine ⟨.quiet ?_ (Nat.le_refl _), counter⟩
        simpa [Obs.isLookup] using quiet
  · unfold onError
    dsimp only
    split
    · exact endScan_counts quiet rfl limit rfl _ _
    · exact backoff_counts (by simpa using quiet) rfl limit (Nat.zero_le _)

theorem onOutcome_counts {s : State} (counter : s.unproductivePages ≤ maxConsecutiveEmptyPages)
    (nextCursor : Option String) (deferred : Bool) (outcome : BatchOutcome) :
    Counts (s.unproductivePages + 1) (onOutcome s nextCursor deferred outcome) := by
  have limit : s.unproductivePages + 1 ≤ maxConsecutiveEmptyPages + 1 := by omega
  have quiet : ∀ o ∈ [(.outcome outcome : Shown)], o.isLookup = false := by simp [Obs.isLookup]
  unfold onOutcome
  split
  · rename_i cursor madeProgress requiresFreshRetry decided
    obtain ⟨same, -, -, progress, -⟩ := batchStep_continue decided
    by_cases skips : outcome = .skipped
    · -- The page is drained past, so the counter is below its limit.
      subst skips
      have drain : shouldContinueEmptyDrain s.cursor nextCursor s.unproductivePages = true := by
        by_contra stuck
        simp [batchStep, stuck] at decided
      obtain ⟨next, found, -, below, -⟩ := shouldContinueEmptyDrain_iff.mp drain
      obtain rfl : madeProgress = false := progress
      simp only [same, found, Option.isNone_some, Bool.false_eq_true, if_false]
      exact ⟨.quiet quiet (by simp [allowance]), below⟩
    · have submits : skippedAll outcome = false := by simp [skippedAll, skips]
      obtain rfl : madeProgress = true := by simp [progress, skips]
      simp only [if_true]
      split
      · exact finishScanRetry_renews submits (Nat.zero_le _) deferred
      · exact ⟨.renew [] outcome (by simp) submits, Nat.zero_le _⟩
  · exact backoff_counts quiet rfl limit (Nat.zero_le _)

theorem step_counts {s t : State} {e : Event} {os : List Shown} (sane : Sane s)
    (counter : s.unproductivePages ≤ maxConsecutiveEmptyPages)
    (h : step s e = some (t, os)) : Counts (allowance s) (t, os) := by
  cases step_cases h with
  | go phase _ => exact ⟨.quiet (by simp) (by simp [allowance, phase]), counter⟩
  | park phase _ => exact ⟨.quiet (by simp [Obs.isLookup]) (by simp [allowance, phase]), counter⟩
  | wake phase => exact ⟨.quiet (by simp) (by simp [allowance, phase]), counter⟩
  | begin phase =>
    refine ⟨?_, counter⟩
    cases cursor : s.cursor with
    | none => exact .fresh (Nat.le_add_left _ _)
    | some c => exact .follow c (by simp [allowance, phase, cursor])
  | reply send deferred fresh phase same =>
    have counts := onReply_counts counter fresh deferred send
    rw [same] at counts
    simpa only [allowance, phase] using counts
  | ack outcome deferred nextCursor phase same =>
    have counts := onOutcome_counts counter nextCursor deferred outcome
    rw [same] at counts
    simpa only [allowance, phase] using counts
  | idleAck outcome deferred fresh phase same =>
    have counts : Counts (allowance s) (finishScanRetry s (!fresh && deferred) []) :=
      finishScanRetry_counts (by simp) (sane.idleSent phase).1 (allowance_le counter) counter _
    rwa [same] at counts
  | gone phase => exact ⟨.quiet (by simp) (allowance_le counter), counter⟩
  | resume phase => exact ⟨.quiet (by simp) (by simp [allowance, phase]), counter⟩

theorem bounded {es : List Event} {reached : State × List Shown}
    (path : Path (traced step) (initial, []) es reached) :
    Everywhere (fun o earlier => streak skippedAll (o :: earlier) ≤ maxConsecutiveEmptyPages + 1)
      reached.2 := by
  refine bounded_of_spends allowance
    (fun s => Sane s ∧ s.unproductivePages ≤ maxConsecutiveEmptyPages)
    (fun _ sane => allowance_le sane.2) ?_ ⟨sane_initial, Nat.zero_le _⟩ path
  rintro s e t os ⟨sane, counter⟩ h
  have counts := step_counts sane counter h
  exact ⟨counts.1, step_sane sane h, counts.2⟩

end TransactionPoller

namespace WalletPoller

open ScanLoop

def skippedAll (_ : BatchOutcome) : Bool := false

/-- The lookups in a row a scan may have shown, by its counter. -/
def allowance (s : State) : Nat :=
  match s.phase with
  | .lookup _ => s.emptyPages + 1
  | .sent _ => maxConsecutiveEmptyPages + 1
  | .exited => maxConsecutiveEmptyPages + 1
  | _ => if s.cursor.isNone then maxConsecutiveEmptyPages + 1 else s.emptyPages

theorem allowance_le {s : State} (h : s.emptyPages ≤ maxConsecutiveEmptyPages) :
    allowance s ≤ maxConsecutiveEmptyPages + 1 := by
  unfold allowance
  split
  · omega
  · omega
  · omega
  · split <;> omega

def Counts (before : Nat) (result : State × List Shown) : Prop :=
  Spends skippedAll before result.2 (allowance result.1) ∧
    result.1.emptyPages ≤ maxConsecutiveEmptyPages

theorem applyStep_counts {before : Nat} {s : State} {decided : WalletStep} {seen : Shown}
    (lookup : seen.isLookup = false) (limit : before ≤ maxConsecutiveEmptyPages + 1)
    (counter : s.emptyPages ≤ maxConsecutiveEmptyPages)
    (ended : (applyStep s decided [seen]).1.cursor = none) :
    Counts before (applyStep s decided [seen]) := by
  cases decided with
  | «continue» cursor restart reset fetch =>
    obtain rfl : cursor = none := ended
    exact ⟨.quiet (by simpa [applyStep] using lookup) (by simpa [allowance, applyStep] using limit),
      counter⟩
  | delayThenFetch cursor restart reason =>
    obtain rfl : cursor = none := ended
    refine ⟨.quiet ?_ (by simpa [allowance, applyStep] using limit), counter⟩
    intro o member
    rcases List.mem_cons.mp member with rfl | inside
    · rfl
    · rw [List.mem_singleton.mp inside]
      exact lookup

theorem onPage_counts {s : State} (counter : s.emptyPages ≤ maxConsecutiveEmptyPages)
    (fresh deferred : Bool) (requests : List DeriveWalletRequest) (nextCursor : Option String)
    {seen : Shown} (lookup : seen.isLookup = false) :
    Counts (s.emptyPages + 1) (onPage s fresh deferred requests nextCursor seen) := by
  have limit : s.emptyPages + 1 ≤ maxConsecutiveEmptyPages + 1 := by omega
  unfold onPage
  split
  · split
    · rename_i drain
      obtain ⟨next, found, -, below, -⟩ := shouldContinueEmptyDrain_iff.mp drain
      exact ⟨.quiet (by simpa using lookup) (by simp [allowance, found]), below⟩
    · dsimp only
      refine applyStep_counts lookup limit (Nat.zero_le _) ?_
      unfold emptyScanStep
      split <;> rfl
  · refine ⟨.quiet ?_ limit, Nat.zero_le _⟩
    intro o member
    rcases List.mem_cons.mp member with rfl | inside
    · rfl
    · rw [List.mem_singleton.mp inside]
      exact lookup

theorem onReply_counts {s : State} (counter : s.emptyPages ≤ maxConsecutiveEmptyPages)
    (fresh deferred : Bool) (send : Send (Option PendingPage)) :
    Counts (s.emptyPages + 1) (onReply s fresh deferred send) := by
  have lookup : (shown send).isLookup = false := by
    unfold shown
    split <;> rfl
  unfold onReply
  split
  · exact onPage_counts counter fresh deferred _ _ lookup
  · exact applyStep_counts lookup (by omega) (Nat.zero_le _) rfl

theorem onOutcome_counts {s : State} (counter : s.emptyPages ≤ maxConsecutiveEmptyPages)
    (before : Nat) (nextCursor : Option String) (deferred : Bool) (outcome : BatchOutcome) :
    Counts before (applyStep s (walletStep outcome nextCursor s.restartAfterScan deferred)
      [.outcome outcome]) := by
  cases walletStep outcome nextCursor s.restartAfterScan deferred with
  | «continue» cursor restart reset fetch =>
    exact ⟨.renew [] outcome (by simp) rfl, counter⟩
  | delayThenFetch cursor restart reason =>
    exact ⟨.renew [.backoffWait _] outcome (by simp [Obs.isLookup]) rfl, counter⟩

theorem step_counts {s t : State} {e : Event} {os : List Shown}
    (counter : s.emptyPages ≤ maxConsecutiveEmptyPages) (h : step s e = some (t, os)) :
    Counts (allowance s) (t, os) := by
  cases step_cases h with
  | go phase _ => exact ⟨.quiet (by simp) (by simp [allowance, phase]), counter⟩
  | park phase _ => exact ⟨.quiet (by simp [Obs.isLookup]) (by simp [allowance, phase]), counter⟩
  | wake phase => exact ⟨.quiet (by simp) (by simp [allowance, phase]), counter⟩
  | begin phase =>
    refine ⟨?_, counter⟩
    cases cursor : s.cursor with
    | none => exact .fresh (Nat.le_add_left _ _)
    | some c => exact .follow c (by simp [allowance, phase, cursor])
  | reply send deferred fresh phase same =>
    have counts := onReply_counts counter fresh deferred send
    rw [same] at counts
    simpa only [allowance, phase] using counts
  | ack outcome deferred nextCursor phase same =>
    have counts := onOutcome_counts counter (allowance s) nextCursor deferred outcome
    rwa [same] at counts
  | gone nextCursor phase => exact ⟨.quiet (by simp) (allowance_le counter), counter⟩
  | resume phase => exact ⟨.quiet (by simp) (by simp [allowance, phase]), counter⟩

theorem bounded {es : List Event} {reached : State × List Shown}
    (path : Path (traced step) (initial, []) es reached) :
    Everywhere (fun o earlier => streak skippedAll (o :: earlier) ≤ maxConsecutiveEmptyPages + 1)
      reached.2 :=
  bounded_of_spends allowance (fun s => s.emptyPages ≤ maxConsecutiveEmptyPages)
    (fun _ => allowance_le) (fun _ _ _ _ => step_counts) (Nat.zero_le _) path

end WalletPoller

/-- In every run draining is bounded and paced, for both pollers. -/
theorem pollers_drain_paced (es : List TransactionPoller.Event) (fs : List WalletPoller.Event)
    (reached : TransactionPoller.State × List TransactionPoller.Shown)
    (walletReached : WalletPoller.State × List WalletPoller.Shown)
    (path : Path (gated nextsShown (traced TransactionPoller.step))
      (TransactionPoller.initial, []) es reached)
    (walletPath : Path (traced WalletPoller.step) (WalletPoller.initial, []) fs walletReached) :
    ScanLoop.Drains TransactionPoller.skippedAll reached.2 ∧
      ScanLoop.Drains WalletPoller.skippedAll walletReached.2 := by
  constructor
  · refine .of_paced ?_ (TransactionPoller.bounded (path.mono fun _ _ _ h => h.2))
      (TransactionPoller.unparked path).paced
    intro result skips
    have same : result = .skipped := by simpa [TransactionPoller.skippedAll] using skips
    rw [same]
    rfl
  · refine .of_paced ?_ (WalletPoller.bounded walletPath) (WalletPoller.unparked walletPath).paced
    intro result skips
    cases skips

/-- Both pollers drain past a page without convertible rows, and wait before
they start over. -/
theorem pollers_drain_paced_broken :
    (∃ reached, Path (gated nextsShown (traced TransactionPoller.step))
        (TransactionPoller.initial, [])
        [.start, .begin,
          .reply (answers (some ⟨[TransactionPoller.brokenRow "a" .matrix], some "p2"⟩)) false,
          .start, .begin,
          .reply (answers (some ⟨[TransactionPoller.brokenRow "b" .matrix], none⟩)) true,
          .delayOver, .start, .begin] reached ∧
      reached.1.phase = .lookup true ∧ ScanLoop.Drains TransactionPoller.skippedAll reached.2) ∧
    ∃ reached, Path (traced WalletPoller.step) (WalletPoller.initial, [])
        [.start, .begin, .reply (answers (some ⟨[⟨none⟩], some "p2"⟩)) false, .start, .begin,
          .reply (answers (some ⟨[⟨none⟩], none⟩)) true, .delayOver, .start, .begin] reached ∧
      reached.1.phase = .lookup true ∧ ScanLoop.Drains WalletPoller.skippedAll reached.2 := by
  have shows : ∀ e ∈ ([.start, .begin,
      .reply (answers (some ⟨[TransactionPoller.brokenRow "a" .matrix], some "p2"⟩)) false,
      .start, .begin,
      .reply (answers (some ⟨[TransactionPoller.brokenRow "b" .matrix], none⟩)) true,
      .delayOver, .start, .begin] : List TransactionPoller.Event), ∀ at_, nextsShown at_ e := by
    intro e member at_ send deferred reply hides
    rw [reply] at member
    simp only [List.mem_cons, reduceCtorEq, TransactionPoller.Event.reply.injEq, List.not_mem_nil,
      false_or, or_false] at member
    rcases member with ⟨first, -⟩ | ⟨second, -⟩
    · rw [first, TransactionPoller.hidesNext_answers] at hides
      cases hides.1
    · rw [second, TransactionPoller.hidesNext_answers] at hides
      cases hides.1
  have path : Path (gated nextsShown (traced TransactionPoller.step))
      (TransactionPoller.initial, []) _ _ := (Path.of_traced_run rfl).gate shows
  have walletPath : Path (traced WalletPoller.step) (WalletPoller.initial, [])
      [.start, .begin, .reply (answers (some ⟨[⟨none⟩], some "p2"⟩)) false, .start, .begin,
        .reply (answers (some ⟨[⟨none⟩], none⟩)) true, .delayOver, .start, .begin] _ :=
    Path.of_traced_run rfl
  have both := pollers_drain_paced _ _ _ _ path walletPath
  exact ⟨⟨_, path, rfl, both.1⟩, ⟨_, walletPath, rfl, both.2⟩⟩

/-- The transaction poller gives up on a page without rows and starts over at
once. -/
theorem poller_rescans_unpaced :
    ¬ ((∀ es reached, Path (traced TransactionPoller.step) (TransactionPoller.initial, [])
          es reached → ScanLoop.Drains TransactionPoller.skippedAll reached.2) ∧
      ∀ es reached, Path (traced WalletPoller.step) (WalletPoller.initial, []) es reached →
        ScanLoop.Drains WalletPoller.skippedAll reached.2) := by
  rintro ⟨claim, -⟩
  have drains := claim
    [.start, .begin,
      .reply (answers (some ⟨[TransactionPoller.zeroRow "a" .matrix], some "p2"⟩)) false,
      .ack .completed false, .start, .begin, .reply (answers (some ⟨[], some "p3"⟩)) true,
      .start, .begin] _ (Path.of_traced_run rfl)
  obtain ⟨attempt, before, shape⟩ := drains.waited _ (List.suffix_refl _) rfl
  cases (List.cons.inj shape).1

end WalletDaemon
