import WalletDaemon.OwedWork
import WalletDaemon.PageWalk

/-! Which pages of a chain one scan requests.
Both pollers walk the chain. The managed-wallet poller stops at the last page
only; the transaction poller also stops at a page without rows, and so never
requests the pages behind it. -/

namespace WalletDaemon

open Platform Transition Retry ScanLoop PageWalk

theorem drains {Row : Type} {chain : PageChain Row} {stops nothing : Link Row → Bool}
    {done todo : List (Link Row)} {here : Link Row} {v : Walker}
    (at_ : At chain stops nothing maxConsecutiveEmptyPages done here todo v)
    (none_ : nothing here = true) {next : String} (more : here.next = some next) :
    shouldContinueEmptyDrain v.cursor here.next v.empties = true := by
  refine shouldContinueEmptyDrain_iff.mpr ⟨next, more, ?_, at_.sparse.lt none_, ?_⟩
  · rw [at_.cursor]
    exact chain.next_ne_cursor at_.split_ more
  · intro empty
    rw [empty] at more
    exact chain.next_nonempty (by rw [at_.split_]; simp) more

namespace TransactionPoller

/-- The poller stops at the last page and at a page without rows. -/
def stops (link : Link PendingTransaction) : Bool := link.next.isNone || link.rows.isEmpty

/-- A page submits nothing when no row converts or all its requests are skipped. -/
def submitsNothing (outcomeAt : Option String → BatchOutcome) (link : Link PendingTransaction) :
    Bool :=
  (convertible ⟨link.rows, link.next⟩).isEmpty || outcomeAt link.cursor = .skipped

/-- The platform serves the chain unchanged, and each page's batch has its outcome. -/
def serves (chain : PageChain PendingTransaction) (outcomeAt : Option String → BatchOutcome)
    (at_ : State × List Shown) : Event → Prop
  | .reply send _ => ∃ link ∈ chain.links, link.cursor = at_.1.cursor ∧
      executeQuery send none = .ok (some ⟨link.rows, link.next⟩)
  | .ack outcome _ => (∃ next, at_.1.phase = .sent next) → outcome = outcomeAt at_.1.cursor
  | _ => True

def walker (s : State) : Walker where
  stage := s.phase.stage
  cursor := s.cursor
  next := match s.phase with
    | .sent nextCursor => nextCursor
    | _ => none
  empties := s.unproductivePages

section Chain

variable {chain : PageChain PendingTransaction} {outcomeAt : Option String → BatchOutcome}

theorem backoff_walk {v : Walker} (ending : Ending chain stops v) {s : State} (cursor : s.cursor = none)
    (unproductive : s.unproductivePages = 0) {seen : List Shown} (quiet : Quiet seen) :
    WalkMove chain stops (submitsNothing outcomeAt) v (backoff s seen).2
      (walker (backoff s seen).1) :=
  .finish ending quiet (.inr ⟨s.failureCount, rfl, rfl⟩) cursor unproductive

theorem finishScanRetry_walk {v : Walker} (ending : Ending chain stops v) {s : State}
    (cursor : s.cursor = none) (unproductive : s.unproductivePages = 0) {seen : List Shown}
    (quiet : Quiet seen) (deferred : Bool) :
    WalkMove chain stops (submitsNothing outcomeAt) v (finishScanRetry s deferred seen).2
      (walker (finishScanRetry s deferred seen).1) := by
  unfold finishScanRetry
  split
  · exact backoff_walk ending cursor unproductive quiet
  · exact .finish ending quiet (.inl ⟨rfl, .inl rfl⟩) cursor unproductive

theorem endScan_walk {v : Walker} (asking : v.stage = .asking) (ending : Ending chain stops v) {s : State}
    (cursor : s.cursor = none) (unproductive : s.unproductivePages = 0) {seen : Shown}
    (quiet : Quiet [seen]) (fresh deferred : Bool) :
    WalkMove chain stops (submitsNothing outcomeAt) v (endScan s fresh deferred seen).2
      (walker (endScan s fresh deferred seen).1) := by
  unfold endScan
  dsimp only
  split
  · refine finishScanRetry_walk ending ?_ ?_ quiet _
    · exact cursor
    · exact unproductive
  · exact .finish ending (quiet_pair (quiet_single rfl rfl) quiet)
      (.inl ⟨rfl, .inr ⟨rfl, rfl, asking⟩⟩) cursor unproductive

theorem getPendingTransactions_link {send : Send (Option PendingPage)}
    {link : Link PendingTransaction} (member : link ∈ chain.links)
    (result : executeQuery send none = .ok (some ⟨link.rows, link.next⟩)) :
    shown send = .page (convertible ⟨link.rows, link.next⟩) link.next ∧
      getPendingTransactions send = if link.rows.isEmpty then .error noTransactionsMsg
        else .ok (convertible ⟨link.rows, link.next⟩, link.next) := by
  have kept : next ⟨link.rows, link.next⟩ = link.next := chain.next_kept member
  constructor
  · rw [shown, result]
    dsimp only
    rw [kept]
  · rw [getPendingTransactions, result]
    dsimp only
    rw [kept]

theorem onReply_walk {s : State} {fresh : Bool} (phase : s.phase = .lookup fresh)
    {send : Send (Option PendingPage)} {link : Link PendingTransaction}
    {done todo : List (Link PendingTransaction)}
    (at_ : At chain stops (submitsNothing outcomeAt) maxConsecutiveEmptyPages done link todo
      (walker s))
    (result : executeQuery send none = .ok (some ⟨link.rows, link.next⟩)) (deferred : Bool) :
    WalkMove chain stops (submitsNothing outcomeAt) (walker s) (onReply s fresh deferred send).2
      (walker (onReply s fresh deferred send).1) := by
  have member : link ∈ chain.links := by
    rw [at_.split_]
    simp
  have asking : (walker s).stage = .asking := by
    rw [walker, phase]
    rfl
  have ending : stops link = true → Ending chain stops (walker s) :=
    fun stop => .inl ⟨asking, link, member, at_.cursor.symm, stop⟩
  obtain ⟨shows, read⟩ := getPendingTransactions_link member result
  have quiet : Quiet [shown send] := by
    rw [shows]
    exact quiet_single rfl rfl
  unfold onReply
  rw [read]
  by_cases empty : link.rows.isEmpty = true
  · rw [if_pos empty]
    dsimp only
    rw [onError, if_pos rfl]
    exact endScan_walk asking (ending (by simp [stops, empty])) rfl rfl quiet fresh deferred
  · rw [if_neg empty]
    dsimp only
    unfold onPage
    split
    · rename_i bare
      split
      · rename_i drain
        obtain ⟨c, found, -⟩ := shouldContinueEmptyDrain_iff.mp drain
        exact .drain asking member at_.cursor.symm (by simp [stops, found, empty])
          (by rw [submitsNothing, bare, Bool.true_or]) quiet rfl rfl (by rw [found]; rfl) rfl
      · rename_i refused
        cases more : link.next with
        | none => exact endScan_walk asking (ending (by simp [stops, more])) rfl rfl quiet fresh deferred
        | some c =>
          have drain := drains at_ (by rw [submitsNothing, bare, Bool.true_or]) more
          exact absurd drain refused
    · have stop : stops link = link.next.isNone := by simp [stops, empty]
      have both : ∀ requests idle, Quiet [.tick requests idle, shown send] :=
        fun _ _ => quiet_pair (quiet_single rfl rfl) quiet
      dsimp only
      split <;> exact .hold asking member at_.cursor.symm stop (both _ _) rfl rfl rfl (le_refl _)

theorem onOutcome_walk {s : State} {nextCursor : Option String} (phase : s.phase = .sent nextCursor)
    (more : ∀ c, nextCursor = some c → ∃ done link todo,
      At chain stops (submitsNothing outcomeAt) maxConsecutiveEmptyPages done link todo (walker s) ∧
        link.next = some c)
    {outcome : BatchOutcome} (mine : outcome = outcomeAt s.cursor)
    (fine : outcome ≠ .submissionFailed) (deferred : Bool) :
    WalkMove chain stops (submitsNothing outcomeAt) (walker s)
      (onOutcome s nextCursor deferred outcome).2
      (walker (onOutcome s nextCursor deferred outcome).1) := by
  have sent : (walker s).stage = .sent := by
    rw [walker, phase]
    rfl
  have held : (walker s).next = nextCursor := by simp only [walker, phase]
  have quiet : Quiet [(.outcome outcome : Shown)] := quiet_single rfl rfl
  have skips : ∀ link : Link PendingTransaction, (walker s).cursor = link.cursor →
      outcome = .skipped → submitsNothing outcomeAt link = true := by
    intro link cursor skipped
    have here : outcomeAt link.cursor = .skipped := by
      rw [← cursor]
      exact mine.symm.trans skipped
    simp [submitsNothing, here]
  unfold onOutcome
  split
  · rename_i cursor madeProgress requiresFreshRetry decided
    obtain ⟨rfl, -, -, progress, passes⟩ := batchStep_continue decided
    dsimp only
    split
    · rename_i last
      have none_ : cursor = none := by simpa using last
      have made : madeProgress = true := by
        rw [progress, decide_eq_true_iff]
        intro skipped
        have some_ := passes skipped
        rw [none_] at some_
        cases some_
      refine finishScanRetry_walk (.inr ⟨sent, held.trans none_⟩) none_ ?_ quiet deferred
      rw [if_pos made]
    · rename_i goes
      obtain ⟨c, some_⟩ : ∃ c, cursor = some c :=
        Option.isSome_iff_exists.mp (by simpa [Option.isSome_iff_ne_none] using goes)
      obtain ⟨done, link, todo, at_, next⟩ := more c some_
      have member : link ∈ chain.links := by
        rw [at_.split_]
        simp
      refine .follow sent member at_.cursor.symm (by rw [held, some_]; rfl) quiet rfl held.symm ?_
      rw [progress]
      by_cases skipped : outcome = .skipped
      · simp [skipped, skips link at_.cursor skipped, walker]
      · simp [skipped, walker]
  · rename_i decided
    have skipped : outcome = .skipped := by
      cases outcome with
      | skipped => rfl
      | completed => cases decided
      | partialProgress => cases decided
      | submissionFailed => exact absurd rfl fine
    have last : nextCursor = none := by
      by_contra some_
      obtain ⟨c, following⟩ := Option.ne_none_iff_exists'.mp some_
      obtain ⟨done, link, todo, at_, next⟩ := more c following
      have drain : shouldContinueEmptyDrain s.cursor link.next s.unproductivePages = true :=
        drains at_ (skips link at_.cursor skipped) next
      rw [next, ← following] at drain
      rw [skipped, batchStep, if_pos drain] at decided
      cases decided
    exact backoff_walk (.inr ⟨sent, held.trans last⟩) rfl rfl quiet

theorem step_walk (fine : ∀ cursor, outcomeAt cursor ≠ .submissionFailed) {s t : State}
    {trace os : List Shown} {e : Event} (sane : Sane s) (served : serves chain outcomeAt (s, trace) e)
    (walking : ∃ n, Walking chain stops (submitsNothing outcomeAt) maxConsecutiveEmptyPages n
      (walker s) trace)
    (h : step s e = some (t, os)) :
    WalkMove chain stops (submitsNothing outcomeAt) (walker s) os (walker t) := by
  obtain ⟨n, walking⟩ := walking
  cases step_cases h with
  | go phase _ =>
    have stage : (walker s).stage = .head := by rw [walker, phase]; rfl
    exact .go stage rfl ⟨rfl, rfl⟩
  | park phase off =>
    have stage : (walker s).stage = .head := by rw [walker, phase]; rfl
    simp only [Sane, phase] at sane
    exact .park stage (sane.1 off) rfl ⟨rfl, rfl⟩
  | wake phase =>
    have stage : (walker s).stage = .idle := by rw [walker, phase]; rfl
    exact .wake stage rfl ⟨rfl, rfl⟩
  | begin phase =>
    have stage : (walker s).stage = .ready := by rw [walker, phase]; rfl
    exact .ask stage rfl ⟨rfl, rfl⟩
  | reply send deferred fresh phase same =>
    obtain ⟨link, member, cursor, result⟩ := served
    have stage : (walker s).stage = .asking := by rw [walker, phase]; rfl
    obtain ⟨done, here, todo, at_, -, -⟩ := walking.at_asking stage
    obtain rfl := at_.link_eq member cursor
    have move := onReply_walk phase at_ result deferred
    rw [same] at move
    exact move
  | ack outcome deferred nextCursor phase same =>
    have stage : (walker s).stage = .sent := by rw [walker, phase]; rfl
    have held : (walker s).next = nextCursor := by simp only [walker, phase]
    have mine : outcome = outcomeAt s.cursor := served ⟨nextCursor, phase⟩
    have more : ∀ c, nextCursor = some c → ∃ done link todo,
        At chain stops (submitsNothing outcomeAt) maxConsecutiveEmptyPages done link todo
          (walker s) ∧ link.next = some c := by
      intro c some_
      rcases walking.at_sent stage with ⟨done, here, todo, at_, next, -, -, -⟩ | ⟨ended, -⟩
      · exact ⟨done, here, todo, at_, next.symm.trans (held.trans some_)⟩
      · have last := ended.last stage
        rw [held, some_] at last
        cases last
    have move := onOutcome_walk phase more mine (by rw [mine]; exact fine _) deferred
    rw [same] at move
    exact move
  | idleAck outcome deferred fresh phase same =>
    have stage : (walker s).stage = .sent := by rw [walker, phase]; rfl
    have last : (walker s).next = none := by simp only [walker, phase]
    have ended := sane.idleSent phase
    have nothing : Quiet ([] : List Shown) := fun _ member => absurd member List.not_mem_nil
    have ending : Ending chain stops (walker s) := .inr ⟨stage, last⟩
    have move : WalkMove chain stops (submitsNothing outcomeAt) (walker s) _ _ :=
      finishScanRetry_walk ending ended.1 ended.2 nothing (!fresh && deferred)
    rw [same] at move
    exact move
  | gone phase => exact .leave rfl
  | resume phase =>
    have stage : (walker s).stage = .backoff := by rw [walker, phase]; rfl
    exact .resume stage rfl ⟨rfl, rfl⟩

theorem finishScanRetry_stays (s : State) (deferred : Bool) (seen : List Shown) :
    (finishScanRetry s deferred seen).1.phase ≠ .exited := by
  unfold finishScanRetry
  split <;> simp [backoff]

theorem endScan_stays (s : State) (fresh deferred : Bool) (seen : Shown) :
    (endScan s fresh deferred seen).1.phase ≠ .exited := by
  unfold endScan
  dsimp only
  split
  · exact finishScanRetry_stays _ _ _
  · simp

theorem onReply_stays (s : State) (fresh deferred : Bool) (send : Send (Option PendingPage)) :
    (onReply s fresh deferred send).1.phase ≠ .exited := by
  unfold onReply
  split
  · unfold onPage
    split
    · split
      · simp
      · exact endScan_stays _ _ _ _
    · dsimp only
      split <;> simp [completeChainScan]
  · unfold onError
    dsimp only
    split
    · exact endScan_stays _ _ _ _
    · simp [backoff]

theorem onOutcome_stays (s : State) (nextCursor : Option String) (deferred : Bool)
    (outcome : BatchOutcome) : (onOutcome s nextCursor deferred outcome).1.phase ≠ .exited := by
  unfold onOutcome
  split
  · dsimp only
    split
    · exact finishScanRetry_stays _ _ _
    · simp
  · simp [backoff]

theorem stage_stays {phase : Phase} (h : phase ≠ .exited) : phase.stage ≠ .gone := by
  cases phase <;> first | exact absurd rfl h | simp [Phase.stage]

theorem served_alive {s : State} {trace : List Shown}
    (walking : ∃ n, Walking chain stops (submitsNothing outcomeAt) maxConsecutiveEmptyPages n
      (walker s) trace) (runs : (walker s).stage ≠ .gone) :
    ∃ e t os, serves chain outcomeAt (s, trace) e ∧ step s e = some (t, os) ∧
      (walker t).stage ≠ .gone := by
  obtain ⟨n, walking⟩ := walking
  cases phase : s.phase with
  | loopHead =>
    cases fetch : s.fetchNow with
    | true => exact ⟨.start, _, _, trivial, by simp only [step, phase, fetch]; rfl, by simp [walker, Phase.stage]⟩
    | false => exact ⟨.start, _, _, trivial, by simp only [step, phase, fetch]; rfl, by simp [walker, Phase.stage]⟩
  | idleWait => exact ⟨.wake, _, _, trivial, by simp only [step, phase]; rfl, by simp [walker, Phase.stage]⟩
  | ready => exact ⟨.begin, _, _, trivial, by simp only [step, phase]; rfl, by simp [walker, Phase.stage]⟩
  | lookup fresh =>
    have stage : (walker s).stage = .asking := by rw [walker, phase]; rfl
    obtain ⟨done, here, todo, at_, -, -⟩ := walking.at_asking stage
    refine ⟨.reply (answers (some ⟨here.rows, here.next⟩)) false, _, _,
      ⟨here, by rw [at_.split_]; simp, at_.cursor.symm, rfl⟩, by simp only [step, phase]; rfl, ?_⟩
    exact stage_stays (onReply_stays _ _ _ _)
  | sent nextCursor =>
    refine ⟨.ack (outcomeAt s.cursor) false, _, _, fun _ => rfl, by simp only [step, phase]; rfl, ?_⟩
    exact stage_stays (onOutcome_stays _ _ _ _)
  | idleSent fresh =>
    refine ⟨.ack .completed false, _, _, ?_, by simp only [step, phase]; rfl, ?_⟩
    · rintro ⟨next, sent⟩
      simp [phase] at sent
    · exact stage_stays (finishScanRetry_stays _ _ _)
  | retryWait => exact ⟨.delayOver, _, _, trivial, by simp only [step, phase]; rfl, by simp [walker, Phase.stage]⟩
  | exited => exact absurd (by rw [walker, phase]; rfl) runs

theorem sane_path {es : List Event} {reached : State × List Shown}
    (path : Path (traced step) (initial, []) es reached) : Sane reached.1 := by
  refine path.invariant (I := fun at_ => Sane at_.1) ?_ sane_initial
  rintro at_ e t sane ⟨os, stepped, -⟩
  exact step_sane sane stepped

theorem scan_walks (fine : ∀ cursor, outcomeAt cursor ≠ .submissionFailed)
    (sparse : Sparse maxConsecutiveEmptyPages (submitsNothing outcomeAt) 0 chain.links)
    {es : List Event} {s : State} {before : List Shown}
    (path : Path (traced step) (initial, []) es (s, before)) (asked : s.phase = .lookup true) :
    Walks (serves chain outcomeAt) step walker (trail (upTo stops chain.links)) s := by
  have sane := sane_path path
  have fresh : s.cursor.isNone = true ∧ (s.cursor = none → s.unproductivePages = 0) := by
    simpa only [Sane, asked] using sane
  have none_ : s.cursor = none := by simpa using fresh.1
  have moves : ∀ (at_ : State × List Shown) (e : Event) (t : State) (os : List Shown),
      Sane at_.1 → serves chain outcomeAt at_ e →
      (∃ n, Walking chain stops (submitsNothing outcomeAt) maxConsecutiveEmptyPages n
        (walker at_.1) at_.2) →
      step at_.1 e = some (t, os) →
      WalkMove chain stops (submitsNothing outcomeAt) (walker at_.1) os (walker t) ∧ Sane t :=
    fun _ _ _ _ sane served walking h => ⟨step_walk fine sane served walking h, step_sane sane h⟩
  have alive : ∀ at_ : State × List Shown, Sane at_.1 →
      (∃ n, Walking chain stops (submitsNothing outcomeAt) maxConsecutiveEmptyPages n
        (walker at_.1) at_.2) → (walker at_.1).stage ≠ .gone →
      ∃ e t os, serves chain outcomeAt at_ e ∧ step at_.1 e = some (t, os) ∧
        (walker t).stage ≠ .gone :=
    fun _ _ walking runs => served_alive walking runs
  exact walks sparse moves alive sane (by rw [walker, asked]; rfl) none_ (fresh.2 none_)

/-- A scan requests every page exactly when no page but the last is without rows. -/
theorem scan_walks_whole_iff (fine : ∀ cursor, outcomeAt cursor ≠ .submissionFailed)
    (sparse : Sparse maxConsecutiveEmptyPages (submitsNothing outcomeAt) 0 chain.links)
    {es : List Event} {s : State} {before : List Shown}
    (path : Path (traced step) (initial, []) es (s, before)) (asked : s.phase = .lookup true) :
    Walks (serves chain outcomeAt) step walker (trail chain.links) s ↔
      ∀ link ∈ chain.links, link.next.isSome = true → link.rows ≠ [] := by
  have walked := scan_walks fine sparse path asked
  constructor
  · intro whole link member more empty
    have runs : (walker s).stage ≠ .gone := stage_stays (by simp [asked])
    have lengths := congrArg List.length (walked.unique runs whole)
    simp only [trail, List.length_reverse, List.length_map] at lengths
    have goes := chain.stops_of_upTo lengths member more
    simp [stops, empty] at goes
  · intro rows
    have last : ∀ link ∈ chain.links, stops link = link.next.isNone := by
      intro link member
      cases more : link.next with
      | none => simp [stops, more]
      | some c =>
        have some_ := rows link member (by rw [more]; rfl)
        simp [stops, more, some_]
    rwa [chain.upTo_links last] at walked

end Chain

end TransactionPoller

namespace WalletPoller

/-- The poller stops at the last page only. -/
def stops (link : Link ManagedWallet) : Bool := link.next.isNone

/-- A page submits nothing when no row converts. -/
def submitsNothing (link : Link ManagedWallet) : Bool :=
  (convertible ⟨link.rows, link.next⟩).isEmpty

/-- The platform serves the chain unchanged and takes every batch. -/
def serves (chain : PageChain ManagedWallet) (at_ : State × List Shown) : Event → Prop
  | .reply send _ => ∃ link ∈ chain.links, link.cursor = at_.1.cursor ∧
      executeQuery send none = .ok (some ⟨link.rows, link.next⟩)
  | .ack outcome _ => outcome = .completed
  | _ => True

def walker (s : State) : Walker where
  stage := s.phase.stage
  cursor := s.cursor
  next := match s.phase with
    | .sent nextCursor => nextCursor
    | _ => none
  empties := s.emptyPages

/-- Between two scans there is no cursor, and no empty page is counted. -/
def Sane (s : State) : Prop :=
  match s.phase with
  | .loopHead => (s.fetchNow = false → s.cursor = none) ∧ (s.cursor = none → s.emptyPages = 0)
  | .idleWait => s.cursor = none ∧ s.emptyPages = 0
  | .lookup fresh => s.cursor.isNone = fresh ∧ (s.cursor = none → s.emptyPages = 0)
  | .sent _ => s.emptyPages = 0
  | .retryWait => s.fetchNow = true ∧ (s.cursor = none → s.emptyPages = 0)
  | .ready => s.cursor = none → s.emptyPages = 0
  | .exited => True

theorem sane_initial : Sane initial := ⟨fun _ => rfl, fun _ => rfl⟩

theorem applyStep_sane {s : State} (empties : s.emptyPages = 0) {wallet : WalletStep}
    (fetches : ∀ cursor restart reset fetch, wallet = .continue cursor restart reset fetch →
      fetch = false → cursor = none) (seen : List Shown) : Sane (applyStep s wallet seen).1 := by
  cases wallet with
  | «continue» cursor restart reset fetch =>
    exact ⟨fetches cursor restart reset fetch rfl, fun _ => empties⟩
  | delayThenFetch cursor restart reason => exact ⟨rfl, fun _ => empties⟩

theorem onReply_sane (s : State) (fresh deferred : Bool) (send : Send (Option PendingPage)) :
    Sane (onReply s fresh deferred send).1 := by
  unfold onReply
  split
  · unfold onPage
    split
    · split
      · rename_i drain
        obtain ⟨next, found, -⟩ := shouldContinueEmptyDrain_iff.mp drain
        simp [Sane, found]
      · refine applyStep_sane rfl ?_ _
        intro cursor restart reset fetch same _
        unfold emptyScanStep at same
        split at same <;> cases same
        rfl
    · rfl
  · exact applyStep_sane rfl (fun _ _ _ _ same => by cases same) _

theorem onOutcome_sane {s : State} (empties : s.emptyPages = 0) (nextCursor : Option String)
    (deferred : Bool) (outcome : BatchOutcome) :
    Sane (applyStep s (walletStep outcome nextCursor s.restartAfterScan deferred)
      [.outcome outcome]).1 := by
  refine applyStep_sane empties ?_ _
  intro cursor restart reset fetch same off
  unfold walletStep at same
  cases outcome with
  | completed =>
    dsimp only at same
    split at same <;> cases same
    cases nextCursor with
    | none => rfl
    | some _ => cases off
  | submissionFailed => cases same

theorem step_sane {s t : State} {e : Event} {os : List Shown} (sane : Sane s)
    (h : step s e = some (t, os)) : Sane t := by
  cases step_cases h with
  | go phase _ =>
    simp only [Sane, phase] at sane
    exact sane.2
  | park phase off =>
    simp only [Sane, phase] at sane
    have none_ := sane.1 off
    exact ⟨none_, sane.2 none_⟩
  | wake phase =>
    simp only [Sane, phase] at sane
    exact fun _ => sane.2
  | begin phase =>
    simp only [Sane, phase] at sane
    exact ⟨rfl, sane⟩
  | reply send deferred fresh phase same =>
    rw [← show _ = t from congrArg Prod.fst same]
    exact onReply_sane _ _ _ _
  | ack outcome deferred nextCursor phase same =>
    simp only [Sane, phase] at sane
    rw [← show _ = t from congrArg Prod.fst same]
    exact onOutcome_sane sane _ _ _
  | gone nextCursor phase => exact True.intro
  | resume phase =>
    simp only [Sane, phase] at sane
    refine ⟨fun off => ?_, sane.2⟩
    rw [sane.1] at off
    cases off

section Chain

variable {chain : PageChain ManagedWallet}

theorem getPendingWallets_link {send : Send (Option PendingPage)} {link : Link ManagedWallet}
    (member : link ∈ chain.links)
    (result : executeQuery send none = .ok (some ⟨link.rows, link.next⟩)) :
    shown send = .page (convertible ⟨link.rows, link.next⟩) link.next ∧
      getPendingWallets send = .ok (convertible ⟨link.rows, link.next⟩, link.next) := by
  have kept : next ⟨link.rows, link.next⟩ = link.next := chain.next_kept member
  constructor
  · rw [shown, result]
    dsimp only
    rw [kept]
  · rw [getPendingWallets, result]
    dsimp only
    rw [kept]

theorem onReply_walk {s : State} {fresh : Bool} (phase : s.phase = .lookup fresh)
    {send : Send (Option PendingPage)} {link : Link ManagedWallet}
    {done todo : List (Link ManagedWallet)}
    (at_ : At chain stops submitsNothing maxConsecutiveEmptyPages done link todo (walker s))
    (result : executeQuery send none = .ok (some ⟨link.rows, link.next⟩)) (deferred : Bool) :
    WalkMove chain stops submitsNothing (walker s) (onReply s fresh deferred send).2
      (walker (onReply s fresh deferred send).1) := by
  have member : link ∈ chain.links := by
    rw [at_.split_]
    simp
  have asking : (walker s).stage = .asking := by
    rw [walker, phase]
    rfl
  obtain ⟨shows, read⟩ := getPendingWallets_link member result
  have quiet : Quiet [shown send] := by
    rw [shows]
    exact quiet_single rfl rfl
  unfold onReply
  rw [read]
  dsimp only
  unfold onPage
  split
  · rename_i bare
    split
    · rename_i drain
      obtain ⟨c, found, -⟩ := shouldContinueEmptyDrain_iff.mp drain
      exact .drain asking member at_.cursor.symm (by simp [stops, found]) bare quiet rfl rfl
        (by rw [found]; rfl) rfl
    · rename_i refused
      have last : stops link = true := by
        rw [stops, Option.isNone_iff_eq_none]
        by_contra some_
        obtain ⟨c, more⟩ := Option.ne_none_iff_exists'.mp some_
        exact refused (drains at_ bare more)
      have ending : Ending chain stops (walker s) :=
        .inl ⟨asking, link, member, at_.cursor.symm, last⟩
      dsimp only
      unfold emptyScanStep
      split
      · exact .finish ending quiet (.inr ⟨s.failureCount, rfl, rfl⟩) rfl rfl
      · exact .finish ending quiet (.inl ⟨rfl, .inl rfl⟩) rfl rfl
  · exact .hold asking member at_.cursor.symm rfl (quiet_pair (quiet_single rfl rfl) quiet) rfl rfl rfl
      (Nat.zero_le _)

theorem onOutcome_walk {s : State} {nextCursor : Option String} (phase : s.phase = .sent nextCursor)
    (empties : s.emptyPages = 0)
    (more : nextCursor.isSome = true → ∃ link ∈ chain.links, link.cursor = s.cursor)
    (deferred : Bool) :
    WalkMove chain stops submitsNothing (walker s)
      (applyStep s (walletStep .completed nextCursor s.restartAfterScan deferred)
        [.outcome .completed]).2
      (walker (applyStep s (walletStep .completed nextCursor s.restartAfterScan deferred)
        [.outcome .completed]).1) := by
  have sent : (walker s).stage = .sent := by
    rw [walker, phase]
    rfl
  have held : (walker s).next = nextCursor := by simp only [walker, phase]
  have quiet : Quiet [(.outcome .completed : Shown)] := quiet_single rfl rfl
  cases nextCursor with
  | none =>
    unfold walletStep
    dsimp only
    split
    · exact .finish (.inr ⟨sent, held⟩) quiet (.inr ⟨s.failureCount, rfl, rfl⟩) rfl empties
    · exact .finish (.inr ⟨sent, held⟩) quiet (.inl ⟨rfl, .inl rfl⟩) rfl empties
  | some c =>
    obtain ⟨link, member, cursor⟩ := more rfl
    refine .follow sent member cursor (by rw [held]; rfl) quiet rfl held.symm ?_
    have none_ : (walker (applyStep s (walletStep .completed (some c) s.restartAfterScan deferred)
      [.outcome .completed]).1).empties = 0 := empties
    rw [none_]
    exact Nat.zero_le _

theorem step_walk {s t : State} {trace os : List Shown} {e : Event} (sane : Sane s)
    (served : serves chain (s, trace) e)
    (walking : ∃ n, Walking chain stops submitsNothing maxConsecutiveEmptyPages n (walker s) trace)
    (h : step s e = some (t, os)) :
    WalkMove chain stops submitsNothing (walker s) os (walker t) := by
  obtain ⟨n, walking⟩ := walking
  cases step_cases h with
  | go phase _ =>
    have stage : (walker s).stage = .head := by rw [walker, phase]; rfl
    exact .go stage rfl ⟨rfl, rfl⟩
  | park phase off =>
    have stage : (walker s).stage = .head := by rw [walker, phase]; rfl
    simp only [Sane, phase] at sane
    exact .park stage (sane.1 off) rfl ⟨rfl, rfl⟩
  | wake phase =>
    have stage : (walker s).stage = .idle := by rw [walker, phase]; rfl
    exact .wake stage rfl ⟨rfl, rfl⟩
  | begin phase =>
    have stage : (walker s).stage = .ready := by rw [walker, phase]; rfl
    exact .ask stage rfl ⟨rfl, rfl⟩
  | reply send deferred fresh phase same =>
    obtain ⟨link, member, cursor, result⟩ := served
    have stage : (walker s).stage = .asking := by rw [walker, phase]; rfl
    obtain ⟨done, here, todo, at_, -, -⟩ := walking.at_asking stage
    obtain rfl := at_.link_eq member cursor
    have move := onReply_walk phase at_ result deferred
    rw [same] at move
    exact move
  | ack outcome deferred nextCursor phase same =>
    obtain rfl : outcome = .completed := served
    have stage : (walker s).stage = .sent := by rw [walker, phase]; rfl
    have held : (walker s).next = nextCursor := by simp only [walker, phase]
    simp only [Sane, phase] at sane
    have more : nextCursor.isSome = true → ∃ link ∈ chain.links, link.cursor = s.cursor := by
      intro some_
      rcases walking.at_sent stage with ⟨done, here, todo, at_, -⟩ | ⟨ended, -⟩
      · exact ⟨here, by rw [at_.split_]; simp, at_.cursor.symm⟩
      · rw [← held, ended.last stage] at some_
        cases some_
    have move := onOutcome_walk phase sane more deferred
    rw [same] at move
    exact move
  | gone nextCursor phase => exact .leave rfl
  | resume phase =>
    have stage : (walker s).stage = .backoff := by rw [walker, phase]; rfl
    exact .resume stage rfl ⟨rfl, rfl⟩

theorem applyStep_stays (s : State) (wallet : WalletStep) (seen : List Shown) :
    (applyStep s wallet seen).1.phase ≠ .exited := by
  cases wallet <;> simp [applyStep]

theorem onReply_stays (s : State) (fresh deferred : Bool) (send : Send (Option PendingPage)) :
    (onReply s fresh deferred send).1.phase ≠ .exited := by
  unfold onReply
  split
  · unfold onPage
    split
    · split
      · simp
      · exact applyStep_stays _ _ _
    · simp
  · exact applyStep_stays _ _ _

theorem stage_stays {phase : Phase} (h : phase ≠ .exited) : phase.stage ≠ .gone := by
  cases phase <;> first | exact absurd rfl h | simp [Phase.stage]

theorem served_alive {s : State} {trace : List Shown}
    (walking : ∃ n, Walking chain stops submitsNothing maxConsecutiveEmptyPages n (walker s) trace)
    (runs : (walker s).stage ≠ .gone) :
    ∃ e t os, serves chain (s, trace) e ∧ step s e = some (t, os) ∧ (walker t).stage ≠ .gone := by
  obtain ⟨n, walking⟩ := walking
  cases phase : s.phase with
  | loopHead =>
    cases fetch : s.fetchNow with
    | true =>
      exact ⟨.start, _, _, trivial, by simp only [step, phase, fetch]; rfl, by simp [walker, Phase.stage]⟩
    | false =>
      exact ⟨.start, _, _, trivial, by simp only [step, phase, fetch]; rfl, by simp [walker, Phase.stage]⟩
  | idleWait =>
    exact ⟨.wake, _, _, trivial, by simp only [step, phase]; rfl, by simp [walker, Phase.stage]⟩
  | ready =>
    exact ⟨.begin, _, _, trivial, by simp only [step, phase]; rfl, by simp [walker, Phase.stage]⟩
  | lookup fresh =>
    have stage : (walker s).stage = .asking := by rw [walker, phase]; rfl
    obtain ⟨done, here, todo, at_, -, -⟩ := walking.at_asking stage
    have goes : step s (.reply (answers (some ⟨here.rows, here.next⟩)) false) =
        some (onReply s fresh false (answers (some ⟨here.rows, here.next⟩))) := by
      simp only [step, phase]
    have stays := stage_stays
      (onReply_stays s fresh false (answers (some ⟨here.rows, here.next⟩)))
    generalize onReply s fresh false (answers (some ⟨here.rows, here.next⟩)) = result at goes stays
    exact ⟨.reply (answers (some ⟨here.rows, here.next⟩)) false, result.1, result.2,
      ⟨here, by rw [at_.split_]; simp, at_.cursor.symm, rfl⟩, goes, stays⟩
  | sent nextCursor =>
    refine ⟨.ack .completed false, _, _, rfl, by simp only [step, phase]; rfl, ?_⟩
    exact stage_stays (applyStep_stays _ _ _)
  | retryWait =>
    exact ⟨.delayOver, _, _, trivial, by simp only [step, phase]; rfl, by simp [walker, Phase.stage]⟩
  | exited => exact absurd (by rw [walker, phase]; rfl) runs

theorem sane_path {es : List Event} {reached : State × List Shown}
    (path : Path (traced step) (initial, []) es reached) : Sane reached.1 := by
  refine path.invariant (I := fun at_ => Sane at_.1) ?_ sane_initial
  rintro at_ e t sane ⟨os, stepped, -⟩
  exact step_sane sane stepped

theorem scan_walks (sparse : Sparse maxConsecutiveEmptyPages submitsNothing 0 chain.links)
    {es : List Event} {s : State} {before : List Shown}
    (path : Path (traced step) (initial, []) es (s, before)) (asked : s.phase = .lookup true) :
    Walks (serves chain) step walker (trail chain.links) s := by
  have sane := sane_path path
  have fresh : s.cursor.isNone = true ∧ (s.cursor = none → s.emptyPages = 0) := by
    simpa only [Sane, asked] using sane
  have none_ : s.cursor = none := by simpa using fresh.1
  have moves : ∀ (at_ : State × List Shown) (e : Event) (t : State) (os : List Shown),
      Sane at_.1 → serves chain at_ e →
      (∃ n, Walking chain stops submitsNothing maxConsecutiveEmptyPages n (walker at_.1) at_.2) →
      step at_.1 e = some (t, os) →
      WalkMove chain stops submitsNothing (walker at_.1) os (walker t) ∧ Sane t :=
    fun _ _ _ _ sane served walking h => ⟨step_walk sane served walking h, step_sane sane h⟩
  have alive : ∀ at_ : State × List Shown, Sane at_.1 →
      (∃ n, Walking chain stops submitsNothing maxConsecutiveEmptyPages n (walker at_.1) at_.2) →
      (walker at_.1).stage ≠ .gone →
      ∃ e t os, serves chain at_ e ∧ step at_.1 e = some (t, os) ∧ (walker t).stage ≠ .gone :=
    fun _ _ walking runs => served_alive walking runs
  have walked := walks sparse moves alive sane (by rw [walker, asked]; rfl) none_ (fresh.2 none_)
  have last : ∀ link ∈ chain.links, stops link = link.next.isNone := fun _ _ => rfl
  rwa [chain.upTo_links last] at walked

end Chain

end WalletPoller

/-- Every scan of the managed-wallet poller requests every page of the chain, and
every scan of the transaction poller does exactly when no page but the last is
without rows. -/
theorem scans_request_every_page (chain : PageChain PendingTransaction)
    (outcomeAt : Option String → BatchOutcome)
    (fine : ∀ cursor, outcomeAt cursor ≠ .submissionFailed)
    (sparse : Sparse maxConsecutiveEmptyPages (TransactionPoller.submitsNothing outcomeAt) 0
      chain.links)
    (es : List TransactionPoller.Event) (s : TransactionPoller.State)
    (before : List TransactionPoller.Shown)
    (path : Path (traced TransactionPoller.step) (TransactionPoller.initial, []) es (s, before))
    (asked : s.phase = .lookup true)
    (walletChain : PageChain WalletPoller.ManagedWallet)
    (walletSparse : Sparse maxConsecutiveEmptyPages WalletPoller.submitsNothing 0
      walletChain.links)
    (fs : List WalletPoller.Event) (w : WalletPoller.State) (walletBefore : List WalletPoller.Shown)
    (walletPath : Path (traced WalletPoller.step) (WalletPoller.initial, []) fs (w, walletBefore))
    (walletAsked : w.phase = .lookup true) :
    (Walks (TransactionPoller.serves chain outcomeAt) TransactionPoller.step
        TransactionPoller.walker (trail chain.links) s ↔
      ∀ link ∈ chain.links, link.next.isSome = true → link.rows ≠ []) ∧
    Walks (WalletPoller.serves walletChain) WalletPoller.step WalletPoller.walker
      (trail walletChain.links) w :=
  ⟨TransactionPoller.scan_walks_whole_iff fine sparse path asked,
    WalletPoller.scan_walks walletSparse walletPath walletAsked⟩

section Chains

def transactionPages : PageChain PendingTransaction where
  first := [TransactionPoller.brokenRow "a" .matrix]
  rest := [("p2", [TransactionPoller.zeroRow "b" .matrix])]
  distinct := by decide
  nonempty := by decide

def walletPages : PageChain WalletPoller.ManagedWallet where
  first := []
  rest := [("p2", [⟨some "a"⟩])]
  distinct := by decide
  nonempty := by decide

/-- A page without rows before a page of a healthy row. -/
def hiddenPages : PageChain PendingTransaction :=
  { transactionPages with first := [] }

def firstLookup : TransactionPoller.State := { TransactionPoller.initial with phase := .lookup true }

/-- The first scan of either poller, on two pages. -/
theorem scans_request_every_page_two :
    ∃ w, w.phase = .lookup true ∧
      Walks (TransactionPoller.serves transactionPages fun _ => .completed) TransactionPoller.step
        TransactionPoller.walker [some "p2", none] firstLookup ∧
      Walks (WalletPoller.serves walletPages) WalletPoller.step WalletPoller.walker
        [some "p2", none] w := by
  have path : Path (traced TransactionPoller.step) (TransactionPoller.initial, [])
      [.start, .begin] (firstLookup, [.lookup none]) := Path.of_traced_run rfl
  have walletPath : Path (traced WalletPoller.step) (WalletPoller.initial, [])
      [.start, .begin] _ := Path.of_traced_run rfl
  have rows : ∀ link ∈ transactionPages.links, link.next.isSome = true → link.rows ≠ [] := by
    simp [PageChain.links, transactionPages, linksFrom]
  have both := scans_request_every_page transactionPages (fun _ => .completed)
    (fun _ => by decide)
    (by simp [PageChain.links, transactionPages, linksFrom, Sparse]; decide) _ _ _ path rfl
    walletPages (by simp [PageChain.links, walletPages, linksFrom, Sparse]; decide) _ _ _
    walletPath rfl
  exact ⟨_, rfl, both.1.mpr rows, both.2⟩

/-- The page behind a page without rows is not requested. -/
theorem scan_hides_page :
    ¬ ((∀ (chain : PageChain PendingTransaction) (outcomeAt : Option String → BatchOutcome),
      (∀ cursor, outcomeAt cursor ≠ .submissionFailed) →
      Sparse maxConsecutiveEmptyPages (TransactionPoller.submitsNothing outcomeAt) 0 chain.links →
      ∀ es s before,
        Path (traced TransactionPoller.step) (TransactionPoller.initial, []) es (s, before) →
        s.phase = .lookup true →
        Walks (TransactionPoller.serves chain outcomeAt) TransactionPoller.step
          TransactionPoller.walker (trail chain.links) s) ∧
    ∀ chain : PageChain WalletPoller.ManagedWallet,
      Sparse maxConsecutiveEmptyPages WalletPoller.submitsNothing 0 chain.links →
      ∀ es s before, Path (traced WalletPoller.step) (WalletPoller.initial, []) es (s, before) →
        s.phase = .lookup true →
        Walks (WalletPoller.serves chain) WalletPoller.step WalletPoller.walker
          (trail chain.links) s) := by
  rintro ⟨claim, -⟩
  have path : Path (traced TransactionPoller.step) (TransactionPoller.initial, [])
      [.start, .begin] (firstLookup, [.lookup none]) := Path.of_traced_run rfl
  have whole := claim hiddenPages (fun _ => .completed) (fun _ => by decide)
    (by simp [PageChain.links, hiddenPages, transactionPages, linksFrom, Sparse]; decide) _ _ _ path rfl
  have served : TransactionPoller.serves hiddenPages (fun _ => .completed) (firstLookup, [.lookup none])
      (.reply (answers (some ⟨[], some "p2"⟩)) false) :=
    ⟨⟨none, [], some "p2"⟩, by simp [PageChain.links, hiddenPages, transactionPages, linksFrom], rfl,
      rfl⟩
  have ended : gated (TransactionPoller.serves hiddenPages fun _ => .completed)
      (traced TransactionPoller.step) (firstLookup, [.lookup none])
      (.reply (answers (some ⟨[], some "p2"⟩)) false)
      ({ firstLookup with phase := .loopHead, fetchNow := false },
        [.page [] (some "p2"), .lookup none]) := ⟨served, _, rfl, rfl⟩
  have idle : gated (TransactionPoller.serves hiddenPages fun _ => .completed)
      (traced TransactionPoller.step) ({ firstLookup with phase := .loopHead, fetchNow := false },
        [.page [] (some "p2"), .lookup none]) .start
      ({ firstLookup with phase := .idleWait, fetchNow := false },
        [.idleWait, .page [] (some "p2"), .lookup none]) := ⟨trivial, _, rfl, rfl⟩
  have scan := (Path.single ended).snoc idle
  have idles := whole.whole _ _ scan _ _ (List.suffix_refl _)
  have lengths : 1 = 2 := congrArg List.length idles
  cases lengths

end Chains

end WalletDaemon
