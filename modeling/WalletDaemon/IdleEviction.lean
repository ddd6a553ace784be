import WalletDaemon.OwedWork

/-! When the transaction poller calls a chain idle.
A chain leaves the nonce cache only after a scan read to its last page without a
request of the chain. The poller also completes a scan that it gives up on while
its page has a next cursor; the chains it then calls idle are not justified. -/

namespace WalletDaemon.TransactionPoller

open Platform Transition Retry ScanLoop

/-- A page with no next cursor, or a reply with no result. -/
def isLast : Shown → Bool
  | .page _ none => true
  | .noResult => true
  | _ => false

/-- Chains with a convertible request on a page since the last fresh lookup. -/
def chainsSince : List Shown → Finset ChainKey
  | [] => ∅
  | .lookup none :: _ => ∅
  | .page requests _ :: earlier => chainKeys requests ∪ chainsSince earlier
  | _ :: earlier => chainsSince earlier

/-- Chains of the last scan that was read to its last page. -/
def completedChains : List Shown → Finset ChainKey
  | [] => ∅
  | o :: earlier => if isLast o then chainsSince (o :: earlier) else completedChains earlier

/-- How far a scan is: it waits for a reply, or it has a page and its next cursor. -/
inductive Reading
  | asked
  | read (next : Option String)

/-- The trace ends in a scan from a fresh lookup that followed every next cursor. -/
inductive Scan : List Shown → Reading → Prop
  | begin (earlier : List Shown) : Scan (.lookup none :: earlier) .asked
  | page {trace : List Shown} (requests : List TransactionRequest) (next : Option String) :
      Scan trace .asked → Scan (.page requests next :: trace) (.read next)
  | tick {trace : List Shown} {next : Option String} (requests : List TransactionRequest)
      (idle : Finset ChainKey) : Scan trace (.read next) →
      Scan (.tick requests idle :: trace) (.read next)
  | outcome {trace : List Shown} {next : Option String} {result : BatchOutcome} :
      result ≠ .submissionFailed → Scan trace (.read next) →
      Scan (.outcome result :: trace) (.read next)
  | follow {trace : List Shown} {cursor : String} : Scan trace (.read (some cursor)) →
      Scan (.lookup (some cursor) :: trace) .asked

/-- A chain is called idle right after the last page of a scan without it, when
the completed scan before that one had it. -/
def IdleJustified : Shown → List Shown → Prop
  | .tick _ idle, earlier => ∀ key ∈ idle, ∃ last past, earlier = last :: past ∧
      Scan past .asked ∧ isLast last = true ∧ key ∉ chainsSince earlier ∧ key ∈ completedChains past
  | _, _ => True

/-- The reply ends the scan although its page has a next cursor. -/
def Abandons (s : State) (send : Send (Option PendingPage)) : Prop :=
  HidesNext send ∨ ∃ nextCursor, getPendingTransactions send = .ok ([], some nextCursor) ∧
    shouldContinueEmptyDrain s.cursor (some nextCursor) s.unproductivePages = false

/-- A scan is given up on only where that changes no chain set. -/
def scansWhole (at_ : State × List Shown) (e : Event) : Prop :=
  ∀ send deferred, e = .reply send deferred → Abandons at_.1 send →
    at_.1.previousScanChains = at_.1.currentScanChains

def State.reading (s : State) : Option Reading :=
  match s.phase with
  | .lookup _ => some .asked
  | .sent (some cursor) => some (.read (some cursor))
  | .sent none => none
  | .idleSent _ => none
  | .idleWait => none
  | .retryWait => none
  | .exited => none
  | _ => s.cursor.map fun cursor => .read (some cursor)

structure Tracked (s : State) (trace : List Shown) : Prop where
  justified : Everywhere IdleJustified trace
  previous : s.previousScanChains = completedChains trace
  current : ∀ reading, s.reading = some reading →
    Scan trace reading ∧ s.currentScanChains = chainsSince trace

def Neutral (o : Shown) : Prop :=
  ∀ earlier, completedChains (o :: earlier) = completedChains earlier ∧ IdleJustified o earlier

theorem neutral_idleWait : Neutral .idleWait := fun _ => ⟨rfl, trivial⟩

theorem neutral_lookup (cursor : Option String) : Neutral (.lookup cursor) :=
  fun _ => ⟨rfl, trivial⟩

theorem tracked_cons {s t : State} {o : Shown} {trace : List Shown} (neutral : Neutral o)
    (h : Tracked s trace) (previous : t.previousScanChains = s.previousScanChains)
    (current : ∀ reading, t.reading = some reading →
      Scan (o :: trace) reading ∧ t.currentScanChains = chainsSince (o :: trace)) :
    Tracked t (o :: trace) where
  justified := everywhere_cons.mpr ⟨(neutral trace).2, h.justified⟩
  previous := by rw [previous, h.previous, (neutral trace).1]
  current := current

theorem tracked_silent {s t : State} {trace : List Shown} (h : Tracked s trace)
    (previous : t.previousScanChains = s.previousScanChains)
    (current : t.currentScanChains = s.currentScanChains) (reading : t.reading = s.reading) :
    Tracked t trace where
  justified := h.justified
  previous := by rw [previous, h.previous]
  current r at_ := by
    rw [current]
    exact h.current r (by rw [← reading]; exact at_)

theorem tracked_backoff {s : State} {seen trace : List Shown}
    (h : Everywhere IdleJustified (seen ++ trace))
    (previous : s.previousScanChains = completedChains (seen ++ trace)) :
    Tracked (backoff s seen).1 ((backoff s seen).2 ++ trace) where
  justified := everywhere_cons.mpr ⟨trivial, h⟩
  previous := previous
  current r at_ := by
    cases at_

theorem tracked_finishScanRetry {s : State} {seen trace : List Shown} (cursor : s.cursor = none)
    (h : Everywhere IdleJustified (seen ++ trace))
    (previous : s.previousScanChains = completedChains (seen ++ trace)) (deferred : Bool) :
    Tracked (finishScanRetry s deferred seen).1 ((finishScanRetry s deferred seen).2 ++ trace) := by
  unfold finishScanRetry
  split
  · exact tracked_backoff h previous
  · refine ⟨h, previous, fun r at_ => ?_⟩
    rw [State.reading] at at_
    simp [cursor] at at_

theorem tracked_endScan {s : State} {seen : Shown} {trace : List Shown} (cursor : s.cursor = none)
    (before : Everywhere IdleJustified trace) (kind : IdleJustified seen trace)
    (completes : s.currentScanChains = completedChains (seen :: trace))
    (idle : ∀ key ∈ idleChains s, isLast seen = true ∧ Scan trace .asked ∧
      key ∉ chainsSince (seen :: trace) ∧ key ∈ completedChains trace)
    (fresh deferred : Bool) :
    Tracked (endScan s fresh deferred seen).1 ((endScan s fresh deferred seen).2 ++ trace) := by
  have seen_ : Everywhere IdleJustified ([seen] ++ trace) := everywhere_cons.mpr ⟨kind, before⟩
  have previous : (completeChainScan s).previousScanChains = completedChains ([seen] ++ trace) :=
    completes
  unfold endScan
  dsimp only
  split
  · refine tracked_finishScanRetry ?_ seen_ previous _
    exact cursor
  · have justified : IdleJustified (.tick [] (idleChains s)) (seen :: trace) := by
      intro key member
      obtain ⟨last, scan, absent, present⟩ := idle key member
      exact ⟨seen, trace, rfl, scan, last, absent, present⟩
    exact ⟨everywhere_cons.mpr ⟨justified, seen_⟩, completes, fun r at_ => by cases at_⟩

theorem scan_of_lookup {s : State} {fresh : Bool} {trace : List Shown} (h : Tracked s trace)
    (phase : s.phase = .lookup fresh) :
    Scan trace .asked ∧ s.currentScanChains = chainsSince trace :=
  h.current .asked (by rw [State.reading, phase])

theorem tracked_last {s : State} {seen : Shown} {trace : List Shown} {fresh : Bool}
    (h : Tracked s trace) (phase : s.phase = .lookup fresh) {r : State} (cursor : r.cursor = none)
    (previous : r.previousScanChains = s.previousScanChains)
    (current : r.currentScanChains = s.currentScanChains) (last : isLast seen = true)
    (bare : chainsSince (seen :: trace) = chainsSince trace) (deferred : Bool) :
    Tracked (endScan r fresh deferred seen).1 ((endScan r fresh deferred seen).2 ++ trace) := by
  obtain ⟨scan, chains⟩ := scan_of_lookup h phase
  have kind : IdleJustified seen trace := by
    cases seen with
    | tick requests idle => cases last
    | _ => trivial
  refine tracked_endScan cursor h.justified kind ?_ ?_ fresh deferred
  · rw [completedChains, if_pos last, bare, current, chains]
  · intro key member
    rw [idleChains, previous, current, h.previous, chains, Finset.mem_sdiff] at member
    rw [bare]
    exact ⟨last, scan, member.2, member.1⟩

/-- A scan that is given up on changes nothing when both chain sets agree. -/
theorem tracked_abandoned {s : State} {trace : List Shown} {fresh : Bool} (h : Tracked s trace)
    (agree : s.previousScanChains = s.currentScanChains) {r : State} (cursor : r.cursor = none)
    (previous : r.previousScanChains = s.previousScanChains)
    (current : r.currentScanChains = s.currentScanChains) (nextCursor : String)
    (deferred : Bool) :
    Tracked (endScan r fresh deferred (.page [] (some nextCursor))).1
      ((endScan r fresh deferred (.page [] (some nextCursor))).2 ++ trace) := by
  refine tracked_endScan cursor h.justified ?_ ?_ ?_ fresh deferred
  · exact True.intro
  · rw [current, ← agree, h.previous]
    rfl
  · intro key member
    rw [idleChains, previous, current, agree, Finset.sdiff_self] at member
    exact absurd member (Finset.notMem_empty key)

theorem tracked_onPage {s : State} {trace : List Shown} {fresh : Bool} (h : Tracked s trace)
    (phase : s.phase = .lookup fresh) {requests : List TransactionRequest}
    {nextCursor : Option String}
    (whole : ∀ next, requests = [] → nextCursor = some next →
      shouldContinueEmptyDrain s.cursor (some next) s.unproductivePages = false →
      s.previousScanChains = s.currentScanChains) (deferred : Bool) :
    Tracked (onPage s fresh deferred requests nextCursor (.page requests nextCursor)).1
      ((onPage s fresh deferred requests nextCursor (.page requests nextCursor)).2 ++ trace) := by
  obtain ⟨scan, chains⟩ := scan_of_lookup h phase
  have shows : chainsSince (.page requests nextCursor :: trace) =
      s.currentScanChains ∪ chainKeys requests := by
    rw [chains, Finset.union_comm]
    rfl
  have seen : Everywhere IdleJustified (.page requests nextCursor :: trace) :=
    everywhere_cons.mpr ⟨trivial, h.justified⟩
  unfold onPage
  split
  · rename_i empty
    obtain rfl : requests = [] := by simpa using empty
    have bare : chainsSince (.page [] nextCursor :: trace) = chainsSince trace :=
      Finset.empty_union _
    split
    · rename_i drain
      obtain ⟨next, found, -⟩ := shouldContinueEmptyDrain_iff.mp drain
      refine ⟨seen, ?_, fun r at_ => ?_⟩
      · rw [found]
        exact h.previous
      · rw [State.reading] at at_
        simp only [found, Option.map_some, Option.some.injEq] at at_
        rw [← at_]
        refine ⟨?_, ?_⟩
        · rw [found]
          exact scan.page [] (some next)
        · exact chains.trans bare.symm
    · rename_i refused
      cases nextCursor with
      | none => refine tracked_last h phase ?_ ?_ ?_ rfl bare deferred <;> rfl
      | some next =>
        have agree := whole next rfl rfl (by simpa using refused)
        refine tracked_abandoned h agree ?_ ?_ ?_ next deferred <;> rfl
  · dsimp only
    cases nextCursor with
    | none =>
      rw [if_pos Option.isNone_none]
      refine ⟨everywhere_cons.mpr ⟨?_, seen⟩, shows.symm, fun r at_ => by cases at_⟩
      intro key member
      rw [idleChains, Finset.mem_sdiff] at member
      have absent : key ∉ chainsSince (.page requests none :: trace) := by
        rw [shows]
        exact member.2
      have present : key ∈ completedChains trace := by
        rw [← h.previous]
        exact member.1
      exact ⟨_, trace, rfl, scan, rfl, absent, present⟩
    | some next =>
      rw [if_neg (by simp)]
      refine ⟨everywhere_cons.mpr ⟨fun key member => absurd member (Finset.notMem_empty key), seen⟩,
        h.previous, fun r at_ => ?_⟩
      obtain rfl := Option.some.inj at_
      exact ⟨(scan.page requests (some next)).tick requests ∅, shows.symm⟩

theorem tracked_onReply {s : State} {trace : List Shown} {fresh : Bool} (h : Tracked s trace)
    (phase : s.phase = .lookup fresh) {send : Send (Option PendingPage)}
    (whole : Abandons s send → s.previousScanChains = s.currentScanChains) (deferred : Bool) :
    Tracked (onReply s fresh deferred send).1 ((onReply s fresh deferred send).2 ++ trace) := by
  unfold onReply
  cases replyKind send with
  | failed e result other seen =>
    rw [result, seen]
    dsimp only
    rw [onError, if_neg other]
    exact tracked_backoff (everywhere_cons.mpr ⟨trivial, h.justified⟩) h.previous
  | noResult result seen =>
    rw [result, seen]
    dsimp only
    rw [onError, if_pos rfl]
    refine tracked_last h phase ?_ ?_ ?_ rfl rfl deferred <;> rfl
  | noRows nextCursor result seen hides =>
    rw [result, seen]
    dsimp only
    rw [onError, if_pos rfl]
    cases nextCursor with
    | none => refine tracked_last h phase ?_ ?_ ?_ rfl (Finset.empty_union _) deferred <;> rfl
    | some next =>
      have agree := whole (.inl (hides (Option.some_ne_none next)))
      refine tracked_abandoned h agree ?_ ?_ ?_ next deferred <;> rfl
  | rows requests nextCursor result seen =>
    rw [result, seen]
    refine tracked_onPage h phase ?_ deferred
    rintro next rfl rfl refused
    exact whole (.inr ⟨next, result, refused⟩)

theorem tracked_onOutcome {s : State} {trace : List Shown} {nextCursor : Option String}
    (h : Tracked s trace) (phase : s.phase = .sent nextCursor) (deferred : Bool)
    (outcome : BatchOutcome) :
    Tracked (onOutcome s nextCursor deferred outcome).1
      ((onOutcome s nextCursor deferred outcome).2 ++ trace) := by
  have seen : Everywhere IdleJustified ([(.outcome outcome : Shown)] ++ trace) :=
    everywhere_cons.mpr ⟨trivial, h.justified⟩
  unfold onOutcome
  split
  · rename_i cursor madeProgress requiresFreshRetry decided
    obtain ⟨rfl, fine, -, -, -⟩ := batchStep_continue decided
    dsimp only
    split
    · rename_i last
      have none_ : cursor = none := by simpa using last
      refine tracked_finishScanRetry none_ seen ?_ deferred
      split <;> exact h.previous
    · rename_i more
      cases cursor with
      | none => simp at more
      | some next =>
        obtain ⟨scan, chains⟩ := h.current (.read (some next)) (by rw [State.reading, phase])
        refine ⟨seen, ?_, fun r at_ => ?_⟩
        · split <;> exact h.previous
        · obtain rfl := Option.some.inj at_
          refine ⟨scan.outcome fine, ?_⟩
          split <;> exact chains
  · exact tracked_backoff seen h.previous

theorem step_tracked {s t : State} {e : Event} {os trace : List Shown} (sane : Sane s)
    (h : Tracked s trace)
    (whole : ∀ send deferred, e = .reply send deferred → Abandons s send →
      s.previousScanChains = s.currentScanChains)
    (stepped : step s e = some (t, os)) : Tracked t (os ++ trace) := by
  cases step_cases stepped with
  | go phase _ => exact tracked_silent h rfl rfl (by simp only [State.reading, phase])
  | park phase _ => exact tracked_cons neutral_idleWait h rfl fun r at_ => by cases at_
  | begin phase =>
    refine tracked_cons (neutral_lookup s.cursor) h rfl fun r at_ => ?_
    obtain rfl := Option.some.inj at_
    cases cursor : s.cursor with
    | none => exact ⟨.begin trace, rfl⟩
    | some c =>
      obtain ⟨scan, chains⟩ := h.current (.read (some c))
        (by rw [State.reading, phase]; simp [cursor])
      exact ⟨scan.follow, chains⟩
  | reply send deferred fresh phase same =>
    have tracked := tracked_onReply h phase (whole send deferred rfl) deferred
    rw [same] at tracked
    exact tracked
  | ack outcome deferred nextCursor phase same =>
    have tracked := tracked_onOutcome h phase deferred outcome
    rw [same] at tracked
    exact tracked
  | idleAck outcome deferred fresh phase same =>
    have nothing : Everywhere IdleJustified ([] ++ trace) := h.justified
    have tracked := tracked_finishScanRetry (sane.idleSent phase).1 nothing h.previous
      (!fresh && deferred)
    rw [same] at tracked
    exact tracked
  | gone phase => exact ⟨h.justified, h.previous, fun r at_ => by cases at_⟩
  | wake phase =>
    simp only [Sane, phase] at sane
    exact tracked_silent h rfl rfl (by simp only [State.reading, phase, sane.1, Option.map_none])
  | resume phase =>
    simp only [Sane, phase] at sane
    exact tracked_silent h rfl rfl (by simp only [State.reading, phase, sane.1, Option.map_none])

/-- In every run, a chain is called idle only after a whole scan without it that
follows a completed scan with it. -/
theorem idle_chains_justified {es : List Event} {reached : State × List Shown}
    (path : Path (gated scansWhole (traced step)) (initial, []) es reached) :
    Everywhere IdleJustified reached.2 := by
  have start : Tracked initial [] := ⟨Everywhere.nil _, rfl, fun r at_ => by cases at_⟩
  have kept := path.invariant (I := fun at_ => Sane at_.1 ∧ Tracked at_.1 at_.2) ?_
    ⟨sane_initial, start⟩
  · exact kept.2.justified
  · rintro ⟨s, before⟩ e ⟨t, after⟩ ⟨sane, tracked⟩ ⟨whole, os, stepped, rest⟩
    rw [rest]
    exact ⟨step_sane sane stepped, step_tracked sane tracked whole stepped⟩

theorem not_abandons {send : Send (Option PendingPage)} (last : isLast (shown send) = true)
    (s : State) : ¬ Abandons s send := by
  rintro (⟨page, result, -, some_⟩ | ⟨nextCursor, got, -⟩)
  · rw [shown, result] at last
    cases following : next page with
    | none => exact some_ following
    | some c => simp [following, isLast] at last
  · cases replyKind send with
    | failed e result other seen =>
      rw [got] at result
      cases result
    | noResult result seen =>
      rw [got] at result
      cases result
    | noRows nextCursor result seen hides =>
      rw [got] at result
      cases result
    | rows requests following result seen =>
      rw [got] at result
      obtain ⟨-, rfl⟩ := Prod.mk.inj (Except.ok.inj result)
      rw [seen] at last
      cases last

/-- A scan that finds nothing follows one with a request: its chain becomes idle. -/
theorem idle_chains_justified_empty :
    ∃ reached, Path (gated scansWhole (traced step)) (initial, [])
        [.start, .begin, .reply (answers (some ⟨[zeroRow "a" .matrix], none⟩)) false,
          .ack .completed true, .start, .begin, .reply (answers none) false] reached ∧
      reached.2.head? = some (.tick [] {(.enjin, .matrix)}) ∧
      Everywhere IdleJustified reached.2 := by
  have whole : ∀ e ∈ ([.start, .begin, .reply (answers (some ⟨[zeroRow "a" .matrix], none⟩)) false,
      .ack .completed true, .start, .begin, .reply (answers none) false] : List Event),
      ∀ at_, scansWhole at_ e := by
    intro e member at_ send deferred reply abandons
    rw [reply] at member
    simp only [List.mem_cons, reduceCtorEq, Event.reply.injEq, List.not_mem_nil, false_or,
      or_false] at member
    rcases member with ⟨rfl, -⟩ | ⟨rfl, -⟩
    · exact absurd abandons (not_abandons rfl at_.1)
    · exact absurd abandons (not_abandons rfl at_.1)
  have path : Path (gated scansWhole (traced step)) (initial, []) _ _ :=
    (Path.of_traced_run rfl).gate whole
  exact ⟨_, path, rfl, idle_chains_justified path⟩

/-- Two unconvertible pages with one cursor make the scan be given up on, and the
chain of the scan before it idle. -/
theorem idle_chains_unjustified :
    ¬ ∀ es reached, Path (traced step) (initial, []) es reached →
      Everywhere IdleJustified reached.2 := by
  intro claim
  have path : Path (traced step) (initial, [])
      [.start, .begin, .reply (answers (some ⟨[zeroRow "a" .matrix], none⟩)) false,
        .ack .completed true, .start, .begin,
        .reply (answers (some ⟨[brokenRow "b" .matrix], some "p2"⟩)) false, .start, .begin,
        .reply (answers (some ⟨[brokenRow "b" .matrix], some "p2"⟩)) false] _ :=
    Path.of_traced_run rfl
  have justified := claim _ _ path _ _ (List.suffix_refl _)
  obtain ⟨last, past, same, -, isLast_, -⟩ := justified (.enjin, .matrix) (by decide)
  obtain ⟨rfl, -⟩ := List.cons.inj same
  cases isLast_

end WalletDaemon.TransactionPoller
