import WalletDaemon.LaterPages

/-! What one scan of a chain hands over. Each row of the pages it walks that converts is
in one batch, in the order of the pages, and no row is in two. -/

namespace WalletDaemon

open Platform Transition Retry ScanLoop PageWalk

namespace PageWalk

variable {Row Q O I : Type}

def handed : Trace Q O I → List Q
  | [] => []
  | .lookup none :: _ => []
  | .tick requests _ :: earlier => handed earlier ++ requests
  | _ :: earlier => handed earlier

section Links

variable {stops : Link Row → Bool}

theorem upTo_passed {done rest : List (Link Row)} (passed : ∀ link ∈ done, stops link = false) :
    PageWalk.upTo stops (done ++ rest) = done ++ PageWalk.upTo stops rest := by
  induction done with
  | nil => rfl
  | cons link done ih =>
    rw [List.cons_append, PageWalk.upTo, if_neg (by simp [passed link (by simp)]),
      ih fun other member => passed other (by simp [member])]
    rfl

theorem walked_snoc {done todo : List (Link Row)} {here : Link Row}
    (passed : ∀ link ∈ done, stops link = false) :
    done ++ [here] <+: PageWalk.upTo stops (done ++ here :: todo) := by
  rw [upTo_passed passed, List.prefix_append_right_inj, PageWalk.upTo]
  split
  · exact List.prefix_refl _
  · exact ⟨_, rfl⟩

theorem eq_of_trail {links first second : List (Link Row)} (left : first <+: links)
    (right : second <+: links) (same : trail first = trail second) : first = second := by
  have lengths : first.length = second.length := by
    have counted := congrArg List.length same
    simpa [trail] using counted
  exact (List.prefix_of_prefix_length_le left right (le_of_eq lengths)).eq_of_length lengths

end Links

section Hand

variable (chain : PageChain Row) (stops nothing : Link Row → Bool) (limit : Nat)
  (work : Link Row → List Q)

/-- What a move hands over: the work of the page that was asked for, once it is read. -/
inductive HandMove : Walker → Trace Q O I → Walker → Prop
  | ask {v w : Walker} : v.stage = .ready → w.stage = .asking → HandMove v [.lookup v.cursor] w
  | read (link : Link Row) {v w : Walker} {os : Trace Q O I} : v.stage = .asking →
      w.stage ≠ .asking → link ∈ chain.links → link.cursor = v.cursor →
      (∀ o ∈ os, o.isLookup = false) →
      (∀ trace, handed (os ++ trace) = handed trace ++ work link) → HandMove v os w
  | other {v w : Walker} {os : Trace Q O I} : v.stage ≠ .asking → w.stage ≠ .asking →
      (∀ o ∈ os, o.isLookup = false) → (∀ trace, handed (os ++ trace) = handed trace) →
      HandMove v os w

/-- A step that asks for no page and hands over the requests. -/
structure Hands (stage : Stage) (os : Trace Q O I) (requests : List Q) : Prop where
  quiet : ∀ o ∈ os, o.isLookup = false
  read : stage ≠ .asking
  given : ∀ trace, handed (os ++ trace) = handed trace ++ requests

/-- The pages that were read have handed over their work. -/
def Handing (v : Walker) (trace : Trace Q O I) : Prop :=
  ∃ links, links <+: PageWalk.upTo stops chain.links ∧ visited trace = trail links ∧
    handed trace = (if v.stage = .asking then links.dropLast else links).flatMap work

/-- Every scan that is over has handed over all. -/
def HandedOver (all : List Q) : Obs Q O I → Trace Q O I → Prop
  | .lookup none, earlier => earlier = [] ∨ handed earlier = all
  | .idleWait, earlier => handed earlier = all
  | .backoffWait _, earlier => handed earlier = all
  | _, _ => True

variable {chain stops nothing limit work}

theorem Hands.backoff {stage : Stage} {os : Trace Q O I} {requests : List Q}
    (h : Hands stage os requests) (attempt : Nat) :
    Hands .backoff (.backoffWait attempt :: os) requests where
  quiet _ member := by
    rcases List.mem_cons.mp member with rfl | inside
    · rfl
    · exact h.quiet _ inside
  read := Stage.noConfusion
  given := h.given

theorem Hands.other {v w : Walker} {os : Trace Q O I} (h : Hands w.stage os [])
    (stage : v.stage ≠ .asking) : HandMove chain work v os w :=
  .other stage h.read h.quiet fun trace => (h.given trace).trans (List.append_nil _)

theorem hands_page (requests : List Q) (next : Option String) {stage : Stage}
    (read : stage ≠ .asking) : Hands stage ([.page requests next] : Trace Q O I) [] where
  quiet o member := by
    rw [List.mem_singleton.mp member]
    rfl
  read := read
  given _ := (List.append_nil _).symm

theorem hands_tick (found : List Q) (next : Option String) (requests : List Q) (idle : I)
    {stage : Stage} (read : stage ≠ .asking) :
    Hands stage ([.tick requests idle, .page found next] : Trace Q O I) requests where
  quiet _ member := by
    rcases List.mem_cons.mp member with rfl | last
    · rfl
    · rw [List.mem_singleton.mp last]
      rfl
  read := read
  given _ := rfl

theorem hands_outcome (result : O) {stage : Stage} (read : stage ≠ .asking) :
    Hands stage ([.outcome result] : Trace Q O I) [] where
  quiet o member := by
    rw [List.mem_singleton.mp member]
    rfl
  read := read
  given _ := (List.append_nil _).symm

theorem hands_nothing {stage : Stage} (read : stage ≠ .asking) :
    Hands stage ([] : Trace Q O I) [] where
  quiet _ member := absurd member List.not_mem_nil
  read := read
  given _ := (List.append_nil _).symm

theorem hands_idle {stage : Stage} (read : stage ≠ .asking) :
    Hands stage ([.idleWait] : Trace Q O I) [] where
  quiet o member := by
    rw [List.mem_singleton.mp member]
    rfl
  read := read
  given _ := (List.append_nil _).symm

theorem HandMove.handing {n : Nat} {v w : Walker} {os trace : Trace Q O I}
    (walking : Walking chain stops nothing limit n v trace) (handing : Handing chain stops work v trace)
    (move : HandMove chain work v os w) : Handing chain stops work w (os ++ trace) := by
  obtain ⟨links, within, seen, given⟩ := handing
  have lookup_kept : (∀ o ∈ os, o.isLookup = false) → visited (os ++ trace) = trail links :=
    fun quiet => (visited_append quiet trace).trans seen
  cases move with
  | ask stage asking =>
    rw [if_neg (by rw [stage]; exact Stage.noConfusion)] at given
    rcases walking.between (.inr stage) with ⟨done, here, todo, at_, some_, before, -⟩ | ⟨ended, -⟩
    · have walked : done ++ [here] <+: PageWalk.upTo stops chain.links := by
        rw [at_.split_]
        exact walked_snoc at_.passed
      obtain ⟨cursor, named⟩ := Option.isSome_iff_exists.mp some_
      have same : links = done := eq_of_trail within ((List.prefix_append _ _).trans walked)
        (seen.symm.trans before)
      refine ⟨done ++ [here], walked, ?_, ?_⟩
      · rw [at_.cursor, named, trail_snoc, named]
        exact congrArg _ before
      · rw [if_pos asking, List.dropLast_concat, at_.cursor, named, ← same]
        exact given
    · obtain ⟨here, todo, head, fresh⟩ := chain.links_head
      refine ⟨[here], ?_, ?_, ?_⟩
      · have first : ∀ link ∈ ([] : List (Link Row)), stops link = false := by simp
        rw [head]
        exact walked_snoc first
      · rw [ended.cursor]
        simp [visited, trail, fresh]
      · rw [if_pos asking, ended.cursor]
        rfl
  | read link stage read_ member cursor quiet works =>
    obtain ⟨done, here, todo, at_, before, -⟩ := walking.at_asking stage
    obtain rfl := at_.link_eq member cursor
    have walked : done ++ [link] <+: PageWalk.upTo stops chain.links := by
      rw [at_.split_]
      exact walked_snoc at_.passed
    have same : links = done ++ [link] := eq_of_trail within walked (seen.symm.trans before)
    refine ⟨links, within, lookup_kept quiet, ?_⟩
    rw [works, given, if_pos stage, if_neg read_, same, List.dropLast_concat, List.flatMap_append,
      List.flatMap_singleton]
  | other stage still quiet nothing_ =>
    refine ⟨links, within, lookup_kept quiet, ?_⟩
    rw [nothing_, given, if_neg stage, if_neg still]

theorem Handing.all {v : Walker} {trace : Trace Q O I} (handing : Handing chain stops work v trace)
    (read : v.stage ≠ .asking)
    (covered : visited trace = trail (PageWalk.upTo stops chain.links)) :
    handed trace = (PageWalk.upTo stops chain.links).flatMap work := by
  obtain ⟨links, within, seen, given⟩ := handing
  rw [given, if_neg read,
    eq_of_trail within (List.prefix_refl _) (seen.symm.trans covered)]

theorem Handing.prefix_ {v : Walker} {trace : Trace Q O I}
    (handing : Handing chain stops work v trace) :
    handed trace <+: (PageWalk.upTo stops chain.links).flatMap work := by
  obtain ⟨links, within, -, given⟩ := handing
  have kept : (if v.stage = .asking then links.dropLast else links) <+: links := by
    split
    · exact List.dropLast_prefix links
    · exact List.prefix_refl _
  obtain ⟨rest, whole⟩ := kept.trans within
  rw [given, ← whole, List.flatMap_append]
  exact List.prefix_append _ _

section Program

variable {σ ε : Type} {ok : σ × Trace Q O I → ε → Prop} {step : σ → ε → Option (σ × Trace Q O I)}
  {walker : σ → Walker} {sane : σ → Prop}

theorem WalkMove.handedOver {v w : Walker} {os trace : Trace Q O I}
    (move : WalkMove chain stops nothing v os w)
    (whole : Everywhere (Whole (trail (PageWalk.upTo stops chain.links))) (os ++ trace))
    (before : Handing chain stops work v trace) (after : Handing chain stops work w (os ++ trace))
    (finished : Everywhere (HandedOver ((PageWalk.upTo stops chain.links).flatMap work)) trace) :
    Everywhere (HandedOver ((PageWalk.upTo stops chain.links).flatMap work)) (os ++ trace) := by
  have quietly : ∀ {seen : Trace Q O I}, Quiet seen →
      Everywhere (HandedOver ((PageWalk.upTo stops chain.links).flatMap work)) (seen ++ trace) := by
    intro seen quiet
    refine everywhere_append (fun o member past => ?_) finished
    have kind := quiet o member
    cases o with
    | lookup cursor => cases kind.1
    | idleWait => cases kind.2
    | backoffWait attempt => cases kind.2
    | _ => trivial
  cases move with
  | go stage ready kept => exact finished
  | park stage none_ idle kept =>
    have covered := (everywhere_cons.mp whole).1
    exact everywhere_cons.mpr ⟨before.all (by rw [stage]; exact Stage.noConfusion) covered, finished⟩
  | wake stage ready kept => exact finished
  | ask stage asking kept =>
    refine everywhere_cons.mpr ⟨?_, finished⟩
    have covered := (everywhere_cons.mp whole).1
    cases cursor : v.cursor with
    | some c => trivial
    | none =>
      rw [cursor] at covered
      exact covered.imp_right (before.all (by rw [stage]; exact Stage.noConfusion))
  | drain _ _ _ _ _ quiet _ _ _ _ => exact quietly quiet
  | hold _ _ _ _ quiet _ _ _ _ => exact quietly quiet
  | follow _ _ _ _ quiet _ _ _ => exact quietly quiet
  | finish ending quiet shape none_ empties =>
    rcases shape with ⟨rfl, -⟩ | ⟨attempt, rfl, backoff⟩
    · exact quietly quiet
    · have covered := (everywhere_cons.mp whole).1
      exact everywhere_cons.mpr ⟨after.all (by rw [backoff]; exact Stage.noConfusion) covered,
        quietly quiet⟩
  | resume stage head kept => exact finished
  | leave gone => exact finished

variable (sparse : Sparse limit nothing 0 chain.links)
  (moves : ∀ at_ e t os, sane at_.1 → ok at_ e →
    (∃ n, Walking chain stops nothing limit n (walker at_.1) at_.2) →
    step at_.1 e = some (t, os) → WalkMove chain stops nothing (walker at_.1) os (walker t) ∧ sane t)
  (hands : ∀ at_ e t os, sane at_.1 → ok at_ e →
    (∃ n, Walking chain stops nothing limit n (walker at_.1) at_.2) →
    step at_.1 e = some (t, os) → HandMove chain work (walker at_.1) os (walker t))

include sparse moves hands

/-- From a fresh lookup on, the work handed over is that of the pages walked, in order,
and all of it once the scan is over. -/
theorem hands_over {s : σ} {es : List ε} {at_ : σ × Trace Q O I} (start : sane s)
    (stage : (walker s).stage = .asking) (cursor : (walker s).cursor = none)
    (empties : (walker s).empties = 0)
    (path : Path (gated ok (traced step)) (s, [.lookup none]) es at_) :
    Everywhere (HandedOver ((PageWalk.upTo stops chain.links).flatMap work)) at_.2 ∧
      handed at_.2 <+: (PageWalk.upTo stops chain.links).flatMap work := by
  obtain ⟨here, todo, head, fresh⟩ := chain.links_head
  have first : At chain stops nothing limit [] here todo (walker s) := by
    refine ⟨head, by simp, cursor.trans fresh.symm, ?_⟩
    rw [← head]
    exact empties ▸ sparse
  have asked : Walking chain stops nothing limit _ (walker s) ([.lookup none] : Trace Q O I) :=
    .asking first stage (by simp [visited, trail, fresh])
  have handing : Handing chain stops work (walker s) ([.lookup none] : Trace Q O I) := by
    refine ⟨[here], ?_, by simp [visited, trail, fresh], ?_⟩
    · have none_ : ∀ link ∈ ([] : List (Link Row)), stops link = false := by simp
      rw [head]
      exact walked_snoc none_
    · rw [if_pos stage]
      rfl
  have kept := path.invariant (I := fun at_ => sane at_.1 ∧
    (∃ m, Walking chain stops nothing limit m (walker at_.1) at_.2) ∧
      Everywhere (Whole (trail (PageWalk.upTo stops chain.links))) at_.2 ∧
      Handing chain stops work (walker at_.1) at_.2 ∧
      Everywhere (HandedOver ((PageWalk.upTo stops chain.links).flatMap work)) at_.2) ?_
    ⟨start, ⟨_, asked⟩, everywhere_cons.mpr ⟨.inl rfl, Everywhere.nil _⟩, handing,
      everywhere_cons.mpr ⟨.inl rfl, Everywhere.nil _⟩⟩
  · exact ⟨kept.2.2.2.2, kept.2.2.2.1.prefix_⟩
  rintro ⟨s, before⟩ e ⟨t, after⟩ ⟨sane_, ⟨m, walking⟩, whole, handing, finished⟩ ⟨allowed, os, stepped, rest⟩
  obtain ⟨move, next⟩ := moves (s, before) e t os sane_ allowed ⟨m, walking⟩ stepped
  obtain ⟨k, later, whole', -⟩ := move.walking sparse walking whole
  have handing' := (hands (s, before) e t os sane_ allowed ⟨m, walking⟩ stepped).handing walking handing
  rw [rest]
  exact ⟨next, ⟨k, later⟩, whole', handing', move.handedOver whole' handing handing' finished⟩

end Program

end Hand

end PageWalk

namespace TransactionPoller

def rows (link : Link PendingTransaction) : List TransactionRequest :=
  convertible ⟨link.rows, link.next⟩

theorem finishScanRetry_hands (s : State) (deferred : Bool) {seen : List Shown}
    {requests : List TransactionRequest} (h : Hands .head seen requests) :
    Hands (finishScanRetry s deferred seen).1.phase.stage (finishScanRetry s deferred seen).2
      requests := by
  unfold finishScanRetry
  split
  · exact h.backoff _
  · exact h

theorem endScan_hands (s : State) (fresh deferred : Bool) (found : List TransactionRequest)
    (next : Option String) :
    Hands (endScan s fresh deferred (.page found next)).1.phase.stage
      (endScan s fresh deferred (.page found next)).2 [] := by
  unfold endScan
  dsimp only
  split
  · exact finishScanRetry_hands _ _ (hands_page found next Stage.noConfusion)
  · exact hands_tick found next [] _ Stage.noConfusion

section Chain

variable {chain : PageChain PendingTransaction} {outcomeAt : Option String → BatchOutcome}

theorem onReply_hands (s : State) (fresh deferred : Bool) {send : Send (Option PendingPage)}
    {link : Link PendingTransaction} (member : link ∈ chain.links)
    (result : executeQuery send none = .ok (some ⟨link.rows, link.next⟩)) :
    Hands (onReply s fresh deferred send).1.phase.stage (onReply s fresh deferred send).2
      (rows link) := by
  obtain ⟨shows, read⟩ := getPendingTransactions_link member result
  have bare : link.rows.isEmpty = true → rows link = [] := by
    intro empty
    rw [rows, List.isEmpty_iff.mp empty]
    rfl
  unfold onReply
  rw [read, shows]
  by_cases empty : link.rows.isEmpty = true
  · rw [if_pos empty, bare empty]
    dsimp only
    rw [onError, if_pos rfl]
    exact endScan_hands _ _ _ _ _
  · rw [if_neg empty]
    dsimp only
    unfold onPage
    split
    · rename_i none_
      have nothing : rows link = [] := List.isEmpty_iff.mp none_
      rw [nothing]
      split
      · exact hands_page _ _ Stage.noConfusion
      · exact endScan_hands _ _ _ _ _
    · dsimp only
      split <;> exact hands_tick _ _ _ _ Stage.noConfusion

theorem onOutcome_hands (s : State) (nextCursor : Option String) (deferred : Bool)
    (outcome : BatchOutcome) :
    Hands (onOutcome s nextCursor deferred outcome).1.phase.stage
      (onOutcome s nextCursor deferred outcome).2 [] := by
  unfold onOutcome
  split
  · dsimp only
    split
    · exact finishScanRetry_hands _ _ (hands_outcome outcome Stage.noConfusion)
    · exact hands_outcome outcome Stage.noConfusion
  · have hands : Hands .head ([.outcome outcome] : List Shown) [] :=
      hands_outcome outcome Stage.noConfusion
    exact hands.backoff _

theorem step_hands {s t : State} {trace os : List Shown} {e : Event}
    (served : serves chain outcomeAt (s, trace) e) (h : step s e = some (t, os)) :
    HandMove chain rows (walker s) os (walker t) := by
  have rest : ∀ {phase : Phase}, s.phase = phase → phase.stage ≠ .asking →
      (walker s).stage ≠ .asking := by
    rintro _ rfl other
    exact other
  cases step_cases h with
  | go phase _ => exact (hands_nothing Stage.noConfusion).other (rest phase Stage.noConfusion)
  | park phase off => exact (hands_idle Stage.noConfusion).other (rest phase Stage.noConfusion)
  | wake phase => exact (hands_nothing Stage.noConfusion).other (rest phase Stage.noConfusion)
  | begin phase => exact .ask (by rw [walker, phase]; rfl) rfl
  | reply send deferred fresh phase same =>
    obtain ⟨link, member, cursor, result⟩ := served
    have hands := onReply_hands s fresh deferred member result
    rw [same] at hands
    exact .read link (by rw [walker, phase]; rfl) hands.read member cursor hands.quiet hands.given
  | ack outcome deferred nextCursor phase same =>
    have hands := onOutcome_hands s nextCursor deferred outcome
    rw [same] at hands
    exact hands.other (rest phase Stage.noConfusion)
  | idleAck outcome deferred fresh phase same =>
    have hands := finishScanRetry_hands s (!fresh && deferred) (hands_nothing Stage.noConfusion)
    rw [same] at hands
    exact hands.other (rest phase Stage.noConfusion)
  | gone phase =>
    refine (hands_nothing Stage.noConfusion).other ?_
    rcases phase with ⟨nextCursor, phase⟩ | ⟨fresh, phase⟩
    · exact rest phase Stage.noConfusion
    · exact rest phase Stage.noConfusion
  | resume phase => exact (hands_nothing Stage.noConfusion).other (rest phase Stage.noConfusion)

theorem scan_hands_over (fine : ∀ cursor, outcomeAt cursor ≠ .submissionFailed)
    (sparse : Sparse maxConsecutiveEmptyPages (submitsNothing outcomeAt) 0 chain.links)
    {es fs : List Event} {s : State} {before : List Shown} {at_ : State × List Shown}
    (path : Path (traced step) (initial, []) es (s, before)) (asked : s.phase = .lookup true)
    (onward : Path (gated (serves chain outcomeAt) (traced step)) (s, [.lookup none]) fs at_) :
    Everywhere (HandedOver ((PageWalk.upTo stops chain.links).flatMap rows)) at_.2 ∧
      handed at_.2 <+: (PageWalk.upTo stops chain.links).flatMap rows := by
  have sane := sane_path path
  have fresh : s.cursor.isNone = true ∧ (s.cursor = none → s.unproductivePages = 0) := by
    simpa only [Sane, asked] using sane
  have none_ : s.cursor = none := by simpa using fresh.1
  exact hands_over sparse
    (fun _ _ _ _ sane served walking h => ⟨step_walk fine sane served walking h, step_sane sane h⟩)
    (fun _ _ _ _ _ served _ h => step_hands served h) sane (by rw [walker, asked]; rfl) none_
    (fresh.2 none_) onward

end Chain

end TransactionPoller

namespace WalletPoller

def rows (link : Link ManagedWallet) : List DeriveWalletRequest :=
  convertible ⟨link.rows, link.next⟩

theorem applyStep_hands (s : State) (wallet : WalletStep) {seen : List Shown}
    {requests : List DeriveWalletRequest} (h : Hands .head seen requests) :
    Hands (applyStep s wallet seen).1.phase.stage (applyStep s wallet seen).2 requests := by
  cases wallet with
  | «continue» cursor restart reset fetch => exact h
  | delayThenFetch cursor restart reason => exact h.backoff _

section Chain

variable {chain : PageChain ManagedWallet}

theorem onReply_hands (s : State) (fresh deferred : Bool) {send : Send (Option PendingPage)}
    {link : Link ManagedWallet} (member : link ∈ chain.links)
    (result : executeQuery send none = .ok (some ⟨link.rows, link.next⟩)) :
    Hands (onReply s fresh deferred send).1.phase.stage (onReply s fresh deferred send).2
      (rows link) := by
  obtain ⟨shows, read⟩ := getPendingWallets_link member result
  unfold onReply
  rw [read, shows]
  dsimp only
  unfold onPage
  split
  · rename_i none_
    have nothing : rows link = [] := List.isEmpty_iff.mp none_
    rw [nothing]
    split
    · exact hands_page _ _ Stage.noConfusion
    · exact applyStep_hands _ _ (hands_page _ _ Stage.noConfusion)
  · exact hands_tick _ _ _ _ Stage.noConfusion

theorem step_hands {s t : State} {trace os : List Shown} {e : Event}
    (served : serves chain (s, trace) e) (h : step s e = some (t, os)) :
    HandMove chain rows (walker s) os (walker t) := by
  have rest : ∀ {phase : Phase}, s.phase = phase → phase.stage ≠ .asking →
      (walker s).stage ≠ .asking := by
    rintro _ rfl other
    exact other
  cases step_cases h with
  | go phase _ => exact (hands_nothing Stage.noConfusion).other (rest phase Stage.noConfusion)
  | park phase off => exact (hands_idle Stage.noConfusion).other (rest phase Stage.noConfusion)
  | wake phase => exact (hands_nothing Stage.noConfusion).other (rest phase Stage.noConfusion)
  | begin phase => exact .ask (by rw [walker, phase]; rfl) rfl
  | reply send deferred fresh phase same =>
    obtain ⟨link, member, cursor, result⟩ := served
    have hands := onReply_hands s fresh deferred member result
    rw [same] at hands
    exact .read link (by rw [walker, phase]; rfl) hands.read member cursor hands.quiet hands.given
  | ack outcome deferred nextCursor phase same =>
    have hands := applyStep_hands s (walletStep outcome nextCursor s.restartAfterScan deferred)
      (hands_outcome outcome Stage.noConfusion)
    rw [same] at hands
    exact hands.other (rest phase Stage.noConfusion)
  | gone nextCursor phase =>
    exact (hands_nothing Stage.noConfusion).other (rest phase Stage.noConfusion)
  | resume phase => exact (hands_nothing Stage.noConfusion).other (rest phase Stage.noConfusion)

theorem scan_hands_over (sparse : Sparse maxConsecutiveEmptyPages submitsNothing 0 chain.links)
    {es fs : List Event} {s : State} {before : List Shown} {at_ : State × List Shown}
    (path : Path (traced step) (initial, []) es (s, before)) (asked : s.phase = .lookup true)
    (onward : Path (gated (serves chain) (traced step)) (s, [.lookup none]) fs at_) :
    Everywhere (HandedOver (chain.links.flatMap rows)) at_.2 ∧
      handed at_.2 <+: chain.links.flatMap rows := by
  have sane := sane_path path
  have fresh : s.cursor.isNone = true ∧ (s.cursor = none → s.emptyPages = 0) := by
    simpa only [Sane, asked] using sane
  have none_ : s.cursor = none := by simpa using fresh.1
  have covers : PageWalk.upTo stops chain.links = chain.links := chain.upTo_links fun _ _ => rfl
  have given := hands_over sparse
    (fun _ _ _ _ sane served walking h => ⟨step_walk sane served walking h, step_sane sane h⟩)
    (fun _ _ _ _ _ served _ h => step_hands served h) sane (by rw [walker, asked]; rfl) none_
    (fresh.2 none_) onward
  rwa [covers] at given

end Chain

end WalletPoller

/-- Every scan of either poller hands over every row that converts of the pages it
walks, once and in the order of the pages: the managed-wallet poller those of all pages,
the transaction poller those up to the first page without rows. -/
theorem scans_hand_over_every_row (chain : PageChain PendingTransaction)
    (outcomeAt : Option String → BatchOutcome)
    (fine : ∀ cursor, outcomeAt cursor ≠ .submissionFailed)
    (sparse : Sparse maxConsecutiveEmptyPages (TransactionPoller.submitsNothing outcomeAt) 0
      chain.links)
    (walletChain : PageChain WalletPoller.ManagedWallet)
    (walletSparse : Sparse maxConsecutiveEmptyPages WalletPoller.submitsNothing 0 walletChain.links) :
    (∀ es s before,
      Path (traced TransactionPoller.step) (TransactionPoller.initial, []) es (s, before) →
      s.phase = .lookup true → ∀ fs at_,
      Path (gated (TransactionPoller.serves chain outcomeAt) (traced TransactionPoller.step))
        (s, [.lookup none]) fs at_ →
      Everywhere (HandedOver ((PageWalk.upTo TransactionPoller.stops chain.links).flatMap
        TransactionPoller.rows)) at_.2 ∧
      handed at_.2 <+: (PageWalk.upTo TransactionPoller.stops chain.links).flatMap
        TransactionPoller.rows) ∧
    ∀ es s before,
      Path (traced WalletPoller.step) (WalletPoller.initial, []) es (s, before) →
      s.phase = .lookup true → ∀ fs at_,
      Path (gated (WalletPoller.serves walletChain) (traced WalletPoller.step))
        (s, [.lookup none]) fs at_ →
      Everywhere (HandedOver (walletChain.links.flatMap WalletPoller.rows)) at_.2 ∧
      handed at_.2 <+: walletChain.links.flatMap WalletPoller.rows := by
  constructor
  · intro es s before path asked fs at_ onward
    exact TransactionPoller.scan_hands_over fine sparse path asked onward
  · intro es s before path asked fs at_ onward
    exact WalletPoller.scan_hands_over walletSparse path asked onward

section Chains

def twoPageScan : List TransactionPoller.Event :=
  [.reply (answers (some ⟨[TransactionPoller.brokenRow "a" .matrix], some "p2"⟩)) false,
    .start, .begin, .reply (answers (some ⟨[TransactionPoller.zeroRow "b" .matrix], none⟩)) false,
    .ack .completed false]

theorem twoPageScan_served : Allowed
    (TransactionPoller.serves transactionPages fun _ => .completed)
    (traceStep TransactionPoller.step) (firstLookup, [.lookup none]) twoPageScan := by
  refine ⟨⟨⟨none, [TransactionPoller.brokenRow "a" .matrix], some "p2"⟩, ?_, rfl, rfl⟩, trivial,
    trivial, ⟨⟨some "p2", [TransactionPoller.zeroRow "b" .matrix], none⟩, ?_, rfl, rfl⟩,
    fun _ => rfl, trivial⟩
  · simp [PageChain.links, transactionPages, linksFrom]
  · simp [PageChain.links, transactionPages, linksFrom]

theorem scans_hand_over_every_row_two :
    ∃ at_, Path (gated (TransactionPoller.serves transactionPages fun _ => .completed)
        (traced TransactionPoller.step)) (firstLookup, [.lookup none]) twoPageScan at_ ∧
      at_.1.phase = .retryWait ∧ handed at_.2 = [TransactionPoller.zeroRequest "b" .matrix] := by
  have onward : Path (gated (TransactionPoller.serves transactionPages fun _ => .completed)
      (traced TransactionPoller.step)) (firstLookup, [.lookup none]) twoPageScan _ :=
    Path.gate_run (fun _ _ _ => traced_of_traceStep) rfl twoPageScan_served
  have path : Path (traced TransactionPoller.step) (TransactionPoller.initial, [])
      [.start, .begin] (firstLookup, [.lookup none]) := Path.of_traced_run rfl
  have both := scans_hand_over_every_row transactionPages (fun _ => .completed)
    (fun _ => by decide)
    (by simp [PageChain.links, transactionPages, linksFrom, Sparse]; decide) walletPages
    (by simp [PageChain.links, walletPages, linksFrom, Sparse]; decide)
  exact ⟨_, onward, rfl, (both.1 _ _ _ path rfl _ _ onward).1 _ _ (List.suffix_refl _)⟩

end Chains

end WalletDaemon
