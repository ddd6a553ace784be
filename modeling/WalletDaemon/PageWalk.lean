import WalletDaemon.ScanLoop
import Mathlib.Data.List.Nodup

/-! A walk along pages linked by cursors.
A walker asks for a page, works on it and follows its next cursor, up to the
first page it stops at. It may give up on a run of pages that yielded nothing
once the run has reached a limit. Rows, and which pages a walker stops at, are
left open. -/

namespace WalletDaemon.PageWalk

open Transition ScanLoop

variable {Row : Type}

structure Link (Row : Type) where
  cursor : Option String
  rows : List Row
  next : Option String

def linksFrom (cursor : Option String) (rows : List Row) : List (String × List Row) →
    List (Link Row)
  | [] => [⟨cursor, rows, none⟩]
  | (following, more) :: rest => ⟨cursor, rows, some following⟩ :: linksFrom (some following) more rest

/-- Pages linked by distinct non-empty cursors. -/
structure PageChain (Row : Type) where
  first : List Row
  rest : List (String × List Row)
  distinct : (rest.map Prod.fst).Nodup
  nonempty : ∀ page ∈ rest, page.1 ≠ ""

def PageChain.links (chain : PageChain Row) : List (Link Row) :=
  linksFrom none chain.first chain.rest

/-- The links up to the first one the walker stops at. -/
def upTo (stops : Link Row → Bool) : List (Link Row) → List (Link Row)
  | [] => []
  | link :: rest => if stops link then [link] else link :: upTo stops rest

/-- At most `limit` links in a row yield nothing, `n` before the first included. -/
def Sparse (limit : Nat) (nothing : Link Row → Bool) : Nat → List (Link Row) → Prop
  | _, [] => True
  | n, link :: rest =>
    if nothing link then n < limit ∧ Sparse limit nothing (n + 1) rest
    else Sparse limit nothing 0 rest

/-- The cursors asked for by a walk over the links, newest first. -/
def trail (links : List (Link Row)) : List (Option String) := (links.map Link.cursor).reverse

/-- The cursors asked for since the last fresh lookup, newest first. -/
def visited {Q O I : Type} : Trace Q O I → List (Option String)
  | [] => []
  | .lookup none :: _ => [none]
  | .lookup (some cursor) :: earlier => some cursor :: visited earlier
  | _ :: earlier => visited earlier

theorem linksFrom_cursors (cursor : Option String) (rows : List Row)
    (rest : List (String × List Row)) :
    (linksFrom cursor rows rest).map Link.cursor = cursor :: rest.map fun page => some page.1 := by
  induction rest generalizing cursor rows with
  | nil => rfl
  | cons page rest ih => simp [linksFrom, ih]

theorem linksFrom_next {cursor : Option String} {rows : List Row}
    {rest : List (String × List Row)} {done todo : List (Link Row)} {here : Link Row}
    (split_ : linksFrom cursor rows rest = done ++ here :: todo) :
    here.next = todo.head?.bind Link.cursor := by
  induction rest generalizing cursor rows done with
  | nil =>
    cases done with
    | nil =>
      obtain ⟨rfl, rfl⟩ := List.cons.inj split_
      rfl
    | cons link done => simp [linksFrom] at split_
  | cons page rest ih =>
    cases done with
    | nil =>
      obtain ⟨rfl, rfl⟩ := List.cons.inj split_
      cases rest <;> rfl
    | cons link done => exact ih (List.cons.inj split_).2

theorem linksFrom_next_mem {cursor : Option String} {rows : List Row}
    {rest : List (String × List Row)} {link : Link Row} (member : link ∈ linksFrom cursor rows rest)
    {next : String} (some_ : link.next = some next) : ∃ page ∈ rest, page.1 = next := by
  induction rest generalizing cursor rows with
  | nil =>
    rw [linksFrom, List.mem_singleton] at member
    rw [member] at some_
    cases some_
  | cons page rest ih =>
    rcases List.mem_cons.mp member with rfl | later
    · exact ⟨page, by simp, Option.some.inj some_⟩
    · obtain ⟨found, inside, same⟩ := ih later
      exact ⟨found, List.mem_cons_of_mem _ inside, same⟩

namespace PageChain

variable (chain : PageChain Row)

theorem cursors_nodup : (chain.links.map Link.cursor).Nodup := by
  rw [links, linksFrom_cursors, List.nodup_cons]
  constructor
  · simp
  · have somes := chain.distinct.map (Option.some_injective String)
    rwa [List.map_map] at somes

theorem link_unique {link other : Link Row} (here : link ∈ chain.links) (there : other ∈ chain.links)
    (same : link.cursor = other.cursor) : link = other :=
  List.inj_on_of_nodup_map chain.cursors_nodup here there same

theorem next_nonempty {link : Link Row} (here : link ∈ chain.links) : link.next ≠ some "" := by
  intro empty
  obtain ⟨page, member, same⟩ := linksFrom_next_mem here empty
  exact chain.nonempty page member same

theorem next_kept {link : Link Row} (here : link ∈ chain.links) :
    link.next.filter (· ≠ "") = link.next := by
  have nonempty := chain.next_nonempty here
  cases cursor : link.next with
  | none => rfl
  | some c =>
    rw [cursor] at nonempty
    exact Option.filter_some_pos (by simpa using nonempty)

theorem next_ne_cursor {done todo : List (Link Row)} {here : Link Row}
    (split_ : chain.links = done ++ here :: todo) {next : String} (some_ : here.next = some next) :
    here.cursor ≠ some next := by
  have follows := linksFrom_next split_
  rw [some_] at follows
  intro same
  have nodup := chain.cursors_nodup
  rw [split_, List.map_append, List.nodup_append, List.map_cons, List.nodup_cons] at nodup
  cases todo with
  | nil => cases follows
  | cons link rest =>
    have cursor : link.cursor = some next := follows.symm
    exact nodup.2.1.1 (by simp [same, cursor])

theorem upTo_links {stops : Link Row → Bool}
    (last : ∀ link ∈ chain.links, stops link = link.next.isNone) : upTo stops chain.links = chain.links := by
  rw [links] at *
  generalize (none : Option String) = cursor at *
  generalize chain.first = rows at *
  generalize chain.rest = rest at *
  induction rest generalizing cursor rows with
  | nil =>
    simp [linksFrom, upTo]
  | cons page rest ih =>
    have go := last ⟨cursor, rows, some page.1⟩ (by simp [linksFrom])
    have later := ih (some page.1) page.2 fun link member => last link (by simp [linksFrom, member])
    simp only [linksFrom, upTo]
    rw [if_neg (by simp [go]), later]

theorem stops_of_upTo {stops : Link Row → Bool}
    (whole : (upTo stops chain.links).length = chain.links.length) {link : Link Row}
    (member : link ∈ chain.links) (more : link.next.isSome = true) : stops link = false := by
  rw [links] at *
  generalize (none : Option String) = cursor at *
  generalize chain.first = rows at *
  generalize chain.rest = rest at *
  induction rest generalizing cursor rows with
  | nil =>
    rw [linksFrom, List.mem_singleton] at member
    rw [member] at more
    cases more
  | cons page rest ih =>
    have nonempty : (linksFrom (some page.1) page.2 rest).length ≠ 0 := by
      cases rest <;> simp [linksFrom]
    simp only [linksFrom, upTo] at whole
    split at whole
    · simp only [List.length_cons, List.length_nil] at whole
      omega
    · rename_i go
      rcases List.mem_cons.mp member with rfl | later
      · simpa using go
      · exact ih _ _ (by simpa using whole) later

end PageChain

theorem upTo_split {stops : Link Row → Bool} {done todo : List (Link Row)} {here : Link Row}
    (passed : ∀ link ∈ done, stops link = false) (stop : stops here = true) :
    upTo stops (done ++ here :: todo) = done ++ [here] := by
  induction done with
  | nil => simp [upTo, stop]
  | cons link done ih =>
    rw [List.cons_append, upTo, if_neg (by simp [passed link (by simp)]),
      ih fun other member => passed other (by simp [member])]
    rfl

section Sparse

variable {limit : Nat} {nothing : Link Row → Bool}

theorem Sparse.mono {links : List (Link Row)} {n m : Nat} (le : n ≤ m)
    (h : Sparse limit nothing m links) : Sparse limit nothing n links := by
  induction links generalizing n m with
  | nil => trivial
  | cons link rest ih =>
    unfold Sparse at h ⊢
    split
    · rename_i none_
      rw [if_pos none_] at h
      exact ⟨lt_of_le_of_lt le h.1, ih (Nat.succ_le_succ le) h.2⟩
    · rename_i some_
      rwa [if_neg some_] at h

theorem Sparse.lt {link : Link Row} {rest : List (Link Row)} {n : Nat}
    (h : Sparse limit nothing n (link :: rest)) (none_ : nothing link = true) : n < limit := by
  rw [Sparse, if_pos none_] at h
  exact h.1

theorem Sparse.tail {link : Link Row} {rest : List (Link Row)} {n : Nat}
    (h : Sparse limit nothing n (link :: rest)) :
    Sparse limit nothing (if nothing link then n + 1 else 0) rest := by
  unfold Sparse at h
  split at h
  · rename_i none_
    rw [if_pos none_]
    exact h.2
  · rename_i some_
    rwa [if_neg some_]

end Sparse

section Visited

variable {Q O I : Type}

theorem visited_append {os : Trace Q O I} (quiet : ∀ o ∈ os, o.isLookup = false)
    (earlier : Trace Q O I) : visited (os ++ earlier) = visited earlier := by
  induction os with
  | nil => rfl
  | cons o os ih =>
    have rest := ih fun p member => quiet p (by simp [member])
    cases o with
    | lookup cursor => cases quiet (.lookup cursor) (by simp)
    | _ => exact rest

end Visited

/-- What a walker keeps: `next` is the next cursor of the page it works on. -/
structure Walker where
  stage : Stage
  cursor : Option String
  next : Option String
  empties : Nat

def rank : Stage → Nat
  | .ready => 0
  | .idle => 1
  | .head => 2
  | .backoff => 3
  | .sent => 4
  | .asking => 0
  | .gone => 0

section Walk

variable (chain : PageChain Row) (stops nothing : Link Row → Bool) {Q O I : Type}

def Kept (v w : Walker) : Prop := w.cursor = v.cursor ∧ w.empties = v.empties

/-- A scan may end here: at a page the walker stops at, or after the last page. -/
def Ending (v : Walker) : Prop :=
  (v.stage = .asking ∧ ∃ link ∈ chain.links, link.cursor = v.cursor ∧ stops link = true) ∨
    (v.stage = .sent ∧ v.next = none)

/-- Moves of a walker that is served the chain. -/
inductive WalkMove : Walker → Trace Q O I → Walker → Prop
  | go {v w : Walker} : v.stage = .head → w.stage = .ready → Kept v w → WalkMove v [] w
  | park {v w : Walker} : v.stage = .head → v.cursor = none → w.stage = .idle → Kept v w →
      WalkMove v [.idleWait] w
  | wake {v w : Walker} : v.stage = .idle → w.stage = .ready → Kept v w → WalkMove v [] w
  | ask {v w : Walker} : v.stage = .ready → w.stage = .asking → Kept v w →
      WalkMove v [.lookup v.cursor] w
  | drain {v w : Walker} {os : Trace Q O I} {link : Link Row} : v.stage = .asking →
      link ∈ chain.links → link.cursor = v.cursor → stops link = false → nothing link = true →
      Quiet os → w.stage = .head → w.cursor = link.next → link.next.isSome = true →
      w.empties = v.empties + 1 → WalkMove v os w
  | hold {v w : Walker} {os : Trace Q O I} {link : Link Row} : v.stage = .asking →
      link ∈ chain.links → link.cursor = v.cursor → stops link = link.next.isNone →
      Quiet os → w.stage = .sent → w.cursor = v.cursor → w.next = link.next →
      w.empties ≤ v.empties → WalkMove v os w
  | follow {v w : Walker} {os : Trace Q O I} {link : Link Row} : v.stage = .sent →
      link ∈ chain.links → link.cursor = v.cursor → v.next.isSome = true → Quiet os →
      w.stage = .head → w.cursor = v.next →
      w.empties ≤ (if nothing link then v.empties + 1 else 0) → WalkMove v os w
  | finish {v w : Walker} {seen os : Trace Q O I} : Ending chain stops v → Quiet seen →
      (os = seen ∧ (w.stage = .head ∨ w.stage = .sent ∧ w.next = none ∧ v.stage = .asking) ∨
        ∃ attempt, os = .backoffWait attempt :: seen ∧ w.stage = .backoff) →
      w.cursor = none → w.empties = 0 → WalkMove v os w
  | resume {v w : Walker} : v.stage = .backoff → w.stage = .head → Kept v w → WalkMove v [] w
  | leave {v w : Walker} : w.stage = .gone → WalkMove v [] w

/-- Every scan that is over has asked for the cursors of `covered`. -/
def Whole (covered : List (Option String)) : Obs Q O I → Trace Q O I → Prop
  | .lookup none, earlier => earlier = [] ∨ visited earlier = covered
  | .idleWait, earlier => visited earlier = covered
  | .backoffWait _, earlier => visited earlier = covered
  | _, _ => True

variable (limit : Nat)

structure At (done : List (Link Row)) (here : Link Row) (todo : List (Link Row)) (v : Walker) :
    Prop where
  split_ : chain.links = done ++ here :: todo
  passed : ∀ link ∈ done, stops link = false
  cursor : v.cursor = here.cursor
  sparse : Sparse limit nothing v.empties (here :: todo)

/-- No link is being walked and the last walk covered what it should. -/
structure Over (v : Walker) (trace : Trace Q O I) : Prop where
  cursor : v.cursor = none
  empties : v.empties = 0
  last : v.stage = .sent → v.next = none
  lazy : v.stage ≠ .asking
  covered : visited trace = trail (upTo stops chain.links)

/-- Where the walker is, with the number of steps that are left at most. -/
inductive Walking : Nat → Walker → Trace Q O I → Prop
  | following {v : Walker} {trace : Trace Q O I} {done todo : List (Link Row)} {here : Link Row} :
      At chain stops nothing limit done here todo v → v.stage = .head ∨ v.stage = .ready →
      here.cursor.isSome = true → visited trace = trail done →
      Walking (10 * todo.length + 7 + rank v.stage) v trace
  | asking {v : Walker} {trace : Trace Q O I} {done todo : List (Link Row)} {here : Link Row} :
      At chain stops nothing limit done here todo v → v.stage = .asking →
      visited trace = trail (done ++ [here]) → Walking (10 * todo.length + 6) v trace
  | holding {v : Walker} {trace : Trace Q O I} {done todo : List (Link Row)} {here : Link Row} :
      At chain stops nothing limit done here todo v → v.stage = .sent → v.next = here.next →
      stops here = here.next.isNone → visited trace = trail (done ++ [here]) →
      Walking (10 * todo.length + 5) v trace
  | ended {v : Walker} {trace : Trace Q O I} : Over chain stops v trace →
      Walking (rank v.stage) v trace
  | gone {v : Walker} {trace : Trace Q O I} : v.stage = .gone → Walking 0 v trace

variable {chain stops nothing limit}

theorem trail_snoc (done : List (Link Row)) (here : Link Row) :
    trail (done ++ [here]) = here.cursor :: trail done := by
  simp [trail]

theorem At.link_eq {done todo : List (Link Row)} {here link : Link Row} {v : Walker}
    (at_ : At chain stops nothing limit done here todo v) (member : link ∈ chain.links)
    (cursor : link.cursor = v.cursor) : link = here :=
  chain.link_unique member (by rw [at_.split_]; simp) (cursor.trans at_.cursor)

theorem At.kept {done todo : List (Link Row)} {here : Link Row} {v w : Walker} (kept : Kept v w)
    (at_ : At chain stops nothing limit done here todo v) :
    At chain stops nothing limit done here todo w where
  split_ := at_.split_
  passed := at_.passed
  cursor := kept.1.trans at_.cursor
  sparse := kept.2 ▸ at_.sparse

theorem Over.kept {v w : Walker} {os trace : Trace Q O I} (kept : Kept v w)
    (ended : Over chain stops v trace) (lazy : w.stage ≠ .asking) (idle : w.stage ≠ .sent)
    (seen : visited (os ++ trace) = visited trace) : Over chain stops w (os ++ trace) where
  cursor := kept.1.trans ended.cursor
  empties := kept.2.trans ended.empties
  last sent := absurd sent idle
  lazy := lazy
  covered := seen.trans ended.covered

theorem At.forward {done todo : List (Link Row)} {here : Link Row} {v w : Walker}
    (at_ : At chain stops nothing limit done here todo v) (go : stops here = false)
    (more : here.next.isSome = true) (cursor : w.cursor = here.next)
    (empties : w.empties ≤ if nothing here then v.empties + 1 else 0) :
    ∃ next rest, todo = next :: rest ∧ next.cursor.isSome = true ∧
      At chain stops nothing limit (done ++ [here]) next rest w := by
  have follows := linksFrom_next at_.split_
  cases todo with
  | nil =>
    rw [follows] at more
    cases more
  | cons next rest =>
    have same : here.next = next.cursor := follows
    refine ⟨next, rest, rfl, by rw [← same]; exact more, ?_, ?_, cursor.trans same, ?_⟩
    · rw [at_.split_]
      simp
    · intro link member
      rcases List.mem_append.mp member with before | now
      · exact at_.passed link before
      · rw [List.mem_singleton.mp now]
        exact go
    · exact at_.sparse.tail.mono empties

theorem At.covers {done todo : List (Link Row)} {here : Link Row} {v : Walker}
    (at_ : At chain stops nothing limit done here todo v) (stop : stops here = true) :
    upTo stops chain.links = done ++ [here] := by
  rw [at_.split_, upTo_split at_.passed stop]

theorem PageChain.links_head (chain : PageChain Row) :
    ∃ here todo, chain.links = here :: todo ∧ here.cursor = none := by
  unfold PageChain.links
  cases chain.rest with
  | nil => exact ⟨_, _, rfl, rfl⟩
  | cons page rest => exact ⟨_, _, rfl, rfl⟩

theorem Walking.between {n : Nat} {v : Walker} {trace : Trace Q O I}
    (h : Walking chain stops nothing limit n v trace) (stage : v.stage = .head ∨ v.stage = .ready) :
    (∃ done here todo, At chain stops nothing limit done here todo v ∧
      here.cursor.isSome = true ∧ visited trace = trail done ∧
      n = 10 * todo.length + 7 + rank v.stage) ∨
    Over chain stops v trace ∧ n = rank v.stage := by
  cases h with
  | following at_ _ some_ seen => exact .inl ⟨_, _, _, at_, some_, seen, rfl⟩
  | ended ended => exact .inr ⟨ended, rfl⟩
  | asking _ there => simp [there] at stage
  | holding _ there => simp [there] at stage
  | gone there => simp [there] at stage

theorem Walking.resting {n : Nat} {v : Walker} {trace : Trace Q O I}
    (h : Walking chain stops nothing limit n v trace)
    (stage : v.stage = .idle ∨ v.stage = .backoff) : Over chain stops v trace ∧ n = rank v.stage := by
  cases h with
  | ended ended => exact ⟨ended, rfl⟩
  | following _ there => rcases there with there | there <;> simp [there] at stage
  | asking _ there => simp [there] at stage
  | holding _ there => simp [there] at stage
  | gone there => simp [there] at stage

theorem Walking.at_asking {n : Nat} {v : Walker} {trace : Trace Q O I}
    (h : Walking chain stops nothing limit n v trace) (stage : v.stage = .asking) :
    ∃ done here todo, At chain stops nothing limit done here todo v ∧
      visited trace = trail (done ++ [here]) ∧ n = 10 * todo.length + 6 := by
  cases h with
  | asking at_ _ seen => exact ⟨_, _, _, at_, seen, rfl⟩
  | ended ended => exact absurd stage ended.lazy
  | following _ there => rcases there with there | there <;> simp [there] at stage
  | holding _ there => simp [there] at stage
  | gone there => simp [there] at stage

theorem Walking.at_sent {n : Nat} {v : Walker} {trace : Trace Q O I}
    (h : Walking chain stops nothing limit n v trace) (stage : v.stage = .sent) :
    (∃ done here todo, At chain stops nothing limit done here todo v ∧ v.next = here.next ∧
      stops here = here.next.isNone ∧ visited trace = trail (done ++ [here]) ∧
      n = 10 * todo.length + 5) ∨ Over chain stops v trace ∧ n = 4 := by
  cases h with
  | holding at_ _ next stop seen => exact .inl ⟨_, _, _, at_, next, stop, seen, rfl⟩
  | ended ended => exact .inr ⟨ended, by rw [stage]; rfl⟩
  | following _ there => rcases there with there | there <;> simp [there] at stage
  | asking _ there => simp [there] at stage
  | gone there => simp [there] at stage

theorem everywhere_quiet {covered : List (Option String)} {os trace : Trace Q O I}
    (quiet : Quiet os) (h : Everywhere (Whole covered) trace) :
    Everywhere (Whole covered) (os ++ trace) := by
  refine everywhere_append (fun o member past => ?_) h
  have kind := quiet o member
  cases o with
  | lookup cursor => cases kind.1
  | idleWait => cases kind.2
  | backoffWait attempt => cases kind.2
  | _ => trivial

theorem visited_quiet {os : Trace Q O I} (quiet : Quiet os) (trace : Trace Q O I) :
    visited (os ++ trace) = visited trace :=
  visited_append (quiet_lookup quiet) trace

theorem Walking.covered {n : Nat} {v : Walker} {trace : Trace Q O I}
    (h : Walking chain stops nothing limit n v trace)
    (ending : Ending chain stops v) :
    visited trace = trail (upTo stops chain.links) ∧ 4 ≤ n ∧ (v.stage = .asking → 6 ≤ n) := by
  rcases ending with ⟨stage, link, member, cursor, stop⟩ | ⟨stage, last⟩
  · obtain ⟨done, here, todo, at_, seen, rfl⟩ := h.at_asking stage
    rw [at_.link_eq member cursor] at stop
    refine ⟨by rw [seen, at_.covers stop], by omega, fun _ => by omega⟩
  · rcases h.at_sent stage with ⟨done, here, todo, at_, next, stops_, seen, rfl⟩ | ⟨ended, rfl⟩
    · have stop : stops here = true := by
        rw [stops_, ← next, last]
        rfl
      refine ⟨by rw [seen, at_.covers stop], by omega, fun asking => ?_⟩
      simp [asking] at stage
    · exact ⟨ended.covered, le_refl _, fun asking => absurd asking ended.lazy⟩

theorem Walking.asks (sparse : Sparse limit nothing 0 chain.links) {n : Nat} {v w : Walker}
    {trace : Trace Q O I} (h : Walking chain stops nothing limit n v trace)
    (whole : Everywhere (Whole (trail (upTo stops chain.links))) trace)
    (stage : v.stage = .ready) (asking : w.stage = .asking) (kept : Kept v w) :
    ∃ m, Walking chain stops nothing limit m w (.lookup v.cursor :: trace) ∧
      Everywhere (Whole (trail (upTo stops chain.links))) (.lookup v.cursor :: trace) ∧
      (v.cursor = none ∨ m < n) := by
  rcases h.between (.inr stage) with ⟨done, here, todo, at_, some_, seen, rfl⟩ | ⟨ended, rfl⟩
  · obtain ⟨cursor, named⟩ := Option.isSome_iff_exists.mp some_
    have at_cursor : v.cursor = some cursor := at_.cursor.trans named
    refine ⟨_, .asking (at_.kept kept) asking ?_, ?_, .inr ?_⟩
    · rw [at_cursor, trail_snoc, named]
      exact congrArg _ seen
    · rw [at_cursor]
      exact everywhere_cons.mpr ⟨trivial, whole⟩
    · omega
  · obtain ⟨here, todo, head, fresh⟩ := chain.links_head
    have start : At chain stops nothing limit [] here todo v := by
      refine ⟨head, by simp, ended.cursor.trans fresh.symm, ?_⟩
      rw [← head]
      exact ended.empties ▸ sparse
    refine ⟨_, .asking (start.kept kept) asking ?_, ?_, .inl ended.cursor⟩
    · rw [ended.cursor]
      simp [visited, trail, fresh]
    · rw [ended.cursor]
      exact everywhere_cons.mpr ⟨.inr ended.covered, whole⟩

theorem Walking.finishes {n : Nat} {v w : Walker} {seen os trace : Trace Q O I}
    (h : Walking chain stops nothing limit n v trace)
    (whole : Everywhere (Whole (trail (upTo stops chain.links))) trace)
    (ending : Ending chain stops v) (quiet : Quiet seen)
    (shape : os = seen ∧ (w.stage = .head ∨ w.stage = .sent ∧ w.next = none ∧ v.stage = .asking) ∨
      ∃ attempt, os = .backoffWait attempt :: seen ∧ w.stage = .backoff)
    (none_ : w.cursor = none) (empties : w.empties = 0) :
    ∃ m, Walking chain stops nothing limit m w (os ++ trace) ∧
      Everywhere (Whole (trail (upTo stops chain.links))) (os ++ trace) ∧ m < n := by
  obtain ⟨covered, four, six⟩ := h.covered ending
  have after : visited (seen ++ trace) = trail (upTo stops chain.links) :=
    (visited_quiet quiet trace).trans covered
  rcases shape with ⟨rfl, head | ⟨sent, last, asking⟩⟩ | ⟨attempt, rfl, backoff⟩
  · refine ⟨_, .ended ⟨none_, empties, by simp [head], by simp [head], after⟩,
      everywhere_quiet quiet whole, ?_⟩
    rw [head]
    simp only [rank]
    omega
  · have more := six asking
    refine ⟨_, .ended ⟨none_, empties, fun _ => last, by simp [sent], after⟩,
      everywhere_quiet quiet whole, ?_⟩
    rw [sent]
    simp only [rank]
    omega
  · refine ⟨_, .ended ⟨none_, empties, by simp [backoff], by simp [backoff], after⟩,
      everywhere_cons.mpr ⟨after, everywhere_quiet quiet whole⟩, ?_⟩
    rw [backoff]
    simp only [rank]
    omega

theorem WalkMove.walking (sparse : Sparse limit nothing 0 chain.links) {n : Nat} {v w : Walker}
    {os trace : Trace Q O I} (h : Walking chain stops nothing limit n v trace)
    (whole : Everywhere (Whole (trail (upTo stops chain.links))) trace)
    (move : WalkMove chain stops nothing v os w) :
    ∃ m, Walking chain stops nothing limit m w (os ++ trace) ∧
      Everywhere (Whole (trail (upTo stops chain.links))) (os ++ trace) ∧
      (os = [.lookup none] ∨ w.stage = .gone ∨ m < n) := by
  cases move with
  | go stage ready kept =>
    rcases h.between (.inl stage) with ⟨done, here, todo, at_, some_, seen, rfl⟩ | ⟨ended, rfl⟩
    · refine ⟨_, .following (at_.kept kept) (.inr ready) some_ seen, whole, .inr (.inr ?_)⟩
      simp [rank, stage, ready]
    · refine ⟨_, .ended (ended.kept kept (by simp [ready]) (by simp [ready]) rfl), whole,
        .inr (.inr ?_)⟩
      simp [rank, stage, ready]
  | park stage none_ idle kept =>
    rcases h.between (.inl stage) with ⟨done, here, todo, at_, some_, seen, rfl⟩ | ⟨ended, rfl⟩
    · rw [← at_.cursor, none_] at some_
      cases some_
    · refine ⟨_, .ended (ended.kept kept (by simp [idle]) (by simp [idle]) rfl),
        everywhere_cons.mpr ⟨ended.covered, whole⟩, .inr (.inr ?_)⟩
      simp [rank, stage, idle]
  | wake stage ready kept =>
    obtain ⟨ended, rfl⟩ := h.resting (.inl stage)
    refine ⟨_, .ended (ended.kept kept (by simp [ready]) (by simp [ready]) rfl), whole,
      .inr (.inr ?_)⟩
    simp [rank, stage, ready]
  | resume stage head kept =>
    obtain ⟨ended, rfl⟩ := h.resting (.inr stage)
    refine ⟨_, .ended (ended.kept kept (by simp [head]) (by simp [head]) rfl), whole,
      .inr (.inr ?_)⟩
    simp [rank, stage, head]
  | ask stage asking kept =>
    obtain ⟨m, walking, everywhere, fresh | nearer⟩ := h.asks sparse whole stage asking kept
    · exact ⟨m, walking, everywhere, .inl (by rw [fresh])⟩
    · exact ⟨m, walking, everywhere, .inr (.inr nearer)⟩
  | drain stage member cursor go none_ quiet head forward more empties =>
    obtain ⟨done, here, todo, at_, seen, rfl⟩ := h.at_asking stage
    rw [at_.link_eq member cursor] at go none_ forward more
    obtain ⟨next, rest, rfl, some_, further⟩ :=
      at_.forward go more forward (by rw [if_pos none_, empties])
    refine ⟨_, .following further (.inl head) some_ ((visited_quiet quiet _).trans seen),
      everywhere_quiet quiet whole, .inr (.inr ?_)⟩
    rw [head, List.length_cons]
    simp only [rank]
    omega
  | hold stage member cursor stop quiet sent same next empties =>
    obtain ⟨done, here, todo, at_, seen, rfl⟩ := h.at_asking stage
    rw [at_.link_eq member cursor] at stop next
    refine ⟨_, .holding ⟨at_.split_, at_.passed, same.trans at_.cursor, at_.sparse.mono empties⟩ sent
      next stop ((visited_quiet quiet _).trans seen), everywhere_quiet quiet whole,
      .inr (.inr ?_)⟩
    omega
  | follow stage member cursor more quiet head forward empties =>
    rcases h.at_sent stage with ⟨done, here, todo, at_, next, stop, seen, rfl⟩ | ⟨ended, rfl⟩
    · rw [at_.link_eq member cursor] at empties
      rw [next] at more forward
      have go : stops here = false := by
        rw [stop]
        cases link : here.next with
        | none => simp [link] at more
        | some _ => rfl
      obtain ⟨later, rest, rfl, some_, further⟩ := at_.forward go more forward empties
      refine ⟨_, .following further (.inl head) some_ ((visited_quiet quiet _).trans seen),
        everywhere_quiet quiet whole, .inr (.inr ?_)⟩
      rw [head, List.length_cons]
      simp only [rank]
      omega
    · rw [ended.last stage] at more
      cases more
  | finish ending quiet shape none_ empties =>
    obtain ⟨m, walking, everywhere, nearer⟩ :=
      h.finishes whole ending quiet shape none_ empties
    exact ⟨m, walking, everywhere, .inr (.inr nearer)⟩
  | leave gone => exact ⟨0, .gone gone, whole, .inr (.inl gone)⟩

section Refinement

variable {σ ε : Type} {ok : σ × Trace Q O I → ε → Prop}
  {step : σ → ε → Option (σ × Trace Q O I)} {walker : σ → Walker}

/-- From a fresh lookup on, every scan asks for the cursors of `covered` before it
waits or looks at the head again, and it can always go on to the next scan. -/
structure Walks (ok : σ × Trace Q O I → ε → Prop) (step : σ → ε → Option (σ × Trace Q O I))
    (walker : σ → Walker) (covered : List (Option String)) (s : σ) : Prop where
  whole : ∀ es at_, Path (gated ok (traced step)) (s, [.lookup none]) es at_ →
    Everywhere (Whole covered) at_.2
  ends : ∀ es at_, Path (gated ok (traced step)) (s, [.lookup none]) es at_ →
    (walker at_.1).stage ≠ .gone → ∃ fs t scan,
      Path (gated ok (traced step)) at_ fs (t, .lookup none :: scan) ∧ scan ≠ []

theorem Walks.unique {covered other : List (Option String)} {s : σ}
    (here : (walker s).stage ≠ .gone) (h : Walks ok step walker covered s)
    (h' : Walks ok step walker other s) : covered = other := by
  obtain ⟨fs, t, scan, path, some_⟩ := h.ends [] (s, [.lookup none]) .refl here
  have first := h.whole _ _ path _ _ (List.suffix_refl _)
  have second := h'.whole _ _ path _ _ (List.suffix_refl _)
  rcases first with none_ | first
  · exact absurd none_ some_
  rcases second with none_ | second
  · exact absurd none_ some_
  exact first.symm.trans second

variable {sane : σ → Prop} (sparse : Sparse limit nothing 0 chain.links)
  (moves : ∀ at_ e t os, sane at_.1 → ok at_ e →
    (∃ n, Walking chain stops nothing limit n (walker at_.1) at_.2) →
    step at_.1 e = some (t, os) → WalkMove chain stops nothing (walker at_.1) os (walker t) ∧ sane t)

include sparse moves

theorem walking_path {s : σ} {es : List ε} {at_ : σ × Trace Q O I} {n : Nat} (start : sane s)
    (asked : Walking chain stops nothing limit n (walker s) ([.lookup none] : Trace Q O I))
    (path : Path (gated ok (traced step)) (s, [.lookup none]) es at_) :
    sane at_.1 ∧ (∃ m, Walking chain stops nothing limit m (walker at_.1) at_.2) ∧
      Everywhere (Whole (trail (upTo stops chain.links))) at_.2 ∧ at_.2 ≠ [] := by
  refine path.invariant (I := fun at_ => sane at_.1 ∧
    (∃ m, Walking chain stops nothing limit m (walker at_.1) at_.2) ∧
      Everywhere (Whole (trail (upTo stops chain.links))) at_.2 ∧ at_.2 ≠ []) ?_
    ⟨start, ⟨n, asked⟩, everywhere_cons.mpr ⟨.inl rfl, Everywhere.nil _⟩, List.cons_ne_nil _ _⟩
  rintro ⟨s, before⟩ e ⟨t, after⟩ ⟨sane_, ⟨m, walking⟩, whole, some_⟩ ⟨allowed, os, stepped, rest⟩
  obtain ⟨move, next⟩ := moves (s, before) e t os sane_ allowed ⟨m, walking⟩ stepped
  obtain ⟨k, later, whole', -⟩ := move.walking sparse walking whole
  rw [rest]
  exact ⟨next, ⟨k, later⟩, whole', by simp [some_]⟩

variable (alive : ∀ at_, sane at_.1 →
  (∃ n, Walking chain stops nothing limit n (walker at_.1) at_.2) →
  (walker at_.1).stage ≠ .gone → ∃ e t os, ok at_ e ∧ step at_.1 e = some (t, os) ∧
    (walker t).stage ≠ .gone)

include alive

/-- Fewer and fewer steps are left to the next fresh lookup. -/
theorem reaches_fresh (n : Nat) : ∀ at_ : σ × Trace Q O I, sane at_.1 →
    Walking chain stops nothing limit n (walker at_.1) at_.2 →
    Everywhere (Whole (trail (upTo stops chain.links))) at_.2 → at_.2 ≠ [] →
    (walker at_.1).stage ≠ .gone → ∃ fs t scan,
      Path (gated ok (traced step)) at_ fs (t, .lookup none :: scan) ∧ scan ≠ [] := by
  induction n using Nat.strong_induction_on with
  | _ n ih =>
    intro at_ sane_ walking whole some_ here
    obtain ⟨e, t, os, allowed, stepped, stays⟩ := alive at_ sane_ ⟨n, walking⟩ here
    have one : Path (gated ok (traced step)) at_ [e] (t, os ++ at_.2) :=
      Path.single ⟨allowed, os, stepped, rfl⟩
    obtain ⟨move, next⟩ := moves at_ e t os sane_ allowed ⟨n, walking⟩ stepped
    obtain ⟨m, later, whole', nearer⟩ := move.walking sparse walking whole
    rcases nearer with rfl | gone | less
    · exact ⟨[e], t, at_.2, one, some_⟩
    · exact absurd gone stays
    · obtain ⟨fs, u, scan, path, rest⟩ := ih m less (t, os ++ at_.2) next later whole'
        (by simp [some_]) stays
      exact ⟨[e] ++ fs, u, scan, one.trans path, rest⟩

/-- A program whose steps are moves of the walker walks the chain, up to the
first link it stops at. -/
theorem walks {s : σ} (start : sane s) (stage : (walker s).stage = .asking)
    (cursor : (walker s).cursor = none) (empties : (walker s).empties = 0) :
    Walks ok step walker (trail (upTo stops chain.links)) s := by
  obtain ⟨here, todo, head, fresh⟩ := chain.links_head
  have at_ : At chain stops nothing limit [] here todo (walker s) := by
    refine ⟨head, by simp, cursor.trans fresh.symm, ?_⟩
    rw [← head]
    exact empties ▸ sparse
  have asked : Walking chain stops nothing limit _ (walker s) ([.lookup none] : Trace Q O I) :=
    .asking at_ stage (by simp [visited, trail, fresh])
  constructor
  · intro es reached path
    exact (walking_path sparse moves start asked path).2.2.1
  · intro es reached path stays
    obtain ⟨sane_, ⟨m, walking⟩, whole, some_⟩ := walking_path sparse moves start asked path
    exact reaches_fresh sparse moves alive m reached sane_ walking whole some_ stays

end Refinement

end Walk

end WalletDaemon.PageWalk
