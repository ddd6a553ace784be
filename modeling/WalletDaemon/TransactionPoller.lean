import WalletDaemon.Retry
import WalletDaemon.ScanLoop
import WalletDaemon.TransactionHandler

/-! The transaction poller, one step for each of its awaits.
What the trigger answers to `finish_batch` comes with the event that leads to
the call. The processor's answer to a tick is an event as well. -/

namespace WalletDaemon.TransactionPoller

open Platform Retry ScanLoop

abbrev Shown := Obs TransactionRequest BatchOutcome (Finset ChainKey)

structure PendingPage where
  data : List PendingTransaction
  nextCursor : Option String
deriving DecidableEq, Repr

/-- The requests of the rows that convert. -/
def convertible (page : PendingPage) : List TransactionRequest :=
  page.data.filterMap fun row => (TransactionRequest.tryFrom row).toOption

/-- An empty cursor is no cursor. -/
def next (page : PendingPage) : Option String := page.nextCursor.filter (· ≠ "")

def getPendingTransactions (send : Send (Option PendingPage)) :
    Except String (List TransactionRequest × Option String) :=
  match executeQuery send none with
  | .error e => .error e
  | .ok none => .error noTransactionsMsg
  | .ok (some page) =>
    if page.data.isEmpty then .error noTransactionsMsg
    else .ok (convertible page, next page)

def shown (send : Send (Option PendingPage)) : Shown :=
  match executeQuery send none with
  | .error _ => .failed
  | .ok none => .noResult
  | .ok (some page) => .page (convertible page) (next page)

inductive BatchStep
  | continue (cursor : Option String) (madeProgress requiresFreshRetry : Bool)
  | retryFresh
deriving DecidableEq, Repr

def batchStep (outcome : BatchOutcome) (cursor nextCursor : Option String)
    (unproductivePages : Nat) : BatchStep :=
  match outcome with
  | .completed => .continue nextCursor true false
  | .partialProgress => .continue nextCursor true true
  | .skipped =>
    if shouldContinueEmptyDrain cursor nextCursor unproductivePages then
      .continue nextCursor false true
    else .retryFresh
  | .submissionFailed => .retryFresh

/-- Where the loop is. `sent` awaits the answer to a page's batch, and `idleSent`
to a tick without a batch. -/
inductive Phase
  | loopHead
  | idleWait
  | ready
  | lookup (fresh : Bool)
  | sent (nextCursor : Option String)
  | idleSent (fresh : Bool)
  | retryWait
  | exited
deriving DecidableEq, Repr

structure State where
  phase : Phase
  cursor : Option String
  fetchNow : Bool
  failureCount : Nat
  scanRetry : Bool
  unproductivePages : Nat
  previousScanChains : Finset ChainKey
  currentScanChains : Finset ChainKey
deriving DecidableEq

/-- Startup catches up at once. -/
def initial : State where
  phase := .loopHead
  cursor := none
  fetchNow := true
  failureCount := 0
  scanRetry := false
  unproductivePages := 0
  previousScanChains := ∅
  currentScanChains := ∅

def idleChains (s : State) : Finset ChainKey := s.previousScanChains \ s.currentScanChains

def completeChainScan (s : State) : State :=
  { s with previousScanChains := s.currentScanChains, currentScanChains := ∅ }

/-- Count a failure and wait; what follows is a lookup. -/
def backoff (s : State) (seen : List Shown) : State × List Shown :=
  ({ s with
      phase := .retryWait
      failureCount := saturatingSucc s.failureCount
      scanRetry := false
      fetchNow := true }, .backoffWait s.failureCount :: seen)

/-- A scan that left pending work is followed by a wait. -/
def finishScanRetry (s : State) (deferred : Bool) (seen : List Shown) : State × List Shown :=
  if s.scanRetry then backoff s seen
  else ({ s with phase := .loopHead, failureCount := 0, fetchNow := deferred }, seen)

/-- The end of a scan without a batch to send. Only a continued scan asks the
trigger for deferred work. -/
def endScan (s : State) (fresh deferred : Bool) (seen : Shown) : State × List Shown :=
  let idle := idleChains s
  let s := completeChainScan s
  if idle = ∅ then finishScanRetry s (!fresh && deferred) [seen]
  else ({ s with phase := .idleSent fresh }, [.tick [] idle, seen])

def chainKeys (requests : List TransactionRequest) : Finset ChainKey :=
  (requests.map TransactionRequest.chainKey).toFinset

def onPage (s : State) (fresh deferred : Bool) (requests : List TransactionRequest)
    (nextCursor : Option String) (seen : Shown) : State × List Shown :=
  if requests.isEmpty then
    if shouldContinueEmptyDrain s.cursor nextCursor s.unproductivePages then
      ({ s with
          phase := .loopHead
          unproductivePages := s.unproductivePages + 1
          cursor := nextCursor
          scanRetry := true
          fetchNow := true }, [seen])
    else
      endScan { s with
        scanRetry := s.scanRetry || nextCursor.isSome
        unproductivePages := 0
        cursor := none } fresh deferred seen
  else
    let s := { s with
      phase := .sent nextCursor
      currentScanChains := s.currentScanChains ∪ chainKeys requests }
    if nextCursor.isNone then
      (completeChainScan s, [.tick requests (idleChains s), seen])
    else (s, [.tick requests ∅, seen])

def onError (s : State) (fresh deferred : Bool) (error : String) (seen : Shown) :
    State × List Shown :=
  let s := { s with cursor := none, unproductivePages := 0 }
  if error = noTransactionsMsg then endScan s fresh deferred seen
  else backoff { s with currentScanChains := ∅ } [seen]

def onReply (s : State) (fresh deferred : Bool) (send : Send (Option PendingPage)) :
    State × List Shown :=
  match getPendingTransactions send with
  | .ok (requests, nextCursor) => onPage s fresh deferred requests nextCursor (shown send)
  | .error error => onError s fresh deferred error (shown send)

def onOutcome (s : State) (nextCursor : Option String) (deferred : Bool)
    (outcome : BatchOutcome) : State × List Shown :=
  match batchStep outcome s.cursor nextCursor s.unproductivePages with
  | .continue cursor madeProgress requiresFreshRetry =>
    let s := if madeProgress then
        { s with
          unproductivePages := 0
          failureCount := if s.scanRetry then s.failureCount else 0 }
      else { s with unproductivePages := s.unproductivePages + 1 }
    let s := { s with scanRetry := s.scanRetry || requiresFreshRetry, cursor }
    if cursor.isNone then finishScanRetry s deferred [.outcome outcome]
    else ({ s with phase := .loopHead, fetchNow := true }, [.outcome outcome])
  | .retryFresh =>
    backoff { s with cursor := none, currentScanChains := ∅, unproductivePages := 0 }
      [.outcome outcome]

inductive Event
  | start
  | wake
  | begin
  | reply (send : Send (Option PendingPage)) (deferred : Bool)
  | ack (outcome : BatchOutcome) (deferred : Bool)
  | consumerGone
  | delayOver

def step (s : State) : Event → Option (State × List Shown)
  | .start =>
    if s.phase = .loopHead then
      if s.fetchNow then some ({ s with phase := .ready }, [])
      else some ({ s with phase := .idleWait }, [.idleWait])
    else none
  | .wake => if s.phase = .idleWait then some ({ s with phase := .ready }, []) else none
  | .begin =>
    if s.phase = .ready then
      some ({ s with
          phase := .lookup s.cursor.isNone
          currentScanChains := if s.cursor.isNone then ∅ else s.currentScanChains },
        [.lookup s.cursor])
    else none
  | .reply send deferred =>
    match s.phase with
    | .lookup fresh => some (onReply s fresh deferred send)
    | _ => none
  | .ack outcome deferred =>
    match s.phase with
    | .sent nextCursor => some (onOutcome s nextCursor deferred outcome)
    | .idleSent fresh => some (finishScanRetry s (!fresh && deferred) [])
    | _ => none
  | .consumerGone =>
    match s.phase with
    | .sent _ => some ({ s with phase := .exited }, [])
    | .idleSent _ => some ({ s with phase := .exited }, [])
    | _ => none
  | .delayOver => if s.phase = .retryWait then some ({ s with phase := .loopHead }, []) else none

inductive Stepped (s : State) : Event → State × List Shown → Prop
  | go : s.phase = .loopHead → s.fetchNow = true →
      Stepped s .start ({ s with phase := .ready }, [])
  | park : s.phase = .loopHead → s.fetchNow = false →
      Stepped s .start ({ s with phase := .idleWait }, [.idleWait])
  | wake : s.phase = .idleWait → Stepped s .wake ({ s with phase := .ready }, [])
  | begin : s.phase = .ready → Stepped s .begin ({ s with
      phase := .lookup s.cursor.isNone
      currentScanChains := if s.cursor.isNone then ∅ else s.currentScanChains }, [.lookup s.cursor])
  | reply (send : Send (Option PendingPage)) (deferred fresh : Bool) {result : State × List Shown} :
      s.phase = .lookup fresh → onReply s fresh deferred send = result →
        Stepped s (.reply send deferred) result
  | ack (outcome : BatchOutcome) (deferred : Bool) (nextCursor : Option String)
      {result : State × List Shown} : s.phase = .sent nextCursor →
      onOutcome s nextCursor deferred outcome = result → Stepped s (.ack outcome deferred) result
  | idleAck (outcome : BatchOutcome) (deferred fresh : Bool) {result : State × List Shown} :
      s.phase = .idleSent fresh → finishScanRetry s (!fresh && deferred) [] = result →
        Stepped s (.ack outcome deferred) result
  | gone : ((∃ nextCursor, s.phase = .sent nextCursor) ∨ ∃ fresh, s.phase = .idleSent fresh) →
      Stepped s .consumerGone ({ s with phase := .exited }, [])
  | resume : s.phase = .retryWait → Stepped s .delayOver ({ s with phase := .loopHead }, [])

theorem step_cases {s : State} {e : Event} {result : State × List Shown}
    (h : step s e = some result) : Stepped s e result := by
  cases e with
  | start =>
    simp only [step] at h
    split at h
    · rename_i phase
      split at h
      · rename_i fetch
        cases h
        exact .go phase fetch
      · rename_i off
        cases h
        exact .park phase (by simpa using off)
    · cases h
  | wake =>
    simp only [step] at h
    split at h
    · rename_i phase
      cases h
      exact .wake phase
    · cases h
  | begin =>
    simp only [step] at h
    split at h
    · rename_i phase
      cases h
      exact .begin phase
    · cases h
  | reply send deferred =>
    simp only [step] at h
    split at h
    · rename_i fresh phase
      exact .reply send deferred fresh phase (Option.some.inj h)
    · cases h
  | ack outcome deferred =>
    simp only [step] at h
    split at h
    · rename_i nextCursor phase
      exact .ack outcome deferred nextCursor phase (Option.some.inj h)
    · rename_i fresh phase
      exact .idleAck outcome deferred fresh phase (Option.some.inj h)
    · cases h
  | consumerGone =>
    simp only [step] at h
    split at h
    · rename_i nextCursor phase
      cases h
      exact .gone (.inl ⟨nextCursor, phase⟩)
    · rename_i fresh phase
      cases h
      exact .gone (.inr ⟨fresh, phase⟩)
    · cases h
  | delayOver =>
    simp only [step] at h
    split at h
    · rename_i phase
      cases h
      exact .resume phase
    · cases h

/-- A page without rows that has a next cursor is read as the end of the queue. -/
def HidesNext (send : Send (Option PendingPage)) : Prop :=
  ∃ page, executeQuery send none = .ok (some page) ∧ page.data = [] ∧ next page ≠ none

theorem getPendingTransactions_failed {send : Send (Option PendingPage)} {e : String}
    (h : executeQuery send none = .error e) :
    getPendingTransactions send = .error e ∧ e ≠ noTransactionsMsg ∧ shown send = .failed := by
  refine ⟨?_, executeQuery_error_ne_noTransactionsMsg send none h, ?_⟩
  · rw [getPendingTransactions, h]
  · rw [shown, h]

theorem convertible_nil {page : PendingPage} (h : page.data = []) : convertible page = [] := by
  rw [convertible, h]
  rfl

/-- What a reply is to the loop, and what it shows. -/
inductive ReplyKind (send : Send (Option PendingPage)) : Prop
  | failed (e : String) : getPendingTransactions send = .error e → e ≠ noTransactionsMsg →
      shown send = .failed → ReplyKind send
  | noResult : getPendingTransactions send = .error noTransactionsMsg → shown send = .noResult →
      ReplyKind send
  | noRows (nextCursor : Option String) :
      getPendingTransactions send = .error noTransactionsMsg →
      shown send = .page [] nextCursor → (nextCursor ≠ none → HidesNext send) → ReplyKind send
  | rows (requests : List TransactionRequest) (nextCursor : Option String) :
      getPendingTransactions send = .ok (requests, nextCursor) →
      shown send = .page requests nextCursor → ReplyKind send

theorem replyKind (send : Send (Option PendingPage)) : ReplyKind send := by
  cases result : executeQuery send none with
  | error e =>
    have facts := getPendingTransactions_failed result
    exact .failed e facts.1 facts.2.1 facts.2.2
  | ok data =>
    cases data with
    | none => exact .noResult (by rw [getPendingTransactions, result]) (by rw [shown, result])
    | some page =>
      have seen : shown send = .page (convertible page) (next page) := by rw [shown, result]
      by_cases empty : page.data = []
      · refine .noRows (next page) ?_ ?_ fun some_ => ⟨page, result, empty, some_⟩
        · rw [getPendingTransactions, result]
          simp [empty]
        · rw [seen, convertible_nil empty]
      · refine .rows (convertible page) (next page) ?_ seen
        rw [getPendingTransactions, result]
        simp [empty]

theorem hidesNext_answers {page : PendingPage} :
    HidesNext (answers (some page)) ↔ page.data = [] ∧ next page ≠ none := by
  constructor
  · rintro ⟨shown, same, empty, some_⟩
    obtain rfl : page = shown := Option.some.inj (Except.ok.inj same)
    exact ⟨empty, some_⟩
  · rintro ⟨empty, some_⟩
    exact ⟨page, rfl, empty, some_⟩

section Rows

/-- A pending transaction of one zero byte. -/
def zeroRow (uuid : String) (chain : Chain) : PendingTransaction where
  uuid
  encodedData := "0x00"
  walletExternalId := none
  network := .known .enjin
  chain := .known chain
  shouldSignFuelTank := false
  fuelTankSignerExternalId := none

/-- A pending transaction that names no bytes. -/
def brokenRow (uuid : String) (chain : Chain) : PendingTransaction :=
  { zeroRow uuid chain with encodedData := "" }

def zeroRequest (uuid : String) (chain : Chain) : TransactionRequest where
  requestId := uuid
  externalId := none
  network := .enjin
  chain
  payload := [0]
  fuelTankSignerExternalId := none

example : convertible ⟨[brokenRow "a" .relay, zeroRow "b" .matrix], none⟩ =
    [zeroRequest "b" .matrix] := by decide

end Rows

end WalletDaemon.TransactionPoller
