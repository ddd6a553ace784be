import WalletDaemon.Retry
import WalletDaemon.ScanLoop
import WalletDaemon.TransactionRequest

/-! The managed-wallet poller, one step for each of its awaits. A batch is a
page's convertible rows. -/

namespace WalletDaemon.WalletPoller

open Platform Retry ScanLoop

structure ManagedWallet where
  externalId : Option String
deriving DecidableEq, Repr

structure DeriveWalletRequest where
  externalId : String
deriving DecidableEq, Repr

def DeriveWalletRequest.tryFrom (data : ManagedWallet) : Except String DeriveWalletRequest :=
  match data.externalId with
  | some externalId => .ok ⟨externalId⟩
  | none => .error "No external id"

inductive BatchOutcome
  | completed
  | submissionFailed
deriving DecidableEq, Repr

abbrev Shown := Obs DeriveWalletRequest BatchOutcome Unit

structure PendingPage where
  data : List ManagedWallet
  nextCursor : Option String
deriving DecidableEq, Repr

def convertible (page : PendingPage) : List DeriveWalletRequest :=
  page.data.filterMap fun row => (DeriveWalletRequest.tryFrom row).toOption

def next (page : PendingPage) : Option String := page.nextCursor.filter (· ≠ "")

/-- A reply without a result is an empty page. -/
def getPendingWallets (send : Send (Option PendingPage)) :
    Except String (List DeriveWalletRequest × Option String) :=
  match executeQuery send none with
  | .error e => .error e
  | .ok none => .ok ([], none)
  | .ok (some page) => .ok (convertible page, next page)

def shown (send : Send (Option PendingPage)) : Shown :=
  match executeQuery send none with
  | .error _ => .failed
  | .ok none => .noResult
  | .ok (some page) => .page (convertible page) (next page)

/-- What to do after one page of a scan. -/
inductive WalletStep
  | continue (cursor : Option String) (restartAfterScan resetFailures fetchNow : Bool)
  | delayThenFetch (cursor : Option String) (restartAfterScan : Bool) (reason : String)
deriving DecidableEq, Repr

def walletStep (outcome : BatchOutcome) (nextCursor : Option String)
    (restartAfterScan deferred : Bool) : WalletStep :=
  match outcome with
  | .completed =>
    if nextCursor.isNone && restartAfterScan then
      .delayThenFetch none false "Managed-wallet scan left pending work"
    else .continue nextCursor restartAfterScan (!restartAfterScan) (nextCursor.isSome || deferred)
  | .submissionFailed =>
    .delayThenFetch nextCursor nextCursor.isSome "Managed-wallet batch submission failed"

def emptyScanStep (restartAfterScan deferred : Bool) : WalletStep :=
  if restartAfterScan then
    .delayThenFetch none false "Managed-wallet scan skipped unconvertible rows"
  else .continue none false true deferred

inductive Phase
  | loopHead
  | idleWait
  | ready
  | lookup (fresh : Bool)
  | sent (nextCursor : Option String)
  | retryWait
  | exited
deriving DecidableEq, Repr

structure State where
  phase : Phase
  cursor : Option String
  fetchNow : Bool
  failureCount : Nat
  restartAfterScan : Bool
  emptyPages : Nat
deriving DecidableEq, Repr

def initial : State where
  phase := .loopHead
  cursor := none
  fetchNow := true
  failureCount := 0
  restartAfterScan := false
  emptyPages := 0

def applyStep (s : State) (step : WalletStep) (seen : List Shown) : State × List Shown :=
  match step with
  | .continue cursor restartAfterScan resetFailures fetchNow =>
    ({ s with
        phase := .loopHead
        cursor
        restartAfterScan
        failureCount := if resetFailures then 0 else s.failureCount
        fetchNow }, seen)
  | .delayThenFetch cursor restartAfterScan _ =>
    ({ s with
        phase := .retryWait
        cursor
        restartAfterScan
        failureCount := saturatingSucc s.failureCount
        fetchNow := true }, .backoffWait s.failureCount :: seen)

def onPage (s : State) (fresh deferred : Bool) (requests : List DeriveWalletRequest)
    (nextCursor : Option String) (seen : Shown) : State × List Shown :=
  if requests.isEmpty then
    if shouldContinueEmptyDrain s.cursor nextCursor s.emptyPages then
      ({ s with
          phase := .loopHead
          emptyPages := s.emptyPages + 1
          cursor := nextCursor
          restartAfterScan := true
          fetchNow := true }, [seen])
    else
      let restartAfterScan := s.restartAfterScan || nextCursor.isSome
      applyStep { s with emptyPages := 0 } (emptyScanStep restartAfterScan (!fresh && deferred))
        [seen]
  else ({ s with phase := .sent nextCursor, emptyPages := 0 }, [.tick requests (), seen])

def onReply (s : State) (fresh deferred : Bool) (send : Send (Option PendingPage)) :
    State × List Shown :=
  match getPendingWallets send with
  | .ok (requests, nextCursor) => onPage s fresh deferred requests nextCursor (shown send)
  | .error _ =>
    applyStep { s with emptyPages := 0 }
      (.delayThenFetch none false "GetPendingManagedWalletCreations failed") [shown send]

inductive Event
  | start
  | wake
  | begin
  | reply (send : Send (Option PendingPage)) (deferred : Bool)
  | ack (outcome : BatchOutcome) (deferred : Bool)
  | consumerGone
  | delayOver

def step (s : State) : Event → Option (State × List Shown)
  | .start =>
    if s.phase = .loopHead then
      if s.fetchNow then some ({ s with phase := .ready }, [])
      else some ({ s with phase := .idleWait }, [.idleWait])
    else none
  | .wake => if s.phase = .idleWait then some ({ s with phase := .ready }, []) else none
  | .begin =>
    if s.phase = .ready then
      some ({ s with phase := .lookup s.cursor.isNone }, [.lookup s.cursor])
    else none
  | .reply send deferred =>
    match s.phase with
    | .lookup fresh => some (onReply s fresh deferred send)
    | _ => none
  | .ack outcome deferred =>
    match s.phase with
    | .sent nextCursor =>
      some (applyStep s (walletStep outcome nextCursor s.restartAfterScan deferred)
        [.outcome outcome])
    | _ => none
  | .consumerGone =>
    match s.phase with
    | .sent _ => some ({ s with phase := .exited }, [])
    | _ => none
  | .delayOver => if s.phase = .retryWait then some ({ s with phase := .loopHead }, []) else none

inductive Stepped (s : State) : Event → State × List Shown → Prop
  | go : s.phase = .loopHead → s.fetchNow = true →
      Stepped s .start ({ s with phase := .ready }, [])
  | park : s.phase = .loopHead → s.fetchNow = false →
      Stepped s .start ({ s with phase := .idleWait }, [.idleWait])
  | wake : s.phase = .idleWait → Stepped s .wake ({ s with phase := .ready }, [])
  | begin : s.phase = .ready →
      Stepped s .begin ({ s with phase := .lookup s.cursor.isNone }, [.lookup s.cursor])
  | reply (send : Send (Option PendingPage)) (deferred fresh : Bool) {result : State × List Shown} :
      s.phase = .lookup fresh → onReply s fresh deferred send = result →
        Stepped s (.reply send deferred) result
  | ack (outcome : BatchOutcome) (deferred : Bool) (nextCursor : Option String)
      {result : State × List Shown} : s.phase = .sent nextCursor →
      applyStep s (walletStep outcome nextCursor s.restartAfterScan deferred) [.outcome outcome] =
        result → Stepped s (.ack outcome deferred) result
  | gone (nextCursor : Option String) : s.phase = .sent nextCursor →
      Stepped s .consumerGone ({ s with phase := .exited }, [])
  | resume : s.phase = .retryWait → Stepped s .delayOver ({ s with phase := .loopHead }, [])

theorem step_cases {s : State} {e : Event} {result : State × List Shown}
    (h : step s e = some result) : Stepped s e result := by
  cases e with
  | start =>
    simp only [step] at h
    split at h
    · rename_i phase
      split at h
      · rename_i fetch
        cases h
        exact .go phase fetch
      · rename_i off
        cases h
        exact .park phase (by simpa using off)
    · cases h
  | wake =>
    simp only [step] at h
    split at h
    · rename_i phase
      cases h
      exact .wake phase
    · cases h
  | begin =>
    simp only [step] at h
    split at h
    · rename_i phase
      cases h
      exact .begin phase
    · cases h
  | reply send deferred =>
    simp only [step] at h
    split at h
    · rename_i fresh phase
      exact .reply send deferred fresh phase (Option.some.inj h)
    · cases h
  | ack outcome deferred =>
    simp only [step] at h
    split at h
    · rename_i nextCursor phase
      exact .ack outcome deferred nextCursor phase (Option.some.inj h)
    · cases h
  | consumerGone =>
    simp only [step] at h
    split at h
    · rename_i nextCursor phase
      cases h
      exact .gone nextCursor phase
    · cases h
  | delayOver =>
    simp only [step] at h
    split at h
    · rename_i phase
      cases h
      exact .resume phase
    · cases h

end WalletDaemon.WalletPoller
