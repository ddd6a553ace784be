import WalletDaemon.Accounts
import WalletDaemon.FuelTankReading

/-! When a tick is handled to its end. The processor panics where a prefetched
block hash has the wrong length, where a fuel tank dispatch would expire past
the last block number, and where an account would run out of nonces; where the
library is short of stack for a dispatch, the process ends with it. -/

namespace WalletDaemon.TransactionHandler

open Platform

/-- A block hash that is hex is as long as a hash. -/
def HashFits (send : Send (Option CurrentBlock)) : Prop :=
  ∀ info bytes, executeQuery send none = .ok (some info) →
    prefixedBytes "decode block hash failed" info.currentBlockHash = .ok bytes →
      bytes.length = 32

theorem getBlockAndSpecVersion_error_iff {send : Send (Option CurrentBlock)} :
    (∃ panic, ChainInfo.getBlockAndSpecVersion send = .error panic) ↔ ¬ HashFits send := by
  unfold ChainInfo.getBlockAndSpecVersion HashFits
  cases executeQuery send none with
  | error e => simp
  | ok result =>
    cases result with
    | none => simp
    | some info =>
      cases read : prefixedBytes "decode block hash failed" info.currentBlockHash with
      | error e => simp [read]
      | ok bytes =>
        by_cases fits : bytes.length = 32
        · simp [read, fits]
        · simp [read, fits]

section Lookup

variable (subxt : Subxt) (replies : Replies) (metadata : MetadataCache)

theorem lookupChain_error_iff (key : ChainKey) :
    (∃ panic, lookupChain subxt replies metadata key = .error panic) ↔
      ¬ HashFits (replies.currentBlock key) := by
  rw [← getBlockAndSpecVersion_error_iff]
  unfold lookupChain
  cases ChainInfo.getBlockAndSpecVersion (replies.currentBlock key) with
  | error panic => simp
  | ok read =>
    cases read with
    | error e => simp
    | ok info =>
      dsimp only
      split
      · split <;> simp
      · simp

theorem readable_iff {requests : List TransactionRequest} :
    Readable subxt replies metadata requests ↔
      ∀ request ∈ requests, HashFits (replies.currentBlock request.chainKey) := by
  refine forall₂_congr fun request _ => ?_
  rw [← not_iff_not, ← lookupChain_error_iff subxt replies metadata]
  simp

end Lookup

section Entries

variable {K : Type} (subxt : Subxt) (ring : Keyring K) (keypair : K)

/-- The request's fuel tank dispatch, if it is one, expires at a block number, and
the library has stack enough to sign it. -/
structure Dispatches (account : Account) (request : TransactionRequest) : Prop where
  expires : request.fuelTankSignerExternalId.isSome → account.info.blockNumber + txMortality < 2 ^ 32
  within : ∀ signer, request.fuelTankSignerExternalId = some signer →
    FuelTank.WithinStack subxt.scale account.client.metadata request.payload
      (nonceKey ring keypair request).2.2 (account.info.blockNumber + txMortality)
      (ring.sign (deriveSigner ring keypair signer))

theorem fuelTankPayload_error_iff (account : Account) (request : TransactionRequest) :
    (∃ panic, fuelTankPayload (emptyBatch subxt ring keypair) request account.client.metadata
        (nonceKey ring keypair request).2.2 account.info.blockNumber = .error panic) ↔
      ¬ Dispatches subxt ring keypair account request := by
  unfold fuelTankPayload
  cases asked : request.fuelTankSignerExternalId with
  | none =>
    exact iff_of_false (by simp) (not_not.mpr ⟨by simp [asked], by simp [asked]⟩)
  | some signer =>
    by_cases fits : account.info.blockNumber + txMortality < 2 ^ 32
    · have runs : Dispatches subxt ring keypair account request ↔
          FuelTank.WithinStack subxt.scale account.client.metadata request.payload
            (nonceKey ring keypair request).2.2 (account.info.blockNumber + txMortality)
            (ring.sign (deriveSigner ring keypair signer)) := by
        constructor
        · exact fun dispatches => dispatches.within signer asked
        · refine fun within => ⟨fun _ => fits, fun other same => ?_⟩
          obtain rfl := Option.some.inj (asked.symm.trans same)
          exact within
      dsimp only
      rw [if_pos fits, runs, ← FuelTank.signDispatch_overflow_iff]
      simp only [emptyBatch]
      rcases (FuelTank.signDispatch subxt.scale request.payload account.client.metadata
        (nonceKey ring keypair request).2.2 (account.info.blockNumber + txMortality)
        (ring.sign (deriveSigner ring keypair signer)) []).1 with (_ | _) | _ <;> simp
    · dsimp only
      rw [if_neg fits]
      exact iff_of_true ⟨_, rfl⟩ fun dispatches => fits (dispatches.expires (by simp [asked]))

theorem entryAt_error_iff (account : Account) (nonce : Nat) (request : TransactionRequest) :
    (∃ panic, entryAt subxt ring keypair account nonce request = .error panic) ↔
      ¬ Dispatches subxt ring keypair account request := by
  rw [← fuelTankPayload_error_iff]
  unfold entryAt
  dsimp only
  cases fuelTankPayload (emptyBatch subxt ring keypair) request account.client.metadata
      (nonceKey ring keypair request).2.2 account.info.blockNumber with
  | error panic => simp
  | ok rewritten =>
    cases rewritten with
    | error skip => simp
    | ok payload =>
      dsimp only
      split <;> simp

/-- The nonces of an account reach for its requests, from `nonce` on. -/
def NoncesFit (account : Account) : Nat → List TransactionRequest → Prop
  | _, [] => True
  | nonce, request :: rest =>
    match entryAt subxt ring keypair account nonce request with
    | .ok (some _) => nonce + 1 < 2 ^ 64 ∧ NoncesFit account (nonce + 1) rest
    | _ => NoncesFit account nonce rest

def requestsOf (key : NonceKey) (requests : List TransactionRequest) : List TransactionRequest :=
  requests.filter fun request => nonceKey ring keypair request = key

theorem requestsOf_cons (key : NonceKey) (request : TransactionRequest)
    (rest : List TransactionRequest) :
    requestsOf ring keypair key (request :: rest) =
      if nonceKey ring keypair request = key then request :: requestsOf ring keypair key rest
      else requestsOf ring keypair key rest := by
  by_cases mine : nonceKey ring keypair request = key
  · simp [requestsOf, mine]
  · simp [requestsOf, mine]

/-- Every account can sign its requests to the end. -/
structure Signable (open_ : NonceKey → Option Account) (made : NonceKey → Nat)
    (requests : List TransactionRequest) : Prop where
  dispatches : ∀ request ∈ requests, ∀ account,
    open_ (nonceKey ring keypair request) = some account →
    Dispatches subxt ring keypair account request
  nonces : ∀ key account, open_ key = some account →
    NoncesFit subxt ring keypair account (account.start + made key) (requestsOf ring keypair key requests)

variable {subxt ring keypair}

theorem signable_skip {open_ : NonceKey → Option Account} {made : NonceKey → Nat}
    {request : TransactionRequest} {rest : List TransactionRequest}
    (closed : open_ (nonceKey ring keypair request) = none) :
    Signable subxt ring keypair open_ made (request :: rest) ↔
      Signable subxt ring keypair open_ made rest := by
  have apart : ∀ key account, open_ key = some account →
      requestsOf ring keypair key (request :: rest) = requestsOf ring keypair key rest := by
    intro key account opened
    rw [requestsOf_cons, if_neg]
    rintro rfl
    cases closed.symm.trans opened
  constructor
  · intro signable
    refine ⟨fun other member => signable.dispatches other (by simp [member]), ?_⟩
    intro key account opened
    rw [← apart key account opened]
    exact signable.nonces key account opened
  · intro signable
    refine ⟨fun other member account opened => ?_, fun key account opened => ?_⟩
    · rcases List.mem_cons.mp member with rfl | later
      · cases closed.symm.trans opened
      · exact signable.dispatches other later account opened
    · rw [apart key account opened]
      exact signable.nonces key account opened

theorem signable_turn {open_ : NonceKey → Option Account} {made next : NonceKey → Nat}
    {request : TransactionRequest} {rest : List TransactionRequest} {account : Account}
    (opened : open_ (nonceKey ring keypair request) = some account)
    (dispatches : Dispatches subxt ring keypair account request)
    (others : ∀ key ≠ nonceKey ring keypair request, next key = made key)
    (mine : ∀ requests, NoncesFit subxt ring keypair account
        (account.start + made (nonceKey ring keypair request)) (request :: requests) ↔
      NoncesFit subxt ring keypair account
        (account.start + next (nonceKey ring keypair request)) requests) :
    Signable subxt ring keypair open_ made (request :: rest) ↔
      Signable subxt ring keypair open_ next rest := by
  have same : ∀ key account', open_ key = some account' →
      (NoncesFit subxt ring keypair account' (account'.start + made key)
          (requestsOf ring keypair key (request :: rest)) ↔
        NoncesFit subxt ring keypair account' (account'.start + next key)
          (requestsOf ring keypair key rest)) := by
    intro key account' opened'
    rw [requestsOf_cons]
    by_cases here : nonceKey ring keypair request = key
    · subst here
      obtain rfl : account = account' := Option.some.inj (opened.symm.trans opened')
      rw [if_pos rfl]
      exact mine _
    · rw [if_neg here, others key (Ne.symm here)]
  constructor
  · intro signable
    exact ⟨fun other member => signable.dispatches other (by simp [member]),
      fun key account' opened' => (same key account' opened').mp (signable.nonces key account' opened')⟩
  · intro signable
    refine ⟨fun other member account' opened' => ?_,
      fun key account' opened' => (same key account' opened').mpr (signable.nonces key account' opened')⟩
    rcases List.mem_cons.mp member with rfl | later
    · obtain rfl : account = account' := Option.some.inj (opened.symm.trans opened')
      exact dispatches
    · exact signable.dispatches other later account' opened'

theorem signAll_ok_iff (open_ : NonceKey → Option Account) (made : NonceKey → Nat)
    (requests : List TransactionRequest) :
    (∃ inputs, signAll subxt ring keypair open_ made requests = .ok inputs) ↔
      Signable subxt ring keypair open_ made requests := by
  induction requests generalizing made with
  | nil => exact ⟨fun _ => ⟨nofun, fun _ _ _ => trivial⟩, fun _ => ⟨[], rfl⟩⟩
  | cons request rest ih =>
    cases opened : open_ (nonceKey ring keypair request) with
    | none =>
      rw [signable_skip opened, ← ih]
      simp only [signAll, turn, opened]
    | some account =>
      cases entered : entryAt subxt ring keypair account
          (account.start + made (nonceKey ring keypair request)) request with
      | error panic =>
        have late := (entryAt_error_iff subxt ring keypair account _ request).mp ⟨panic, entered⟩
        simp only [signAll, turn, opened, entered]
        refine ⟨by simp, fun signable => absurd ?_ late⟩
        exact signable.dispatches request (by simp) account opened
      | ok result =>
        have dispatches : Dispatches subxt ring keypair account request := by
          by_contra late
          obtain ⟨panic, error⟩ := (entryAt_error_iff subxt ring keypair account _ request).mpr late
          cases entered.symm.trans error
        cases result with
        | none =>
          rw [signable_turn opened dispatches (fun _ _ => rfl) fun requests => by
            rw [NoncesFit, entered], ← ih]
          simp only [signAll, turn, opened, entered]
        | some input =>
          by_cases fits : account.start + made (nonceKey ring keypair request) + 1 < 2 ^ 64
          · have mine : ∀ requests, NoncesFit subxt ring keypair account
                  (account.start + made (nonceKey ring keypair request)) (request :: requests) ↔
                NoncesFit subxt ring keypair account (account.start + Function.update made
                  (nonceKey ring keypair request) (made (nonceKey ring keypair request) + 1)
                  (nonceKey ring keypair request)) requests := fun requests => by
              rw [NoncesFit, entered, Function.update_self]
              exact ⟨And.right, fun rest => ⟨fits, rest⟩⟩
            rw [signable_turn opened dispatches (fun _ other => Function.update_of_ne other _ _) mine,
              ← ih]
            simp only [signAll, turn, opened, entered, if_pos fits]
            cases signAll subxt ring keypair open_ _ rest <;> simp [Except.map]
          · simp only [signAll, turn, opened, entered, if_neg fits]
            refine ⟨by simp, fun signable => ?_⟩
            have reach := signable.nonces _ account opened
            rw [requestsOf_cons, if_pos rfl, NoncesFit, entered] at reach
            exact absurd reach.1 fits

/-- The platform's replies to a batch take the processor down nowhere: its block
hashes fit, its fuel tank dispatches expire at a block number and leave stack, and
its accounts have nonces. -/
structure Benign (subxt : Subxt) (ring : Keyring K) (keypair : K) (replies : Replies)
    (metadata : MetadataCache) (nonces : NonceCache) (requests : List TransactionRequest) :
    Prop where
  hashes : ∀ request ∈ requests, HashFits (replies.currentBlock request.chainKey)
  signable : Signable subxt ring keypair (openAccount subxt replies metadata nonces) (fun _ => 0)
    requests

theorem submitted_ok_iff (replies : Replies) (metadata : MetadataCache) (nonces : NonceCache)
    (requests : List TransactionRequest) :
    (∃ inputs, submitted subxt ring keypair replies metadata nonces requests = .ok inputs) ↔
      Benign subxt ring keypair replies metadata nonces requests := by
  by_cases readable : Readable subxt replies metadata requests
  · rw [submitted_eq readable, signAll_ok_iff]
    exact ⟨fun signable => ⟨(readable_iff _ _ _).mp readable, signable⟩, Benign.signable⟩
  · obtain ⟨panic, error⟩ := submitted_unreadable ring keypair nonces readable
    rw [error]
    exact ⟨by simp, fun benign => absurd ((readable_iff _ _ _).mpr benign.hashes) readable⟩

end Entries

end WalletDaemon.TransactionHandler
