import WalletDaemon.ChainInfo
import Mathlib.Data.Finset.Insert
import Mathlib.Data.Finset.Image
import Mathlib.Logic.Function.Basic

/-! One batch of the transaction processor: prefetch, nonce seeding, the signing
loop and the submission. Within a batch every chain and every key is asked for
at most once, so the platform's replies are functions of them. The cached
metadata and the nonce cache are passed from batch to batch. -/

namespace WalletDaemon

open Platform

/-- An entry of the `SignTransactions` mutation, with the key of its request. -/
structure SignTransactionInput where
  key : NonceKey
  uuid : String
  signedExtrinsic : SignedExtrinsic
  signedAbandonExtrinsic : SignedExtrinsic
deriving DecidableEq, Repr

def SignTransactionInput.nonce (input : SignTransactionInput) : Nat :=
  input.signedExtrinsic.params.nonce

inductive BatchOutcome
  | completed
  | partialProgress
  | skipped
  | submissionFailed
deriving DecidableEq, Repr

structure Replies where
  currentBlock : ChainKey → Send (Option CurrentBlock)
  chainInfo : ChainKey → Send (Option ChainInfo)
  accountNonce : NonceKey → Send Int
  signTransactions : Send Bool

abbrev NonceCache := NonceKey → Option Nat

abbrev MetadataCache := ChainKey → Option MetadataInfo

namespace TransactionHandler

structure Prefetch where
  blockInfo : ChainKey → Option BlockInfo
  failedChains : Finset ChainKey
  metadata : MetadataCache

def Prefetch.fail (prefetch : Prefetch) (key : ChainKey) : Prefetch :=
  { prefetch with failedChains := insert key prefetch.failedChains }

def needsUpdate (metadata : MetadataCache) (key : ChainKey) (specVersion : Nat) : Bool :=
  match metadata key with
  | some local_ => local_.specVersion < specVersion
  | none => true

def prefetchChain (subxt : Subxt) (replies : Replies) (prefetch : Prefetch) (key : ChainKey) :
    Except Panic Prefetch :=
  if (prefetch.blockInfo key).isSome ∨ key ∈ prefetch.failedChains then .ok prefetch
  else match ChainInfo.getBlockAndSpecVersion (replies.currentBlock key) with
    | .error panic => .error panic
    | .ok (.error _) => .ok (prefetch.fail key)
    | .ok (.ok info) =>
      let known (metadata : MetadataCache) : Prefetch :=
        { prefetch with
          blockInfo := Function.update prefetch.blockInfo key (some info)
          metadata }
      if needsUpdate prefetch.metadata key info.specVersion then
        match ChainInfo.updateMetadataAndSubstrateClient subxt key (replies.chainInfo key) with
        | .error _ => .ok (prefetch.fail key)
        | .ok fresh => .ok (known (Function.update prefetch.metadata key (some fresh)))
      else .ok (known prefetch.metadata)

def prefetchChains (subxt : Subxt) (replies : Replies) :
    Prefetch → List TransactionRequest → Except Panic Prefetch
  | prefetch, [] => .ok prefetch
  | prefetch, request :: rest =>
    match prefetchChain subxt replies prefetch request.chainKey with
    | .error panic => .error panic
    | .ok prefetch => prefetchChains subxt replies prefetch rest

structure Seeding where
  nonces : NonceCache
  refreshedKeys : Finset NonceKey
  failedKeys : Finset NonceKey

/-- The cached slot, rebased to the platform's nonce when that is ahead. -/
def rebase (slot : Option Nat) (platformNonce : Nat) : Nat :=
  match slot with
  | some slot => if slot < platformNonce then platformNonce else slot
  | none => platformNonce

def seedKey (replies : Replies) (failedChains : Finset ChainKey) (seeding : Seeding)
    (key : NonceKey) : Seeding :=
  if key.chainKey ∈ failedChains then seeding
  else if key ∈ seeding.refreshedKeys ∨ key ∈ seeding.failedKeys then seeding
  else match ChainInfo.getAccountNonce (replies.accountNonce key) with
    | .ok platformNonce =>
      { seeding with
        nonces := Function.update seeding.nonces key
          (some (rebase (seeding.nonces key) platformNonce))
        refreshedKeys := insert key seeding.refreshedKeys }
    | .error _ => { seeding with failedKeys := insert key seeding.failedKeys }

def seedKeys (replies : Replies) (failedChains : Finset ChainKey) (seeding : Seeding)
    (keys : List NonceKey) : Seeding :=
  keys.foldl (seedKey replies failedChains) seeding

/-- Why the loop passes over a request. -/
inductive Skip
  | prefetchFailed
  | noPrefetchedNonce
  | missingBlockInfo
  | missingClient
  | clientUnavailable
  | missingNonce
  | fuelTank (error : String)
  | dummyTransaction (error : String)
  | missingIndices
  | callNotFound
  | transaction (error : String)
deriving DecidableEq, Repr

structure Batch (K : Type) where
  subxt : Subxt
  ring : Keyring K
  keypair : K
  prefetch : Prefetch
  failedKeys : Finset NonceKey

variable {K : Type}

/-- The payload to sign: a fuel tank dispatch gets its signature first. -/
def fuelTankPayload (batch : Batch K) (request : TransactionRequest) (metadata : Metadata)
    (publicKey : Bytes) (blockNumber : Nat) : Except Panic (Except Skip Bytes) :=
  match request.fuelTankSignerExternalId with
  | none => .ok (.ok request.payload)
  | some fuelTankSignerExternalId =>
    if blockNumber + txMortality < 2 ^ 32 then
      let signer := deriveSigner batch.ring batch.keypair fuelTankSignerExternalId
      match (FuelTank.signDispatch batch.subxt.scale request.payload metadata publicKey
          (blockNumber + txMortality) (batch.ring.sign signer) []).1 with
      | .ok payload => .ok (.ok payload)
      | .error (.refused e) => .ok (.error (.fuelTank e))
      | .error .stackOverflow => .error .stackOverflow
    else .error .expirationOverflow

/-- The mortal parameters of one of a request's two extrinsics. -/
def mortalParams (nonce mortality : Nat) (info : BlockInfo) : ExtrinsicParams :=
  ⟨nonce, mortality, info.blockNumber, info.blockHash⟩

def signDummy (batch : Batch K) (client : SubstrateClient) (publicKey : Bytes) (nonce : Nat)
    (info : BlockInfo) : Except Skip SignedExtrinsic :=
  (batch.subxt.signedExtrinsic client remarkPayload (mortalParams nonce dummyTxMortality info)
    publicKey).mapError .dummyTransaction

def signPayload (batch : Batch K) (client : SubstrateClient) (publicKey : Bytes) (nonce : Nat)
    (info : BlockInfo) (payload : Bytes) : Except Skip SignedExtrinsic :=
  if payload.length < 2 then .error .missingIndices
  else match RawPayload.fromBytes client.metadata payload with
    | none => .error .callNotFound
    | some payload =>
      (batch.subxt.signedExtrinsic client payload (mortalParams nonce txMortality info)
        publicKey).mapError .transaction

/-- The block and client a request is signed against, when there are any. -/
def target (batch : Batch K) (key : NonceKey) : Except Skip (BlockInfo × SubstrateClient) :=
  if key.chainKey ∈ batch.prefetch.failedChains then .error .prefetchFailed
  else if key ∈ batch.failedKeys then .error .noPrefetchedNonce
  else match batch.prefetch.blockInfo key.chainKey with
    | none => .error .missingBlockInfo
    | some info =>
      match batch.prefetch.metadata key.chainKey with
      | none => .error .missingClient
      | some local_ =>
        if batch.subxt.atBlockRefuses local_.client info.blockNumber then
          .error .clientUnavailable
        else .ok (info, local_.client)

/-- The entry of one request, or why it has none. -/
def entry (batch : Batch K) (nonces : NonceCache) (request : TransactionRequest) :
    Except Panic (Except Skip SignTransactionInput) :=
  let key := nonceKey batch.ring batch.keypair request
  let publicKey := key.2.2
  match target batch key with
  | .error skip => .ok (.error skip)
  | .ok (info, client) =>
    match nonces key with
    | none => .ok (.error .missingNonce)
    | some nonce =>
      match fuelTankPayload batch request client.metadata publicKey info.blockNumber with
      | .error panic => .error panic
      | .ok (.error skip) => .ok (.error skip)
      | .ok (.ok payload) =>
        match signDummy batch client publicKey nonce info with
        | .error skip => .ok (.error skip)
        | .ok dummy =>
          match signPayload batch client publicKey nonce info payload with
          | .error skip => .ok (.error skip)
          | .ok signed => .ok (.ok ⟨key, request.requestId, signed, dummy⟩)

structure Signing where
  nonces : NonceCache
  inputs : List SignTransactionInput
  committedKeys : Finset NonceKey

/-- A signed request advances its key's slot; a skipped one leaves everything. -/
def signRequest (batch : Batch K) (signing : Signing) (request : TransactionRequest) :
    Except Panic Signing :=
  match entry batch signing.nonces request with
  | .error panic => .error panic
  | .ok (.error _) => .ok signing
  | .ok (.ok input) =>
    if input.nonce + 1 < 2 ^ 64 then
      .ok {
        nonces := Function.update signing.nonces input.key (some (input.nonce + 1))
        inputs := signing.inputs ++ [input]
        committedKeys := insert input.key signing.committedKeys }
    else .error .nonceOverflow

def signRequests (batch : Batch K) :
    Signing → List TransactionRequest → Except Panic Signing
  | signing, [] => .ok signing
  | signing, request :: rest =>
    match signRequest batch signing request with
    | .error panic => .error panic
    | .ok signing => signRequests batch signing rest

def evictIdleChains (nonces : NonceCache) (idle : Finset ChainKey) : NonceCache :=
  fun key => if key.chainKey ∈ idle then none else nonces key

def evictNonceKeys (nonces : NonceCache) (keys : Finset NonceKey) : NonceCache :=
  fun key => if key ∈ keys then none else nonces key

structure Prepared where
  metadata : MetadataCache
  seeded : NonceCache
  signing : Signing

section Handler

variable (subxt : Subxt) (ring : Keyring K) (keypair : K) (replies : Replies)

def prepare (metadata : MetadataCache) (nonces : NonceCache)
    (requests : List TransactionRequest) : Except Panic Prepared :=
  match prefetchChains subxt replies ⟨fun _ => none, ∅, metadata⟩ requests with
  | .error panic => .error panic
  | .ok prefetch =>
    let seeding := seedKeys replies prefetch.failedChains ⟨nonces, ∅, ∅⟩
      (requests.map (nonceKey ring keypair))
    match signRequests ⟨subxt, ring, keypair, prefetch, seeding.failedKeys⟩
        ⟨seeding.nonces, [], ∅⟩ requests with
    | .error panic => .error panic
    | .ok signing => .ok ⟨prefetch.metadata, seeding.nonces, signing⟩

/-- What a batch leaves, and what it sent to `SignTransactions`. -/
structure Handled where
  outcome : BatchOutcome
  metadata : MetadataCache
  nonces : NonceCache
  submitted : List SignTransactionInput

def submit (prepared : Prepared) (requestCount : Nat) : Handled :=
  let signing := prepared.signing
  let handled (outcome : BatchOutcome) (nonces : NonceCache) : Handled :=
    ⟨outcome, prepared.metadata, nonces, signing.inputs⟩
  if signing.inputs.isEmpty then handled .skipped signing.nonces
  else match signTransactions replies.signTransactions with
    | .error _ => handled .submissionFailed (evictNonceKeys signing.nonces signing.committedKeys)
    | .ok _ =>
      if signing.inputs.length < requestCount then handled .partialProgress signing.nonces
      else handled .completed signing.nonces

def transactionHandler (metadata : MetadataCache) (nonces : NonceCache)
    (requests : List TransactionRequest) : Except Panic Handled :=
  match prepare subxt ring keypair replies metadata nonces requests with
  | .error panic => .error panic
  | .ok prepared => .ok (submit replies prepared requests.length)

/-- One tick of `launch_job_scheduler`. -/
def handleTick (metadata : MetadataCache) (nonces : NonceCache)
    (requests : List TransactionRequest) (idle : Finset ChainKey) : Except Panic Handled :=
  let nonces := evictIdleChains nonces idle
  if requests.isEmpty then .ok ⟨.completed, metadata, nonces, []⟩
  else transactionHandler subxt ring keypair replies metadata nonces requests

end Handler

end TransactionHandler

end WalletDaemon
