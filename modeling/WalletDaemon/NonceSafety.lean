import WalletDaemon.FuelTankRewriting
import WalletDaemon.TransactionHandler
import WalletDaemon.Transition
import Mathlib.Data.List.Sublists

/-! Nonces over a batch and over runs of ticks.
One key's submitted entries carry consecutive nonces from the seeded slot. Over
runs every cached slot stays above the nonces the platform accepted of its key,
whatever is evicted in between. -/

namespace WalletDaemon.TransactionHandler

open Platform Transition

def ofKey (key : NonceKey) (inputs : List SignTransactionInput) : List SignTransactionInput :=
  inputs.filter fun input => input.key = key

theorem ofKey_append (key : NonceKey) (inputs : List SignTransactionInput)
    (input : SignTransactionInput) :
    ofKey key (inputs ++ [input]) =
      if input.key = key then ofKey key inputs ++ [input] else ofKey key inputs := by
  rw [ofKey, List.filter_append]
  by_cases same : input.key = key
  · simp [ofKey, same]
  · simp [ofKey, same]

section Seeding

variable (replies : Replies) (failedChains : Finset ChainKey)

/-- A key is rebased when its lookup succeeded, and kept otherwise. -/
structure Seeded (nonces : NonceCache) (seeding : Seeding) : Prop where
  refreshed : ∀ key ∈ seeding.refreshedKeys, ∃ platformNonce,
    ChainInfo.getAccountNonce (replies.accountNonce key) = .ok platformNonce ∧
      seeding.nonces key = some (rebase (nonces key) platformNonce)
  kept : ∀ key, key ∉ seeding.refreshedKeys → seeding.nonces key = nonces key

theorem seedKey_seeded {nonces : NonceCache} {seeding : Seeding}
    (before : Seeded replies nonces seeding) (key : NonceKey) :
    Seeded replies nonces (seedKey replies failedChains seeding key) := by
  unfold seedKey
  split
  · exact before
  split
  · exact before
  rename_i fresh
  rw [not_or] at fresh
  split
  · rename_i platformNonce fetched
    have slot := before.kept key fresh.1
    refine ⟨fun other member => ?_, fun other absent => ?_⟩ <;> dsimp only at *
    · by_cases same : other = key
      · rw [same, slot, Function.update_self]
        exact ⟨platformNonce, fetched, rfl⟩
      · rw [Function.update_of_ne same]
        exact before.refreshed other (Finset.mem_of_mem_insert_of_ne member same)
    · rw [Finset.mem_insert, not_or] at absent
      rw [Function.update_of_ne absent.1]
      exact before.kept other absent.2
  · exact ⟨before.refreshed, before.kept⟩

theorem seedKeys_seeded {nonces : NonceCache} {seeding : Seeding}
    (before : Seeded replies nonces seeding) (keys : List NonceKey) :
    Seeded replies nonces (seedKeys replies failedChains seeding keys) := by
  induction keys generalizing seeding with
  | nil => exact before
  | cons key keys ih => exact ih (seedKey_seeded replies failedChains before key)

theorem seedKey_visits (seeding : Seeding) (key other : NonceKey)
    (h : other = key ∨ other ∈ seeding.refreshedKeys ∨ other ∈ seeding.failedKeys) :
    other.chainKey ∈ failedChains ∨
      other ∈ (seedKey replies failedChains seeding key).refreshedKeys ∨
      other ∈ (seedKey replies failedChains seeding key).failedKeys := by
  unfold seedKey
  split
  · rename_i failed
    rcases h with same | visited
    · rw [same]
      exact .inl failed
    · exact .inr visited
  split
  · rename_i visited
    rcases h with same | visited
    · rw [same]
      exact .inr visited
    · exact .inr visited
  split <;> simp only [Finset.mem_insert] <;> tauto

theorem seedKeys_visits (seeding : Seeding) (keys : List NonceKey) (key : NonceKey)
    (h : key ∈ keys ∨ key ∈ seeding.refreshedKeys ∨ key ∈ seeding.failedKeys) :
    key.chainKey ∈ failedChains ∨
      key ∈ (seedKeys replies failedChains seeding keys).refreshedKeys ∨
      key ∈ (seedKeys replies failedChains seeding keys).failedKeys := by
  induction keys generalizing seeding with
  | nil =>
    rcases h with member | visited
    · cases member
    · exact .inr visited
  | cons head keys ih =>
    by_cases failed : key.chainKey ∈ failedChains
    · exact .inl failed
    apply ih
    by_cases later : key ∈ keys
    · exact .inl later
    · have now : key = head ∨ key ∈ seeding.refreshedKeys ∨ key ∈ seeding.failedKeys := by
        rcases h with member | visited
        · exact .inl ((List.mem_cons.mp member).resolve_right later)
        · exact .inr visited
      have visited := seedKey_visits replies failedChains seeding head key now
      exact .inr (visited.resolve_left failed)

end Seeding

section SigningLoop

variable {K : Type}

theorem target_ok {batch : Batch K} {key : NonceKey} {info : BlockInfo}
    {client : SubstrateClient} (h : target batch key = .ok (info, client)) :
    key.chainKey ∉ batch.prefetch.failedChains ∧ key ∉ batch.failedKeys ∧
      batch.prefetch.blockInfo key.chainKey = some info := by
  unfold target at h
  split at h
  · cases h
  rename_i chain
  split at h
  · cases h
  rename_i fetched
  split at h
  · cases h
  rename_i info' found
  split at h
  · cases h
  split at h
  · cases h
  have same := Except.ok.inj h
  rw [Prod.mk.injEq] at same
  rw [← same.1]
  exact ⟨chain, fetched, found⟩

/-- What an entry is made of: its request's key and uuid, the key's slot, and
the block its chain was prefetched at. -/
structure MadeFrom (batch : Batch K) (nonces : NonceCache) (request : TransactionRequest)
    (input : SignTransactionInput) : Prop where
  key : input.key = nonceKey batch.ring batch.keypair request
  uuid : input.uuid = request.requestId
  slot : nonces input.key = some input.nonce
  chain : input.key.chainKey ∉ batch.prefetch.failedChains
  fetched : input.key ∉ batch.failedKeys
  params : ∃ info, batch.prefetch.blockInfo input.key.chainKey = some info ∧
    input.signedExtrinsic.params = mortalParams input.nonce txMortality info ∧
    input.signedAbandonExtrinsic.params = mortalParams input.nonce dummyTxMortality info
  signer : input.signedExtrinsic.signer = input.key.2.2 ∧
    input.signedAbandonExtrinsic.signer = input.key.2.2

theorem signPayload_signed {batch : Batch K} {client : SubstrateClient} {publicKey : Bytes}
    {nonce : Nat} {info : BlockInfo} {payload : Bytes} {signed : SignedExtrinsic}
    (h : signPayload batch client publicKey nonce info payload = .ok signed) :
    ∃ raw, RawPayload.fromBytes client.metadata payload = some raw ∧
      batch.subxt.signedExtrinsic client raw (mortalParams nonce txMortality info) publicKey =
        .ok signed := by
  unfold signPayload at h
  split at h
  · cases h
  split at h
  · cases h
  rename_i raw named
  refine ⟨raw, named, ?_⟩
  cases made : batch.subxt.signedExtrinsic client raw (mortalParams nonce txMortality info)
      publicKey with
  | error e =>
    rw [made] at h
    cases h
  | ok extrinsic =>
    rw [made] at h
    exact congrArg Except.ok (Except.ok.inj h)

theorem signDummy_signed {batch : Batch K} {client : SubstrateClient} {publicKey : Bytes}
    {nonce : Nat} {info : BlockInfo} {signed : SignedExtrinsic}
    (h : signDummy batch client publicKey nonce info = .ok signed) :
    batch.subxt.signedExtrinsic client remarkPayload (mortalParams nonce dummyTxMortality info)
      publicKey = .ok signed := by
  unfold signDummy at h
  cases made : batch.subxt.signedExtrinsic client remarkPayload
      (mortalParams nonce dummyTxMortality info) publicKey with
  | error e =>
    rw [made] at h
    cases h
  | ok extrinsic =>
    rw [made] at h
    exact congrArg Except.ok (Except.ok.inj h)

theorem signDummy_ok {batch : Batch K} {client : SubstrateClient} {publicKey : Bytes}
    {nonce : Nat} {info : BlockInfo} {signed : SignedExtrinsic}
    (h : signDummy batch client publicKey nonce info = .ok signed) :
    signed.signer = publicKey ∧ signed.params = mortalParams nonce dummyTxMortality info :=
  Subxt.signedExtrinsic_ok (signDummy_signed h)

theorem signPayload_ok {batch : Batch K} {client : SubstrateClient} {publicKey : Bytes}
    {nonce : Nat} {info : BlockInfo} {payload : Bytes} {signed : SignedExtrinsic}
    (h : signPayload batch client publicKey nonce info payload = .ok signed) :
    signed.signer = publicKey ∧ signed.params = mortalParams nonce txMortality info := by
  obtain ⟨raw, -, made⟩ := signPayload_signed h
  exact Subxt.signedExtrinsic_ok made

theorem entry_ok {batch : Batch K} {nonces : NonceCache} {request : TransactionRequest}
    {input : SignTransactionInput} (h : entry batch nonces request = .ok (.ok input)) :
    MadeFrom batch nonces request input := by
  unfold entry at h
  dsimp only at h
  split at h
  · cases h
  rename_i info client found
  split at h
  · cases h
  rename_i nonce slot
  split at h
  · cases h
  · cases h
  split at h
  · cases h
  rename_i dummy dummySigned
  split at h
  · cases h
  rename_i signed payloadSigned
  have made := Except.ok.inj (Except.ok.inj h)
  have reached := target_ok found
  have dummyMade := signDummy_ok dummySigned
  have signedMade := signPayload_ok payloadSigned
  have nonce_ : signed.params.nonce = nonce := by rw [signedMade.2, mortalParams]
  rw [← made]
  refine ⟨rfl, rfl, ?_, reached.1, reached.2.1, ⟨info, reached.2.2, ?_, ?_⟩, signedMade.1,
    dummyMade.1⟩
  · rw [slot, SignTransactionInput.nonce, nonce_]
  · rw [SignTransactionInput.nonce, nonce_]
    exact signedMade.2
  · rw [SignTransactionInput.nonce, nonce_]
    exact dummyMade.2

/-- The loop after the requests `seen`, from the slots `seeded`. -/
structure Progress (batch : Batch K) (seeded : NonceCache) (seen : List TransactionRequest)
    (signing : Signing) : Prop where
  in_order : ∃ signed : List TransactionRequest, signed.Sublist seen ∧
    signing.inputs.map (fun input => (input.key, input.uuid)) =
      signed.map fun request => (nonceKey batch.ring batch.keypair request, request.requestId)
  slot : ∀ key, signing.nonces key =
    (seeded key).map (· + (ofKey key signing.inputs).length)
  numbered : ∀ key start, seeded key = some start →
    (ofKey key signing.inputs).map SignTransactionInput.nonce =
      List.range' start (ofKey key signing.inputs).length
  made : ∀ input ∈ signing.inputs, ∃ nonces request, request ∈ seen ∧
    MadeFrom batch nonces request input
  committed : ∀ key, key ∈ signing.committedKeys ↔ ofKey key signing.inputs ≠ []

theorem signRequest_progress {batch : Batch K} {seeded : NonceCache}
    {seen : List TransactionRequest} {signing next : Signing} {request : TransactionRequest}
    (before : Progress batch seeded seen signing)
    (step : signRequest batch signing request = .ok next) :
    Progress batch seeded (seen ++ [request]) next := by
  have older : ∀ input ∈ signing.inputs, ∃ nonces earlier, earlier ∈ seen ++ [request] ∧
      MadeFrom batch nonces earlier input := by
    intro input member
    obtain ⟨nonces, earlier, place, made⟩ := before.made input member
    exact ⟨nonces, earlier, List.mem_append_left _ place, made⟩
  obtain ⟨signed, sub, order⟩ := before.in_order
  unfold signRequest at step
  split at step
  · cases step
  · -- A skipped request leaves the whole state as it was.
    have same := Except.ok.inj step
    rw [← same]
    exact ⟨⟨signed, sub.trans (List.sublist_append_left _ _), order⟩, before.slot,
      before.numbered, older, before.committed⟩
  rename_i input made
  have facts := entry_ok made
  split at step
  swap
  · cases step
  have same := Except.ok.inj step
  rw [← same]
  have start : ∃ start, seeded input.key = some start ∧
      input.nonce = start + (ofKey input.key signing.inputs).length := by
    have slot := facts.slot
    rw [before.slot, Option.map_eq_some_iff] at slot
    obtain ⟨start, found, sum⟩ := slot
    exact ⟨start, found, sum.symm⟩
  obtain ⟨start, found, sum⟩ := start
  refine ⟨⟨signed ++ [request], sub.append (List.Sublist.refl _), ?_⟩, ?_, ?_, ?_, ?_⟩
  · rw [List.map_append, List.map_append, order]
    simp [facts.key, facts.uuid]
  · intro key
    dsimp only
    rw [ofKey_append]
    by_cases mine : input.key = key
    · rw [if_pos mine, ← mine, Function.update_self, found, sum, List.length_append]
      rfl
    · rw [if_neg mine, Function.update_of_ne (Ne.symm mine)]
      exact before.slot key
  · intro key first seededAt
    rw [ofKey_append]
    by_cases mine : input.key = key
    · have equal : first = start := by
        rw [← mine, found] at seededAt
        exact (Option.some.inj seededAt).symm
      have earlier := before.numbered key first seededAt
      rw [if_pos mine, List.map_append, earlier, List.length_append, List.length_singleton,
        List.range'_concat, ← mine, equal]
      simp [sum]
    · rw [if_neg mine]
      exact before.numbered key first seededAt
  · intro other member
    rw [List.mem_append, List.mem_singleton] at member
    rcases member with member | last
    · exact older other member
    · rw [last]
      exact ⟨signing.nonces, request, by simp, facts⟩
  · intro key
    rw [Finset.mem_insert, ofKey_append, before.committed key]
    by_cases mine : input.key = key
    · simp [mine]
    · simp [mine, Ne.symm mine]

theorem signRequests_progress {batch : Batch K} {seeded : NonceCache}
    {seen requests : List TransactionRequest} {signing final : Signing}
    (before : Progress batch seeded seen signing)
    (steps : signRequests batch signing requests = .ok final) :
    Progress batch seeded (seen ++ requests) final := by
  induction requests generalizing seen signing with
  | nil =>
    have same := Except.ok.inj steps
    rw [← same, List.append_nil]
    exact before
  | cons request requests ih =>
    unfold signRequests at steps
    split at steps
    · cases steps
    rename_i next step
    have after := ih (signRequest_progress before step) steps
    rw [List.append_assoc] at after
    exact after

end SigningLoop

section Batch

variable {K : Type} {subxt : Subxt} {ring : Keyring K} {keypair : K} {replies : Replies}

theorem prefetchChain_blockInfo {prefetch next : Prefetch} {key : ChainKey}
    (before : ∀ key info, prefetch.blockInfo key = some info →
      ChainInfo.getBlockAndSpecVersion (replies.currentBlock key) = .ok (.ok info))
    (step : prefetchChain subxt replies prefetch key = .ok next) :
    ∀ key info, next.blockInfo key = some info →
      ChainInfo.getBlockAndSpecVersion (replies.currentBlock key) = .ok (.ok info) := by
  unfold prefetchChain at step
  split at step
  · have same := Except.ok.inj step
    rw [← same]
    exact before
  split at step
  · cases step
  · have same := Except.ok.inj step
    rw [← same]
    exact before
  rename_i info fetched
  have known : ∀ other found, Function.update prefetch.blockInfo key (some info) other = some found →
      ChainInfo.getBlockAndSpecVersion (replies.currentBlock other) = .ok (.ok found) := by
    intro other found at_
    by_cases mine : other = key
    · rw [mine, Function.update_self] at at_
      rw [mine, ← Option.some.inj at_]
      exact fetched
    · rw [Function.update_of_ne mine] at at_
      exact before other found at_
  dsimp only at step
  split at step
  · split at step
    · have same := Except.ok.inj step
      rw [← same]
      exact before
    · have same := Except.ok.inj step
      rw [← same]
      exact known
  · have same := Except.ok.inj step
    rw [← same]
    exact known

theorem prefetchChains_blockInfo {prefetch final : Prefetch} {requests : List TransactionRequest}
    (before : ∀ key info, prefetch.blockInfo key = some info →
      ChainInfo.getBlockAndSpecVersion (replies.currentBlock key) = .ok (.ok info))
    (steps : prefetchChains subxt replies prefetch requests = .ok final) :
    ∀ key info, final.blockInfo key = some info →
      ChainInfo.getBlockAndSpecVersion (replies.currentBlock key) = .ok (.ok info) := by
  induction requests generalizing prefetch with
  | nil =>
    have same := Except.ok.inj steps
    rw [← same]
    exact before
  | cons request requests ih =>
    unfold prefetchChains at steps
    split at steps
    · cases steps
    rename_i next step
    exact ih (prefetchChain_blockInfo before step) steps

/-- What a batch is prepared from: the platform's replies, and the cache. -/
structure PreparedFrom (ring : Keyring K) (keypair : K) (replies : Replies) (nonces : NonceCache)
    (requests : List TransactionRequest) (prepared : Prepared) (batch : Batch K) : Prop where
  ring : batch.ring = ring
  keypair : batch.keypair = keypair
  blockInfo : ∀ key info, batch.prefetch.blockInfo key = some info →
    ChainInfo.getBlockAndSpecVersion (replies.currentBlock key) = .ok (.ok info)
  seeded : ∀ key, prepared.seeded key = nonces key ∨ ∃ platformNonce,
    ChainInfo.getAccountNonce (replies.accountNonce key) = .ok platformNonce ∧
      prepared.seeded key = some (rebase (nonces key) platformNonce)
  refreshed : ∀ input ∈ prepared.signing.inputs, ∃ platformNonce,
    ChainInfo.getAccountNonce (replies.accountNonce input.key) = .ok platformNonce ∧
      prepared.seeded input.key = some (rebase (nonces input.key) platformNonce)
  progress : Progress batch prepared.seeded requests prepared.signing

theorem prepare_ok {metadata : MetadataCache} {nonces : NonceCache}
    {requests : List TransactionRequest} {prepared : Prepared}
    (h : prepare subxt ring keypair replies metadata nonces requests = .ok prepared) :
    ∃ batch, PreparedFrom ring keypair replies nonces requests prepared batch := by
  unfold prepare at h
  split at h
  · cases h
  rename_i prefetch prefetched
  dsimp only at h
  have empty : Seeded replies nonces ⟨nonces, ∅, ∅⟩ :=
    ⟨fun key member => absurd member (Finset.notMem_empty key), fun key _ => rfl⟩
  have seeded := seedKeys_seeded replies prefetch.failedChains empty
    (requests.map (nonceKey ring keypair))
  have visits := seedKeys_visits replies prefetch.failedChains ⟨nonces, ∅, ∅⟩
    (requests.map (nonceKey ring keypair))
  generalize seedKeys replies prefetch.failedChains ⟨nonces, ∅, ∅⟩
    (requests.map (nonceKey ring keypair)) = seeding at h seeded visits
  split at h
  · cases h
  rename_i signing signed
  have same := Except.ok.inj h
  have start : Progress ⟨subxt, ring, keypair, prefetch, seeding.failedKeys⟩ seeding.nonces []
      ⟨seeding.nonces, [], ∅⟩ := by
    refine ⟨⟨[], List.Sublist.refl _, rfl⟩, ?_, fun key start _ => rfl, ?_, ?_⟩
    · intro key
      simp [ofKey]
    · intro input member
      cases member
    · intro key
      simp [ofKey]
  have progress := signRequests_progress start signed
  rw [List.nil_append] at progress
  rw [← same]
  refine ⟨_, rfl, rfl, ?_, fun key => ?_, ?_, progress⟩
  · exact prefetchChains_blockInfo (fun _ _ none_ => by cases none_) prefetched
  · by_cases fresh : key ∈ seeding.refreshedKeys
    · exact .inr (seeded.refreshed key fresh)
    · exact .inl (seeded.kept key fresh)
  · intro input member
    obtain ⟨_, request, place, made⟩ := progress.made input member
    have requested : input.key ∈ requests.map (nonceKey ring keypair) := by
      rw [made.key]
      exact List.mem_map_of_mem place
    have visited := (visits input.key (.inl requested)).resolve_left made.chain
    exact seeded.refreshed input.key (visited.resolve_right made.fetched)

theorem advanced_iff {nonces : NonceCache} {requests : List TransactionRequest}
    {prepared : Prepared} {batch : Batch K}
    (h : PreparedFrom ring keypair replies nonces requests prepared batch) (key : NonceKey) :
    prepared.signing.nonces key ≠ prepared.seeded key ↔
      key ∈ prepared.signing.committedKeys := by
  rw [h.progress.slot key, h.progress.committed key]
  constructor
  · intro moved none_
    rw [none_] at moved
    apply moved
    simp
  · intro some_ same
    obtain ⟨input, member⟩ := List.exists_mem_of_ne_nil _ some_
    obtain ⟨inside, mine⟩ := List.mem_filter.mp member
    obtain ⟨platformNonce, -, seeded⟩ := h.refreshed input inside
    rw [of_decide_eq_true mine] at seeded
    rw [seeded, Option.map_some, Option.some.injEq] at same
    have length := List.length_pos_of_ne_nil some_
    omega

end Batch

section Remark

/-- A runtime whose only call is `System.remark`, on subxt that refuses nothing. -/
def remarkSubxt : Subxt where
  scale := FuelTank.strict
  decodeMetadata _ := .ok ⟨[⟨"System", 0, [⟨"remark", 0, [⟨"remark", 0⟩]⟩]⟩],
    ⟨[.sequence 1, .primitive (.uint .w8)]⟩⟩
  codecErrorText _ := "the bytes are not an option of bytes"
  atBlockRefuses _ _ := false
  signableRefuses _ _ _ := none
  signRefuses _ _ _ _ := none

/-- Key pairs numbered by a byte, with one derived key pair. -/
def byteRing : Keyring UInt8 where
  publicKey k := List.replicate 32 k
  derive k _ := k + 1
  sign k _ := ⟨List.replicate 64 k, rfl⟩

/-- A platform at block `number` whose next nonce is `nonce` for every account. -/
def remarkReplies (number nonce : Int) (signTransactions : Send Bool) : Replies where
  currentBlock _ := answers (some ⟨number,
    "0x0000000000000000000000000000000000000000000000000000000000000000", 1⟩)
  chainInfo _ := answers (some ⟨1, 1, 14, "0x0100"⟩)
  accountNonce _ := answers nonce
  signTransactions := signTransactions

def remarkRequest (uuid : String) : TransactionRequest where
  requestId := uuid
  externalId := none
  network := .enjin
  chain := .matrix
  payload := [0, 0, 4, 42]
  fuelTankSignerExternalId := none

def remarkKey : NonceKey := (.enjin, .matrix, List.replicate 32 7)

end Remark

/-- The batch is reported as failed, the keys it advanced are dropped, and every
other key is as the seeding left it. -/
structure RolledBack (prepared : Prepared) (handled : Handled) : Prop where
  outcome : handled.outcome = .submissionFailed
  dropped : ∀ key, prepared.signing.nonces key ≠ prepared.seeded key → handled.nonces key = none
  kept : ∀ key, prepared.signing.nonces key = prepared.seeded key →
    handled.nonces key = prepared.seeded key

theorem submit_rolls_back {K : Type} {ring : Keyring K} {keypair : K} {replies : Replies}
    {nonces : NonceCache} {requests : List TransactionRequest} {prepared : Prepared}
    {batch : Batch K} (h : PreparedFrom ring keypair replies nonces requests prepared batch)
    (submitted : prepared.signing.inputs ≠ []) {error : String}
    (failed : signTransactions replies.signTransactions = .error error) (count : Nat) :
    RolledBack prepared (submit replies prepared count) := by
  have sent : prepared.signing.inputs.isEmpty = false := by simpa using submitted
  simp only [submit, sent, failed]
  refine ⟨rfl, fun key moved => ?_, fun key same => ?_⟩
  · have committed := (advanced_iff h key).mp moved
    simp [evictNonceKeys, committed]
  · have kept : key ∉ prepared.signing.committedKeys :=
      fun committed => (advanced_iff h key).mpr committed same
    simp [evictNonceKeys, kept, same]

/-- A batch that was sent and not accepted is rolled back, unless the platform
answered it with `false`. -/
theorem transactionHandler_rolls_back_iff {K : Type} (subxt : Subxt) (ring : Keyring K)
    (keypair : K) (replies : Replies) (metadata : MetadataCache) (nonces : NonceCache)
    (requests : List TransactionRequest) (prepared : Prepared)
    (h : prepare subxt ring keypair replies metadata nonces requests = .ok prepared)
    (submitted : prepared.signing.inputs ≠ [])
    (unaccepted : ¬ RepliesWith replies.signTransactions mutationRetries true) :
    (∃ handled, transactionHandler subxt ring keypair replies metadata nonces requests =
        .ok handled ∧ RolledBack prepared handled) ↔
      ¬ RepliesWith replies.signTransactions mutationRetries false := by
  have run : transactionHandler subxt ring keypair replies metadata nonces requests =
      .ok (submit replies prepared requests.length) := by rw [transactionHandler, h]
  have sent : prepared.signing.inputs.isEmpty = false := by simpa using submitted
  obtain ⟨batch, from_⟩ := prepare_ok h
  constructor
  · rintro ⟨handled, ran, rolledBack⟩ refused
    have taken := signTransactions_ok.mpr (.inr refused)
    have same : submit replies prepared requests.length = handled := by
      rw [run] at ran
      exact Except.ok.inj ran
    have outcome := rolledBack.outcome
    rw [← same] at outcome
    by_cases short : prepared.signing.inputs.length < requests.length
    · simp [submit, sent, taken, short] at outcome
    · simp [submit, sent, taken, short] at outcome
  · intro other
    refine ⟨_, run, ?_⟩
    cases failed : signTransactions replies.signTransactions with
    | error error => exact submit_rolls_back from_ submitted failed _
    | ok _ =>
      rcases signTransactions_ok.mp failed with accepted | refused
      · exact absurd accepted unaccepted
      · exact absurd refused other

/-- A failed submission is rolled back. -/
theorem transactionHandler_rolls_back_unavailable :
    ∃ prepared, prepare remarkSubxt byteRing 7 (remarkReplies 1000 5 unavailable) (fun _ => none)
        (fun _ => none) [remarkRequest "a"] = .ok prepared ∧
      ((∃ handled, transactionHandler remarkSubxt byteRing 7 (remarkReplies 1000 5 unavailable)
          (fun _ => none) (fun _ => none) [remarkRequest "a"] = .ok handled ∧
            RolledBack prepared handled) ↔
        ¬ RepliesWith (remarkReplies 1000 5 unavailable).signTransactions mutationRetries false) :=
  ⟨_, rfl, transactionHandler_rolls_back_iff _ _ _ _ _ _ _ _ rfl (by decide)
    (by rw [← executeQuery_ok]; decide)⟩

/-- A batch the platform refused with `false` is reported as completed. -/
theorem transactionHandler_keeps_refused :
    ∃ prepared, prepare remarkSubxt byteRing 7 (remarkReplies 1000 5 (answers false))
        (fun _ => none) (fun _ => none) [remarkRequest "a"] = .ok prepared ∧
      prepared.signing.inputs ≠ [] ∧
      ¬ RepliesWith (remarkReplies 1000 5 (answers false)).signTransactions mutationRetries true ∧
      ¬ ∃ handled, transactionHandler remarkSubxt byteRing 7 (remarkReplies 1000 5 (answers false))
          (fun _ => none) (fun _ => none) [remarkRequest "a"] = .ok handled ∧
            RolledBack prepared handled := by
  refine ⟨_, rfl, by decide, by rw [← executeQuery_ok]; decide, ?_⟩
  rintro ⟨handled, ran, rolledBack⟩
  have completed : (transactionHandler remarkSubxt byteRing 7
      (remarkReplies 1000 5 (answers false)) (fun _ => none) (fun _ => none)
      [remarkRequest "a"]).map Handled.outcome = .ok .completed := by rfl
  rw [ran] at completed
  have outcome : handled.outcome = .completed := Except.ok.inj completed
  rw [rolledBack.outcome] at outcome
  cases outcome

section Runs

variable {K : Type} (subxt : Subxt) (ring : Keyring K) (keypair : K)

/-- What was submitted, against the cache the tick started from: entries of
requests in their order, one key's nonces consecutive from the greater of its
slot and the platform's nonce, and one nonce for both extrinsics. -/
structure Numbered (replies : Replies) (cache : NonceCache) (requests : List TransactionRequest)
    (submitted : List SignTransactionInput) : Prop where
  in_order : ∃ signed : List TransactionRequest, signed.Sublist requests ∧
    submitted.map (fun input => (input.key, input.uuid)) =
      signed.map fun request => (nonceKey ring keypair request, request.requestId)
  consecutive : ∀ key, ofKey key submitted ≠ [] → ∃ platformNonce,
    ChainInfo.getAccountNonce (replies.accountNonce key) = .ok platformNonce ∧
      (ofKey key submitted).map SignTransactionInput.nonce =
        List.range' (match cache key with
          | some slot => max slot platformNonce
          | none => platformNonce) (ofKey key submitted).length
  one_nonce : ∀ input ∈ submitted,
    input.signedAbandonExtrinsic.params.nonce = input.signedExtrinsic.params.nonce
  signer : ∀ input ∈ submitted, input.signedExtrinsic.signer = input.key.2.2 ∧
    input.signedAbandonExtrinsic.signer = input.key.2.2

structure Ledger where
  metadata : MetadataCache
  nonces : NonceCache
  accepted : List SignTransactionInput

structure Tick where
  requests : List TransactionRequest
  idle : Finset ChainKey
  replies : Replies
  taken : List SignTransactionInput

/-- Whatever the platform replies, it accepts some of the submitted entries. -/
def Ticked (before : Ledger) (tick : Tick) (after : Ledger) : Prop :=
  ∃ handled, handleTick subxt ring keypair tick.replies before.metadata before.nonces
      tick.requests tick.idle = .ok handled ∧
    tick.taken.Sublist handled.submitted ∧
    after = ⟨handled.metadata, handled.nonces, before.accepted ++ tick.taken⟩

/-- A nonce the platform reports is above every nonce it accepted of the key. -/
def Honest (before : Ledger) (tick : Tick) : Prop :=
  ∀ key platformNonce,
    ChainInfo.getAccountNonce (tick.replies.accountNonce key) = .ok platformNonce →
      ∀ input ∈ before.accepted, input.key = key → input.nonce < platformNonce

/-- Slots are above what was accepted, and no nonce was accepted twice. -/
structure Safe (ledger : Ledger) : Prop where
  above : ∀ key slot, ledger.nonces key = some slot →
    ∀ input ∈ ledger.accepted, input.key = key → input.nonce < slot
  distinct : ledger.accepted.Pairwise fun a b => a.key = b.key → a.nonce ≠ b.nonce

variable {subxt ring keypair}

/-- Lower bound and upper bound of a key's submitted nonces. -/
theorem Progress.nonce_bounds {batch : Batch K} {seeded : NonceCache}
    {seen : List TransactionRequest} {signing : Signing}
    (h : Progress batch seeded seen signing) {input : SignTransactionInput}
    (member : input ∈ signing.inputs) {start : Nat} (at_ : seeded input.key = some start) :
    start ≤ input.nonce ∧ ∃ slot, signing.nonces input.key = some slot ∧ input.nonce < slot := by
  have mine : input ∈ ofKey input.key signing.inputs := by simp [ofKey, member]
  have listed : input.nonce ∈ (ofKey input.key signing.inputs).map SignTransactionInput.nonce :=
    List.mem_map_of_mem mine
  rw [h.numbered input.key start at_, List.mem_range'_1] at listed
  refine ⟨listed.1, start + (ofKey input.key signing.inputs).length, ?_, listed.2⟩
  rw [h.slot, at_]
  rfl

theorem Progress.increasing {batch : Batch K} {seeded : NonceCache}
    {seen : List TransactionRequest} {signing : Signing}
    (h : Progress batch seeded seen signing)
    (known : ∀ input ∈ signing.inputs, (seeded input.key).isSome) :
    signing.inputs.Pairwise fun a b => a.key = b.key → a.nonce < b.nonce := by
  rw [List.pairwise_iff_forall_sublist]
  intro a b sub same
  have first : a ∈ signing.inputs := sub.subset (by simp)
  obtain ⟨start, at_⟩ := Option.isSome_iff_exists.mp (known a first)
  have mine : [a, b].Sublist (ofKey a.key signing.inputs) := by
    have kept := sub.filter fun input => decide (input.key = a.key)
    simpa [ofKey, same] using kept
  have nonces := mine.map SignTransactionInput.nonce
  rw [h.numbered a.key start at_] at nonces
  have sorted := (List.pairwise_lt_range' 1).sublist nonces
  simpa using sorted

theorem evictIdleChains_some {nonces : NonceCache} {idle : Finset ChainKey} {key : NonceKey}
    {slot : Nat} (h : evictIdleChains nonces idle key = some slot) : nonces key = some slot := by
  unfold evictIdleChains at h
  split at h
  · cases h
  · exact h

theorem handleTick_ok {replies : Replies} {metadata : MetadataCache} {nonces : NonceCache}
    {requests : List TransactionRequest} {idle : Finset ChainKey} {handled : Handled}
    (h : handleTick subxt ring keypair replies metadata nonces requests idle = .ok handled) :
    (handled.submitted = [] ∧ handled.nonces = evictIdleChains nonces idle) ∨
      ∃ prepared batch, PreparedFrom ring keypair replies (evictIdleChains nonces idle) requests
          prepared batch ∧ handled.submitted = prepared.signing.inputs ∧
        ∀ key slot, handled.nonces key = some slot → prepared.signing.nonces key = some slot := by
  unfold handleTick at h
  dsimp only at h
  split at h
  · have same := Except.ok.inj h
    rw [← same]
    exact .inl ⟨rfl, rfl⟩
  unfold transactionHandler at h
  split at h
  · cases h
  rename_i prepared made
  obtain ⟨batch, from_⟩ := prepare_ok made
  have same := Except.ok.inj h
  refine .inr ⟨prepared, batch, from_, ?_, ?_⟩
  · rw [← same, submit]
    dsimp only
    split
    · rfl
    split
    · rfl
    split <;> rfl
  · intro key slot
    rw [← same, submit]
    dsimp only
    split
    · exact id
    split
    · simp only [evictNonceKeys]
      split
      · exact nofun
      · exact id
    split <;> exact id

theorem rebase_max (slot : Option Nat) (platformNonce : Nat) :
    rebase slot platformNonce = match slot with
      | some slot => max slot platformNonce
      | none => platformNonce := by
  cases slot with
  | none => rfl
  | some slot =>
    simp only [rebase]
    split <;> omega

theorem handleTick_numbered {replies : Replies} {metadata : MetadataCache} {nonces : NonceCache}
    {requests : List TransactionRequest} {idle : Finset ChainKey} {handled : Handled}
    (h : handleTick subxt ring keypair replies metadata nonces requests idle = .ok handled) :
    Numbered ring keypair replies (evictIdleChains nonces idle) requests handled.submitted := by
  rcases handleTick_ok h with ⟨none_, -⟩ | ⟨prepared, batch, from_, sent, -⟩
  · rw [none_]
    exact ⟨⟨[], List.nil_sublist _, rfl⟩, fun key some_ => absurd rfl some_, nofun, nofun⟩
  · rw [sent]
    refine ⟨?_, ?_, ?_, ?_⟩
    · have order := from_.progress.in_order
      rw [from_.ring, from_.keypair] at order
      exact order
    · intro key some_
      obtain ⟨input, member⟩ := List.exists_mem_of_ne_nil _ some_
      obtain ⟨inside, mine⟩ := List.mem_filter.mp member
      obtain ⟨platformNonce, fetched, seeded⟩ := from_.refreshed input inside
      rw [of_decide_eq_true mine] at fetched seeded
      refine ⟨platformNonce, fetched, ?_⟩
      rw [from_.progress.numbered key _ seeded, rebase_max]
    · intro input member
      obtain ⟨_, _, _, made⟩ := from_.progress.made input member
      obtain ⟨info, -, signed, dummy⟩ := made.params
      rw [signed, dummy]
      rfl
    · intro input member
      obtain ⟨_, _, _, made⟩ := from_.progress.made input member
      exact made.signer

/-- One tick keeps every slot above what was accepted. -/
theorem ticked_safe {before after : Ledger} {tick : Tick} (safe : Safe before)
    (step : gated Honest (Ticked subxt ring keypair) before tick after) : Safe after := by
  obtain ⟨honest, handled, run, taken, rfl⟩ := step
  have kept : ∀ key slot, evictIdleChains before.nonces tick.idle key = some slot →
      ∀ input ∈ before.accepted, input.key = key → input.nonce < slot :=
    fun key slot at_ => safe.above key slot (evictIdleChains_some at_)
  rcases handleTick_ok run with ⟨none_, same⟩ | ⟨prepared, batch, from_, sent, slots⟩
  · rw [none_] at taken
    have nothing : tick.taken = [] := List.sublist_nil.mp taken
    simp only [nothing, List.append_nil, same]
    exact ⟨kept, safe.distinct⟩
  rw [sent] at taken
  have seededAbove : ∀ key start, prepared.seeded key = some start →
      ∀ input ∈ before.accepted, input.key = key → input.nonce < start := by
    intro key start at_ input member mine
    rcases from_.seeded key with cached | ⟨platformNonce, fetched, rebased⟩
    · rw [cached] at at_
      exact kept key start at_ input member mine
    · have reported := honest key platformNonce fetched input member mine
      rw [rebased, rebase_max] at at_
      have equal := Option.some.inj at_
      split at equal <;> omega
  have known : ∀ input ∈ prepared.signing.inputs, ∃ start, prepared.seeded input.key = some start :=
    fun input member => by
      obtain ⟨_, -, seeded⟩ := from_.refreshed input member
      exact ⟨_, seeded⟩
  refine ⟨?_, ?_⟩
  · intro key slot at_ input member mine
    have slot_ := slots key slot at_
    rcases List.mem_append.mp member with old | new
    · rw [from_.progress.slot key, Option.map_eq_some_iff] at slot_
      obtain ⟨start, seeded, sum⟩ := slot_
      have below := seededAbove key start seeded input old mine
      omega
    · have inside := taken.subset new
      obtain ⟨start, seeded⟩ := known input inside
      obtain ⟨-, top, topAt, below⟩ := from_.progress.nonce_bounds inside seeded
      rw [mine, slot_, Option.some.injEq] at topAt
      omega
  · rw [List.pairwise_append]
    refine ⟨safe.distinct, ?_, ?_⟩
    · have increasing := from_.progress.increasing fun input member =>
        Option.isSome_iff_exists.mpr (known input member)
      exact (increasing.sublist taken).imp fun lt same => Nat.ne_of_lt (lt same)
    · intro old oldMember new newMember same
      have inside := taken.subset newMember
      obtain ⟨start, seeded⟩ := known new inside
      have low := (from_.progress.nonce_bounds inside seeded).1
      have below := seededAbove new.key start seeded old oldMember same
      omega

/-- One key's nonces are consecutive within a batch, and over runs no nonce of a
key is accepted twice. -/
theorem nonces_never_reused (subxt : Subxt) (ring : Keyring K) (keypair : K) :
    (∀ replies metadata nonces requests idle handled,
      handleTick subxt ring keypair replies metadata nonces requests idle = .ok handled →
        Numbered ring keypair replies (evictIdleChains nonces idle) requests handled.submitted) ∧
    ∀ metadata ticks after,
      Path (gated Honest (Ticked subxt ring keypair)) ⟨metadata, fun _ => none, []⟩ ticks after →
        after.accepted.Pairwise fun a b => a.key = b.key → a.nonce ≠ b.nonce := by
  refine ⟨fun _ _ _ _ _ _ => handleTick_numbered, fun metadata ticks after path => ?_⟩
  have start : Safe ⟨metadata, fun _ => none, []⟩ :=
    ⟨nofun, List.Pairwise.nil⟩
  have safe := path.invariant (I := Safe) (fun _ _ _ => ticked_safe) start
  exact safe.distinct

end Runs

def remarkExtrinsic (nonce mortality : Nat) : SignedExtrinsic where
  signer := List.replicate 32 7
  genesisHash := ChainInfo.genesisHash .enjin .matrix
  specVersion := 1
  transactionVersion := 1
  callData := if mortality = txMortality then [0, 0, 4, 42] else [0, 0, 0]
  params := ⟨nonce, mortality, 1000, List.replicate 32 0⟩

def remarkTick (uuid : String) (nonce : Nat) (signTransactions : Send Bool) : Tick where
  requests := [remarkRequest uuid]
  idle := ∅
  replies := remarkReplies 1000 nonce signTransactions
  taken := [⟨remarkKey, uuid, remarkExtrinsic nonce txMortality,
    remarkExtrinsic nonce dummyTxMortality⟩]

/-- The first acceptance is not heard of, and the second request gets the next
nonce. -/
theorem nonces_never_reused_lost :
    ∃ after, Path (gated Honest (Ticked remarkSubxt byteRing 7)) ⟨fun _ => none, fun _ => none, []⟩
        [remarkTick "a" 5 unavailable, remarkTick "b" 6 (answers true)] after ∧
      after.accepted.map SignTransactionInput.nonce = [5, 6] ∧
      after.accepted.Pairwise fun a b => a.key = b.key → a.nonce ≠ b.nonce := by
  have first : Ticked remarkSubxt byteRing 7 ⟨fun _ => none, fun _ => none, []⟩
      (remarkTick "a" 5 unavailable) _ := ⟨_, rfl, List.Sublist.refl _, rfl⟩
  have honest : ∀ before : Ledger, (∀ input ∈ before.accepted, input.nonce = 5) →
      Honest before (remarkTick "b" 6 (answers true)) := by
    intro before five key platformNonce fetched input member _
    have six : platformNonce = 6 := (Except.ok.inj fetched).symm
    have nonce := five input member
    omega
  have fresh : Honest ⟨fun _ => none, fun _ => none, []⟩ (remarkTick "a" 5 unavailable) :=
    fun _ _ _ _ none_ => absurd none_ List.not_mem_nil
  have path := Path.snoc (R := gated Honest (Ticked remarkSubxt byteRing 7))
    (Path.single ⟨fresh, first⟩) ⟨honest _ (by decide), _, rfl, List.Sublist.refl _, rfl⟩
  exact ⟨_, path, rfl, (nonces_never_reused remarkSubxt byteRing 7).2 _ _ _ path⟩

end WalletDaemon.TransactionHandler
