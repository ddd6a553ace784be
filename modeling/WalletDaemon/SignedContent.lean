import WalletDaemon.Accounts

/-! What a submitted entry commits to: the call of its request, byte for byte,
and the runtime its chain was last seen with. -/

namespace WalletDaemon.TransactionHandler

open Platform Transition

section Calls

variable {K : Type}

theorem entry_payload {batch : Batch K} {nonces : NonceCache} {request : TransactionRequest}
    {info : BlockInfo} {client : SubstrateClient} {input : SignTransactionInput}
    (reached : target batch (nonceKey batch.ring batch.keypair request) = .ok (info, client))
    (h : entry batch nonces request = .ok (.ok input)) :
    ∃ payload nonce, fuelTankPayload batch request client.metadata
        (nonceKey batch.ring batch.keypair request).2.2 info.blockNumber = .ok (.ok payload) ∧
      signPayload batch client (nonceKey batch.ring batch.keypair request).2.2 nonce info payload =
        .ok input.signedExtrinsic := by
  unfold entry at h
  dsimp only at h
  rw [reached] at h
  dsimp only at h
  split at h
  · cases h
  rename_i nonce slot
  split at h
  · cases h
  · cases h
  rename_i payload rewritten
  split at h
  · cases h
  split at h
  · cases h
  rename_i signed payloadSigned
  obtain rfl : _ = input := Except.ok.inj (Except.ok.inj h)
  exact ⟨payload, nonce, rewritten, payloadSigned⟩

/-- Where the runtime's names are unique, the call that is signed for a request
is the payload that was sent, with its fuel tank signature if it asked for one. -/
theorem signed_call_is_payload (batch : Batch K) (nonces : NonceCache)
    (request : TransactionRequest) (info : BlockInfo) (client : SubstrateClient)
    (reached : target batch (nonceKey batch.ring batch.keypair request) = .ok (info, client))
    (unique : client.metadata.UniqueNames) (payload : Bytes) (raw : RawPayload)
    (rewritten : fuelTankPayload batch request client.metadata
      (nonceKey batch.ring batch.keypair request).2.2 info.blockNumber = .ok (.ok payload))
    (named : RawPayload.fromBytes client.metadata payload = some raw) :
    Subxt.callData client raw = .ok payload ∧
      ∀ input, entry batch nonces request = .ok (.ok input) →
        input.signedExtrinsic.callData = payload := by
  have encoded := Subxt.callData_fromBytes unique named
  refine ⟨encoded, fun input entered => ?_⟩
  obtain ⟨payload', nonce, rewritten', signed⟩ := entry_payload reached entered
  obtain rfl : payload = payload' :=
    Except.ok.inj (Except.ok.inj (rewritten.symm.trans rewritten'))
  obtain ⟨raw', named', extrinsic⟩ := signPayload_signed signed
  obtain rfl : raw = raw' := Option.some.inj (named.symm.trans named')
  have built := Subxt.signedExtrinsic_callData extrinsic
  exact (Except.ok.inj (encoded.symm.trans built)).symm

def remarkClient : SubstrateClient where
  genesisHash := ChainInfo.genesisHash .enjin .matrix
  specVersion := 1
  transactionVersion := 1
  metadata := ⟨[⟨"System", 0, [⟨"remark", 0, [⟨"remark", 0⟩]⟩]⟩],
    ⟨[.sequence 1, .primitive (.uint .w8)]⟩⟩

def remarkBatch : Batch UInt8 where
  subxt := remarkSubxt
  ring := byteRing
  keypair := 7
  prefetch := {
    blockInfo := fun _ => some ⟨1000, List.replicate 32 0, 1⟩
    failedChains := ∅
    metadata := fun _ => some ⟨1, remarkClient⟩ }
  failedKeys := ∅

theorem signed_call_is_payload_remark :
    ∃ input, entry remarkBatch (fun _ => some 5) (remarkRequest "a") = .ok (.ok input) ∧
      input.signedExtrinsic.callData = [0, 0, 4, 42] :=
  ⟨_, rfl, (signed_call_is_payload remarkBatch (fun _ => some 5) (remarkRequest "a") _ _ rfl
    ⟨by decide, by decide⟩ _ _ rfl rfl).2 _ rfl⟩

end Calls

section Runtimes

variable {K : Type}

/-- A cached runtime is its client's, as in everything the update inserts. -/
def Coherent (metadata : MetadataCache) : Prop :=
  ∀ key local_, metadata key = some local_ → local_.client.specVersion = local_.specVersion

theorem updated_coherent {subxt : Subxt} {key : ChainKey} {send : Send (Option ChainInfo)}
    {fresh : MetadataInfo}
    (h : ChainInfo.updateMetadataAndSubstrateClient subxt key send = .ok fresh) :
    fresh.client.specVersion = fresh.specVersion := by
  unfold ChainInfo.updateMetadataAndSubstrateClient at h
  split at h
  · cases h
  · cases h
  split at h
  · cases h
  split at h
  · cases h
  split at h
  · cases h
  · cases h
  split at h
  · cases h
  rw [← Except.ok.inj h]

theorem updated_reply {subxt : Subxt} {key : ChainKey} {send : Send (Option ChainInfo)}
    {fresh : MetadataInfo}
    (h : ChainInfo.updateMetadataAndSubstrateClient subxt key send = .ok fresh) :
    ∃ chain, executeQuery send none = .ok (some chain) ∧
      fresh.specVersion = asU32 chain.specVersion := by
  unfold ChainInfo.updateMetadataAndSubstrateClient at h
  split at h
  · cases h
  · cases h
  rename_i chain replied
  refine ⟨chain, replied, ?_⟩
  split at h
  · cases h
  split at h
  · cases h
  split at h
  · cases h
  · cases h
  split at h
  · cases h
  rw [← Except.ok.inj h]

theorem Coherent.update {metadata : MetadataCache} (coherent : Coherent metadata)
    {fresh : MetadataInfo} (same : fresh.client.specVersion = fresh.specVersion) (key : ChainKey) :
    Coherent (Function.update metadata key (some fresh)) := by
  intro other local_ cached
  by_cases here : other = key
  · rw [here, Function.update_self] at cached
    rw [← Option.some.inj cached]
    exact same
  · rw [Function.update_of_ne here] at cached
    exact coherent other local_ cached

theorem prefetchChains_coherent {subxt : Subxt} {replies : Replies} {prefetch final : Prefetch}
    {requests : List TransactionRequest} (coherent : Coherent prefetch.metadata)
    (steps : prefetchChains subxt replies prefetch requests = .ok final) :
    Coherent final.metadata := by
  induction requests generalizing prefetch with
  | nil =>
    rw [← Except.ok.inj steps]
    exact coherent
  | cons request requests ih =>
    unfold prefetchChains at steps
    split at steps
    · cases steps
    rename_i next step
    refine ih ?_ steps
    unfold prefetchChain at step
    split at step
    · rw [← Except.ok.inj step]
      exact coherent
    split at step
    · cases step
    · rw [← Except.ok.inj step]
      exact coherent
    dsimp only at step
    split at step
    · split at step
      · rw [← Except.ok.inj step]
        exact coherent
      · rename_i fresh updated
        rw [← Except.ok.inj step]
        exact coherent.update (updated_coherent updated) _
    · rw [← Except.ok.inj step]
      exact coherent

theorem prepare_coherent {subxt : Subxt} {ring : Keyring K} {keypair : K} {replies : Replies}
    {metadata : MetadataCache} {nonces : NonceCache} {requests : List TransactionRequest}
    {prepared : Prepared} (coherent : Coherent metadata)
    (h : prepare subxt ring keypair replies metadata nonces requests = .ok prepared) :
    Coherent prepared.metadata := by
  unfold prepare at h
  split at h
  · cases h
  rename_i prefetch prefetched
  dsimp only at h
  split at h
  · cases h
  rw [← Except.ok.inj h]
  exact prefetchChains_coherent coherent prefetched

theorem submit_keeps (replies : Replies) (prepared : Prepared) (requestCount : Nat) :
    (submit replies prepared requestCount).metadata = prepared.metadata ∧
      (submit replies prepared requestCount).submitted = prepared.signing.inputs := by
  unfold submit
  dsimp only
  split
  · exact ⟨rfl, rfl⟩
  split
  · exact ⟨rfl, rfl⟩
  split <;> exact ⟨rfl, rfl⟩

/-- Where the cached runtime of a chain is behind the one its block was reported
with, the chain info that replaces it is not. -/
def KeepsUp (subxt : Subxt) (replies : Replies) (metadata : MetadataCache) (key : ChainKey) :
    Prop :=
  ∀ info chain, ChainInfo.getBlockAndSpecVersion (replies.currentBlock key) = .ok (.ok info) →
    needsUpdate metadata key info.specVersion = true →
    executeQuery (replies.chainInfo key) none = .ok (some chain) →
    (ChainInfo.updateMetadataAndSubstrateClient subxt key (replies.chainInfo key)).isOk →
      info.specVersion ≤ asU32 chain.specVersion

theorem lookupChain_current {subxt : Subxt} {replies : Replies} {metadata : MetadataCache}
    {key : ChainKey} {info : BlockInfo} {local_ : MetadataInfo} (coherent : Coherent metadata)
    (h : lookupChain subxt replies metadata key = .ok (some (info, local_))) :
    ChainInfo.getBlockAndSpecVersion (replies.currentBlock key) = .ok (.ok info) ∧
      (info.specVersion ≤ local_.client.specVersion ↔ KeepsUp subxt replies metadata key) := by
  unfold lookupChain at h
  split at h
  · cases h
  · cases h
  rename_i info' read
  split at h
  · rename_i stale
    split at h
    · cases h
    · rename_i fresh updated
      obtain ⟨rfl, rfl⟩ := Prod.mk.inj (Option.some.inj (Except.ok.inj h))
      obtain ⟨chain, replied, version⟩ := updated_reply updated
      refine ⟨read, ?_⟩
      rw [updated_coherent updated, version]
      constructor
      · intro ahead info chain' read' _ replied' _
        obtain rfl : _ = info := Except.ok.inj (Except.ok.inj (read.symm.trans read'))
        obtain rfl : chain = chain' := Option.some.inj (Except.ok.inj (replied.symm.trans replied'))
        exact ahead
      · intro keepsUp
        exact keepsUp _ chain read stale replied (by rw [updated]; rfl)
  · rename_i upToDate
    obtain ⟨cached, found, notBehind⟩ := needsUpdate_some (by simpa using upToDate)
    rw [found] at h
    obtain ⟨rfl, rfl⟩ := Prod.mk.inj (Option.some.inj (Except.ok.inj h))
    refine ⟨read, ?_⟩
    rw [coherent key _ found]
    refine iff_of_true notBehind fun info chain read' stale => ?_
    obtain rfl : _ = info := Except.ok.inj (Except.ok.inj (read.symm.trans read'))
    exact absurd stale upToDate

/-- Both extrinsics of an entry were built for a runtime that is not behind what
the block prefetch of its batch reported. -/
def Current (replies : Replies) (input : SignTransactionInput) : Prop :=
  ∃ info, ChainInfo.getBlockAndSpecVersion (replies.currentBlock input.key.chainKey) =
      .ok (.ok info) ∧
    info.specVersion ≤ input.signedExtrinsic.specVersion ∧
    info.specVersion ≤ input.signedAbandonExtrinsic.specVersion

theorem entryAt_runtime {subxt : Subxt} {ring : Keyring K} {keypair : K} {account : Account}
    {nonce : Nat} {request : TransactionRequest} {input : SignTransactionInput}
    (h : entryAt subxt ring keypair account nonce request = .ok (some input)) :
    input.key = nonceKey ring keypair request ∧
      input.signedExtrinsic.specVersion = account.client.specVersion ∧
      input.signedAbandonExtrinsic.specVersion = account.client.specVersion := by
  obtain ⟨key, -, -, payload, -, signed, dummy⟩ := entryAt_some h
  obtain ⟨raw, -, built⟩ := signPayload_signed signed
  exact ⟨key, Subxt.signedExtrinsic_specVersion built,
    Subxt.signedExtrinsic_specVersion (signDummy_signed dummy)⟩

theorem openAccount_chain {subxt : Subxt} {replies : Replies} {metadata : MetadataCache}
    {nonces : NonceCache} {key : NonceKey} {account : Account}
    (h : openAccount subxt replies metadata nonces key = some account) :
    ∃ local_, lookupChain subxt replies metadata key.chainKey = .ok (some (account.info, local_)) ∧
      account.client = local_.client := by
  unfold openAccount at h
  split at h
  · rename_i info local_ looked
    split at h
    · split at h
      · cases h
      · rw [← Option.some.inj h]
        exact ⟨local_, looked, rfl⟩
    · cases h
  · cases h

/-- An entry is current exactly if the refresh of its chain, where there was one,
kept up with the reported runtime. -/
theorem submitted_current {subxt : Subxt} {ring : Keyring K} {keypair : K} {replies : Replies}
    {metadata : MetadataCache} {nonces : NonceCache} {requests : List TransactionRequest}
    {inputs : List SignTransactionInput} (coherent : Coherent metadata)
    (ran : submitted subxt ring keypair replies metadata nonces requests = .ok inputs) :
    ∀ input ∈ inputs, input.key.chainKey ∈ requests.map TransactionRequest.chainKey ∧
      (Current replies input ↔ KeepsUp subxt replies metadata input.key.chainKey) := by
  have readable : Readable subxt replies metadata requests := by
    by_contra unreadable
    obtain ⟨panic, failed⟩ := submitted_unreadable ring keypair nonces unreadable
    cases failed.symm.trans ran
  rw [submitted_eq readable] at ran
  intro input member
  obtain ⟨request, listed, account, nonce, opened, entered⟩ := signAll_made ran input member
  obtain ⟨key, signed, dummy⟩ := entryAt_runtime entered
  obtain ⟨local_, looked, client⟩ := openAccount_chain opened
  rw [← key] at looked
  obtain ⟨read, current⟩ := lookupChain_current coherent looked
  refine ⟨?_, ?_⟩
  · rw [key]
    exact List.mem_map_of_mem listed
  · rw [← current, ← client, Current, signed, dummy]
    constructor
    · rintro ⟨info, read', ahead, -⟩
      obtain rfl : account.info = info := Except.ok.inj (Except.ok.inj (read.symm.trans read'))
      exact ahead
    · intro ahead
      exact ⟨account.info, read, ahead, ahead⟩

theorem handleTick_submitted {subxt : Subxt} {ring : Keyring K} {keypair : K} {replies : Replies}
    {metadata : MetadataCache} {nonces : NonceCache} {requests : List TransactionRequest}
    {idle : Finset ChainKey} {handled : Handled} (coherent : Coherent metadata)
    (ran : handleTick subxt ring keypair replies metadata nonces requests idle = .ok handled) :
    Coherent handled.metadata ∧
      submitted subxt ring keypair replies metadata (evictIdleChains nonces idle) requests =
        .ok handled.submitted := by
  unfold handleTick at ran
  dsimp only at ran
  split at ran
  · rename_i nothing
    rw [List.isEmpty_iff.mp nothing, ← Except.ok.inj ran]
    exact ⟨coherent, rfl⟩
  unfold transactionHandler at ran
  split at ran
  · cases ran
  rename_i prepared made
  rw [← Except.ok.inj ran]
  refine ⟨?_, ?_⟩
  · rw [(submit_keeps replies prepared _).1]
    exact prepare_coherent coherent made
  · rw [submitted, made, (submit_keeps replies prepared _).2]
    rfl

structure Submissions where
  metadata : MetadataCache
  nonces : NonceCache
  entries : List (Replies × SignTransactionInput)

structure BatchTick where
  requests : List TransactionRequest
  idle : Finset ChainKey
  replies : Replies

def Submits (subxt : Subxt) (ring : Keyring K) (keypair : K) (before : Submissions)
    (tick : BatchTick) (after : Submissions) : Prop :=
  ∃ handled, handleTick subxt ring keypair tick.replies before.metadata before.nonces
      tick.requests tick.idle = .ok handled ∧
    after = ⟨handled.metadata, handled.nonces,
      before.entries ++ handled.submitted.map fun input => (tick.replies, input)⟩

def Refreshes (subxt : Subxt) (before : Submissions) (tick : BatchTick) : Prop :=
  ∀ request ∈ tick.requests, KeepsUp subxt tick.replies before.metadata request.chainKey

/-- The cache is coherent and all entries so far are current. -/
structure Submissions.Sound (s : Submissions) : Prop where
  coherent : Coherent s.metadata
  current : ∀ entry ∈ s.entries, Current entry.1 entry.2

theorem Submits.sound {subxt : Subxt} {ring : Keyring K} {keypair : K} {before after : Submissions}
    {tick : BatchTick} (refreshes : Refreshes subxt before tick)
    (step : Submits subxt ring keypair before tick after) (sound : before.Sound) : after.Sound := by
  obtain ⟨handled, ran, rfl⟩ := step
  obtain ⟨coherent, sent⟩ := handleTick_submitted sound.coherent ran
  refine ⟨coherent, fun entry member => ?_⟩
  rcases List.mem_append.mp member with earlier | new
  · exact sound.current entry earlier
  · obtain ⟨input, place, rfl⟩ := List.mem_map.mp new
    obtain ⟨listed, current⟩ := submitted_current sound.coherent sent input place
    obtain ⟨request, asked, chain⟩ := List.mem_map.mp listed
    refine current.mpr ?_
    rw [← chain]
    exact refreshes request asked

/-- In a run whose refreshes keep up, every entry is signed for a runtime that
is not behind what its batch saw. -/
theorem signed_with_current_metadata (subxt : Subxt) (ring : Keyring K) (keypair : K)
    (metadata : MetadataCache) (nonces : NonceCache) (ticks : List BatchTick) (s : Submissions)
    (coherent : Coherent metadata)
    (path : Path (gated (Refreshes subxt) (Submits subxt ring keypair))
      ⟨metadata, nonces, []⟩ ticks s) :
    ∀ entry ∈ s.entries, Current entry.1 entry.2 := by
  have start : (⟨metadata, nonces, []⟩ : Submissions).Sound := ⟨coherent, fun _ => nofun⟩
  have preserve : ∀ before tick after, before.Sound →
      gated (Refreshes subxt) (Submits subxt ring keypair) before tick after → after.Sound :=
    fun _ _ _ sound step => Submits.sound step.1 step.2 sound
  exact (path.invariant preserve start).current

/-- A remark tick whose block and chain info may name different runtimes. -/
def runtimeTick (uuid : String) (reported described : Int) : BatchTick where
  requests := [remarkRequest uuid]
  idle := ∅
  replies := { remarkReplies 1000 5 (answers true) with
    currentBlock := fun _ => answers (some ⟨1000,
      "0x0000000000000000000000000000000000000000000000000000000000000000", reported⟩)
    chainInfo := fun _ => answers (some ⟨described, 1, 14, "0x0100"⟩) }

theorem runtimeTick_refreshes (uuid : String) (version : Int) (before : Submissions) :
    Refreshes remarkSubxt before (runtimeTick uuid version version) := by
  intro request _ info chain read _ replied _
  obtain ⟨block, reported, same⟩ := ChainInfo.getBlockAndSpecVersion_reply read
  obtain rfl := Option.some.inj (Except.ok.inj reported)
  obtain rfl := Option.some.inj (Except.ok.inj replied)
  exact same.le

/-- The runtime is upgraded between two ticks. -/
theorem signed_with_current_metadata_upgrade :
    ∃ s, Path (gated (Refreshes remarkSubxt) (Submits remarkSubxt byteRing 7))
        ⟨fun _ => none, fun _ => none, []⟩ [runtimeTick "a" 1 1, runtimeTick "b" 2 2] s ∧
      s.entries.map (fun entry => entry.2.signedExtrinsic.specVersion) = [1, 2] ∧
      ∀ entry ∈ s.entries, Current entry.1 entry.2 := by
  have path := Path.snoc (R := gated (Refreshes remarkSubxt) (Submits remarkSubxt byteRing 7))
    (Path.single ⟨runtimeTick_refreshes "a" 1 ⟨fun _ => none, fun _ => none, []⟩, _, rfl, rfl⟩)
    ⟨runtimeTick_refreshes "b" 2 _, _, rfl, rfl⟩
  have empty : Coherent fun _ => none := fun _ _ => nofun
  exact ⟨_, path, by decide, signed_with_current_metadata remarkSubxt byteRing 7 _ _ _ _ empty path⟩

/-- The chain info may still describe the runtime before the block's. -/
theorem signed_with_outdated_metadata :
    ¬ ∀ (metadata : MetadataCache) (ticks : List BatchTick) (s : Submissions),
      Path (Submits remarkSubxt byteRing 7) ⟨metadata, fun _ => none, []⟩ ticks s →
        ∀ entry ∈ s.entries, Current entry.1 entry.2 := by
  intro claim
  have ran : Submits remarkSubxt byteRing 7 ⟨fun _ => none, fun _ => none, []⟩
      (runtimeTick "a" 2 1) _ := ⟨_, rfl, rfl⟩
  obtain ⟨info, read, ahead, -⟩ := claim _ _ _ (Path.single ran) _ (List.mem_singleton.mpr rfl)
  obtain rfl : _ = info := Except.ok.inj (Except.ok.inj read)
  exact absurd ahead (by decide)

end Runtimes

end WalletDaemon.TransactionHandler
