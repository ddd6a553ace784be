import WalletDaemon.Era
import WalletDaemon.NonceSafety

/-! Where the two extrinsics of a request are anchored.
Both commit to the hash of the prefetched block. The runtime finds that block
again from the era of the short-lived one; the era of the abandon extrinsic is
quantized, and finds it only when its number is a multiple of four. -/

namespace WalletDaemon

open Platform

/-- Wherever in its window the head is, the runtime takes the hash of the block
the extrinsic commits to. -/
def ExtrinsicParams.Anchored (params : ExtrinsicParams) : Prop :=
  Era.AnchorAgrees (Era.periodFromRaw params.forNBlocks) params.fromBlockN

namespace TransactionHandler

theorem tx_quantum : Era.quantizeFactor (Era.periodFromRaw txMortality) = 1 := by decide

theorem dummyTx_quantum : Era.quantizeFactor (Era.periodFromRaw dummyTxMortality) = 4 := by
  decide

theorem mortalParams_anchored_iff (nonce mortality : Nat) (info : BlockInfo) :
    (mortalParams nonce mortality info).Anchored ↔
      info.blockNumber % Era.quantizeFactor (Era.periodFromRaw mortality) = 0 :=
  Era.anchorAgrees_raw_iff mortality info.blockNumber

/-- Both extrinsics of a submitted entry are anchored at the prefetched block,
for every head in their windows, exactly when that block's number is a multiple
of four. -/
theorem entries_anchored_iff {K : Type} (subxt : Subxt) (ring : Keyring K) (keypair : K)
    (replies : Replies) (metadata : MetadataCache) (nonces : NonceCache)
    (requests : List TransactionRequest) (prepared : Prepared)
    (h : prepare subxt ring keypair replies metadata nonces requests = .ok prepared)
    (input : SignTransactionInput) (member : input ∈ prepared.signing.inputs) :
    ∃ info, ChainInfo.getBlockAndSpecVersion (replies.currentBlock input.key.chainKey) =
        .ok (.ok info) ∧
      input.signedExtrinsic.params = mortalParams input.nonce txMortality info ∧
      input.signedAbandonExtrinsic.params = mortalParams input.nonce dummyTxMortality info ∧
      (input.signedExtrinsic.params.Anchored ∧ input.signedAbandonExtrinsic.params.Anchored ↔
        info.blockNumber % 4 = 0) := by
  obtain ⟨batch, from_⟩ := prepare_ok h
  obtain ⟨_, _, _, made⟩ := from_.progress.made input member
  obtain ⟨info, at_, signed, dummy⟩ := made.params
  refine ⟨info, from_.blockInfo _ _ at_, signed, dummy, ?_⟩
  rw [signed, dummy, mortalParams_anchored_iff, mortalParams_anchored_iff, tx_quantum,
    dummyTx_quantum, Nat.mod_one]
  simp

/-- At a block with a round number both are. -/
theorem entries_anchored_round :
    ∃ prepared input, ∃ info : BlockInfo,
      prepare remarkSubxt byteRing 7 (remarkReplies 1000 5 (answers true))
        (fun _ => none) (fun _ => none) [remarkRequest "a"] = .ok prepared ∧
      prepared.signing.inputs = [input] ∧ info.blockNumber = 1000 ∧
      (input.signedExtrinsic.params.Anchored ∧ input.signedAbandonExtrinsic.params.Anchored ↔
        info.blockNumber % 4 = 0) := by
  obtain ⟨info, block, -, -, anchored⟩ := entries_anchored_iff remarkSubxt byteRing 7
    (remarkReplies 1000 5 (answers true)) (fun _ => none) (fun _ => none) [remarkRequest "a"] _ rfl
    _ (List.mem_singleton.mpr rfl)
  refine ⟨_, _, info, rfl, rfl, ?_, anchored⟩
  have same := Except.ok.inj (Except.ok.inj block)
  rw [← same]
  rfl

/-- At block 1001 the abandon extrinsic's era is anchored at block 1000. -/
theorem entries_misanchored :
    ∃ prepared input, prepare remarkSubxt byteRing 7 (remarkReplies 1001 5 (answers true))
        (fun _ => none) (fun _ => none) [remarkRequest "a"] = .ok prepared ∧
      input ∈ prepared.signing.inputs ∧ input.signedAbandonExtrinsic.params.fromBlockN = 1001 ∧
      ¬ input.signedAbandonExtrinsic.params.Anchored := by
  refine ⟨_, _, rfl, List.mem_singleton.mpr rfl, rfl, ?_⟩
  intro anchored
  have here := anchored 1001 (le_refl _) (by decide)
  exact absurd here (by decide)

end TransactionHandler

end WalletDaemon
