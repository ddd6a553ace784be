import WalletDaemon.NonceSafety

/-! Nonces against a platform that counts them. It reports the next nonce of a key, takes
a batch whole or not at all, and answers a batch with data only if it took it. Then a
key's entries start at its next nonce: none is skipped, whatever replies are lost. -/

namespace WalletDaemon.TransactionHandler

open Platform Transition

section Runs

variable {K : Type} (subxt : Subxt) (ring : Keyring K) (keypair : K)

structure Books where
  metadata : MetadataCache
  nonces : NonceCache
  next : NonceKey → Nat

/-- A tick. `foreign` is how far others moved a key's nonce before it, and `accepts`
whether the platform takes the batch. -/
structure Exchange where
  requests : List TransactionRequest
  idle : Finset ChainKey
  replies : Replies
  foreign : NonceKey → Nat
  accepts : Bool

def Books.during (before : Books) (exchange : Exchange) (key : NonceKey) : Nat :=
  before.next key + exchange.foreign key

def Exchanged (before : Books) (exchange : Exchange) (after : Books) : Prop :=
  ∃ handled, handleTick subxt ring keypair exchange.replies before.metadata before.nonces
      exchange.requests exchange.idle = .ok handled ∧
    after = ⟨handled.metadata, handled.nonces, fun key =>
      before.during exchange key +
        if exchange.accepts then (ofKey key handled.submitted).length else 0⟩

/-- A nonce that is reported is the key's next, and data is for a batch that was taken. -/
def Faithful (before : Books) (exchange : Exchange) : Prop :=
  (∀ key platformNonce,
    ChainInfo.getAccountNonce (exchange.replies.accountNonce key) = .ok platformNonce →
      platformNonce = before.during exchange key) ∧
  (signTransactions exchange.replies.signTransactions = .ok () → exchange.accepts = true)

/-- No slot is ahead of the platform. -/
def Books.Behind (books : Books) : Prop :=
  ∀ key slot, books.nonces key = some slot → slot ≤ books.next key

variable {subxt ring keypair}

theorem handleTick_submits {replies : Replies} {metadata : MetadataCache} {nonces : NonceCache}
    {requests : List TransactionRequest} {idle : Finset ChainKey} {handled : Handled}
    (h : handleTick subxt ring keypair replies metadata nonces requests idle = .ok handled) :
    handled = ⟨.completed, metadata, evictIdleChains nonces idle, []⟩ ∨
      ∃ prepared batch, PreparedFrom ring keypair replies (evictIdleChains nonces idle) requests
          prepared batch ∧ handled = submit replies prepared requests.length := by
  unfold handleTick at h
  dsimp only at h
  split at h
  · exact .inl (Except.ok.inj h).symm
  unfold transactionHandler at h
  split at h
  · cases h
  rename_i prepared made
  obtain ⟨batch, from_⟩ := prepare_ok made
  exact .inr ⟨prepared, batch, from_, (Except.ok.inj h).symm⟩

theorem submit_leaves {replies : Replies} {prepared : Prepared} {count : Nat} {key : NonceKey}
    {slot : Nat} (left : (submit replies prepared count).nonces key = some slot) :
    prepared.signing.nonces key = some slot ∧
      (prepared.signing.inputs = [] ∨ key ∉ prepared.signing.committedKeys ∨
        signTransactions replies.signTransactions = .ok ()) := by
  unfold submit at left
  dsimp only at left
  split at left
  · rename_i none_
    exact ⟨left, .inl (List.isEmpty_iff.mp none_)⟩
  split at left
  · simp only [evictNonceKeys] at left
    split at left
    · cases left
    · rename_i kept
      exact ⟨left, .inr (.inl kept)⟩
  · rename_i taken
    refine ⟨?_, .inr (.inr taken)⟩
    split at left <;> exact left

theorem submit_submitted (replies : Replies) (prepared : Prepared) (count : Nat) :
    (submit replies prepared count).submitted = prepared.signing.inputs := by
  unfold submit
  dsimp only
  split
  · rfl
  split
  · rfl
  split <;> rfl

theorem Faithful.rebased {before : Books} {exchange : Exchange} (faithful : Faithful before exchange)
    (behind : before.Behind) {key : NonceKey} {platformNonce : Nat}
    (reported : ChainInfo.getAccountNonce (exchange.replies.accountNonce key) = .ok platformNonce) :
    rebase (evictIdleChains before.nonces exchange.idle key) platformNonce =
      before.during exchange key := by
  rw [faithful.1 key platformNonce reported, rebase_max]
  cases cached : evictIdleChains before.nonces exchange.idle key with
  | none => rfl
  | some slot =>
    have below := behind key slot (evictIdleChains_some cached)
    have later : before.next key ≤ before.during exchange key := Nat.le_add_right _ _
    exact Nat.max_eq_right (below.trans later)

theorem exchanged_behind {before after : Books} {exchange : Exchange} (behind : before.Behind)
    (step : gated Faithful (Exchanged subxt ring keypair) before exchange after) :
    after.Behind := by
  obtain ⟨faithful, handled, run, rfl⟩ := step
  have ahead : ∀ key, before.next key ≤ before.during exchange key := fun _ => Nat.le_add_right _ _
  have cached : ∀ key slot, evictIdleChains before.nonces exchange.idle key = some slot →
      slot ≤ before.during exchange key :=
    fun key slot at_ => (behind key slot (evictIdleChains_some at_)).trans (ahead key)
  rcases handleTick_submits run with rfl | ⟨prepared, batch, from_, rfl⟩
  · intro key slot at_
    exact (cached key slot at_).trans (Nat.le_add_right _ _)
  intro key slot at_
  obtain ⟨advanced, reason⟩ := submit_leaves at_
  rw [from_.progress.slot key, Option.map_eq_some_iff] at advanced
  obtain ⟨start, seeded, sum⟩ := advanced
  have low : start ≤ before.during exchange key := by
    rcases from_.seeded key with kept | ⟨platformNonce, reported, moved⟩
    · rw [kept] at seeded
      exact cached key start seeded
    · rw [moved, faithful.rebased behind reported] at seeded
      exact le_of_eq (Option.some.inj seeded).symm
  have counted : (ofKey key prepared.signing.inputs).length ≤
      if exchange.accepts then
        (ofKey key (submit exchange.replies prepared exchange.requests.length).submitted).length
      else 0 := by
    rw [submit_submitted]
    rcases reason with none_ | uncommitted | taken
    · rw [none_]
      exact Nat.zero_le _
    · have nothing : ofKey key prepared.signing.inputs = [] := by
        by_contra some_
        exact uncommitted ((from_.progress.committed key).mpr some_)
      rw [nothing]
      exact Nat.zero_le _
    · rw [faithful.2 taken]
      exact le_of_eq rfl
  rw [← sum]
  exact Nat.add_le_add low counted

/-- In every run each key's entries carry its next nonces, from the first one on. -/
theorem nonces_gapless (metadata : MetadataCache) (next : NonceKey → Nat)
    (exchanges : List Exchange) (before : Books)
    (path : Path (gated Faithful (Exchanged subxt ring keypair))
      ⟨metadata, fun _ => none, next⟩ exchanges before)
    (exchange : Exchange) (faithful : Faithful before exchange) (handled : Handled)
    (run : handleTick subxt ring keypair exchange.replies before.metadata before.nonces
      exchange.requests exchange.idle = .ok handled) (key : NonceKey) :
    (ofKey key handled.submitted).map SignTransactionInput.nonce =
      List.range' (before.during exchange key) (ofKey key handled.submitted).length := by
  have behind : before.Behind :=
    path.invariant (I := Books.Behind) (fun _ _ _ => exchanged_behind) nofun
  by_cases some_ : ofKey key handled.submitted = []
  · rw [some_]
    rfl
  obtain ⟨platformNonce, reported, consecutive⟩ := (handleTick_numbered run).consecutive key some_
  rw [consecutive, ← rebase_max, faithful.rebased behind reported]

end Runs

section Lost

def lostExchange : Exchange where
  requests := [remarkRequest "a", remarkRequest "b"]
  idle := ∅
  replies := remarkReplies 1000 5 unavailable
  foreign _ := 0
  accepts := true

def nextExchange : Exchange where
  requests := [remarkRequest "c"]
  idle := ∅
  replies := { remarkReplies 1000 9 (answers true) with
    accountNonce := fun key => if key = remarkKey then answers 9 else unavailable }
  foreign _ := 2
  accepts := true

/-- The next batch goes on where the platform is. -/
theorem nonces_gapless_lost :
    ∃ before handled, Path (gated Faithful (Exchanged remarkSubxt byteRing 7))
        ⟨fun _ => none, fun _ => none, fun _ => 5⟩ [lostExchange] before ∧
      handleTick remarkSubxt byteRing 7 nextExchange.replies before.metadata before.nonces
        nextExchange.requests nextExchange.idle = .ok handled ∧
      before.next remarkKey = 7 ∧
      (ofKey remarkKey handled.submitted).length = 1 ∧
      (ofKey remarkKey handled.submitted).map SignTransactionInput.nonce = [9] := by
  have first : Faithful ⟨fun _ => none, fun _ => none, fun _ => 5⟩ lostExchange := by
    refine ⟨fun key platformNonce reported => (Except.ok.inj reported).symm, fun taken => ?_⟩
    cases taken
  have second : ∀ before : Books, before.next remarkKey = 7 → Faithful before nextExchange := by
    refine fun before seven => ⟨fun key platformNonce reported => ?_, fun _ => rfl⟩
    simp only [nextExchange] at reported
    split at reported
    · rename_i same
      have nine : platformNonce = 9 := (Except.ok.inj reported).symm
      rw [nine, same, Books.during, seven]
      rfl
    · cases reported
  have path := Path.single (R := gated Faithful (Exchanged remarkSubxt byteRing 7))
    (e := lostExchange) ⟨first, _, rfl, rfl⟩
  exact ⟨_, _, path, rfl, rfl, rfl,
    nonces_gapless _ _ _ _ path nextExchange (second _ rfl) _ rfl remarkKey⟩

end Lost

end WalletDaemon.TransactionHandler
