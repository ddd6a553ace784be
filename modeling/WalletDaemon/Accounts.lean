import WalletDaemon.NonceSafety

/-! A batch seen account by account. What the prefetch finds of a chain and the
seeding of a key depends on the platform's replies and on the caches alone, so
what is submitted is what one loop over the requests makes of their accounts. -/

namespace WalletDaemon.TransactionHandler

open Platform

section Prefetching

variable (subxt : Subxt) (replies : Replies) (metadata : MetadataCache)

/-- The block and the metadata a chain is worked on with, when there are any. -/
def lookupChain (key : ChainKey) : Except Panic (Option (BlockInfo × MetadataInfo)) :=
  match ChainInfo.getBlockAndSpecVersion (replies.currentBlock key) with
  | .error panic => .error panic
  | .ok (.error _) => .ok none
  | .ok (.ok info) =>
    if needsUpdate metadata key info.specVersion then
      match ChainInfo.updateMetadataAndSubstrateClient subxt key (replies.chainInfo key) with
      | .error _ => .ok none
      | .ok fresh => .ok (some (info, fresh))
    else .ok ((metadata key).map fun local_ => (info, local_))

def Prefetch.Visited (prefetch : Prefetch) (key : ChainKey) : Prop :=
  (prefetch.blockInfo key).isSome ∨ key ∈ prefetch.failedChains

/-- The prefetch holds what was found of the chain. -/
inductive Prefetch.Holds (prefetch : Prefetch) (key : ChainKey) :
    Except Panic (Option (BlockInfo × MetadataInfo)) → Prop
  | found (info : BlockInfo) (local_ : MetadataInfo) : key ∉ prefetch.failedChains →
      prefetch.blockInfo key = some info → prefetch.metadata key = some local_ →
      Holds prefetch key (.ok (some (info, local_)))
  | failed : key ∈ prefetch.failedChains → Holds prefetch key (.ok none)

/-- Visited chains are known, the others are as they were. -/
structure Prefetch.Faithful (prefetch : Prefetch) : Prop where
  visited : ∀ key, prefetch.Visited key → prefetch.Holds key (lookupChain subxt replies metadata key)
  untouched : ∀ key, ¬ prefetch.Visited key → prefetch.metadata key = metadata key

variable {subxt replies metadata}

theorem needsUpdate_some {key : ChainKey} {specVersion : Nat}
    (h : needsUpdate metadata key specVersion = false) :
    ∃ local_, metadata key = some local_ ∧ specVersion ≤ local_.specVersion := by
  unfold needsUpdate at h
  split at h
  · rename_i local_ found
    exact ⟨local_, found, by simpa using h⟩
  · cases h

theorem prefetchChain_lookup {prefetch : Prefetch} {key : ChainKey}
    (faithful : prefetch.Faithful subxt replies metadata) (fresh : ¬ prefetch.Visited key) :
    (∃ panic, prefetchChain subxt replies prefetch key = .error panic ∧
        lookupChain subxt replies metadata key = .error panic) ∨
      (prefetchChain subxt replies prefetch key = .ok (prefetch.fail key) ∧
        lookupChain subxt replies metadata key = .ok none) ∨
      ∃ info local_, prefetchChain subxt replies prefetch key = .ok
          { prefetch with
            blockInfo := Function.update prefetch.blockInfo key (some info)
            metadata := Function.update prefetch.metadata key (some local_) } ∧
        lookupChain subxt replies metadata key = .ok (some (info, local_)) := by
  have same := faithful.untouched key fresh
  have needs : ∀ specVersion, needsUpdate prefetch.metadata key specVersion =
      needsUpdate metadata key specVersion := fun _ => by simp only [needsUpdate, same]
  have closed : ¬ ((prefetch.blockInfo key).isSome ∨ key ∈ prefetch.failedChains) := fresh
  simp only [prefetchChain, lookupChain, if_neg closed, needs]
  cases ChainInfo.getBlockAndSpecVersion (replies.currentBlock key) with
  | error panic => exact .inl ⟨panic, rfl, rfl⟩
  | ok read =>
    cases read with
    | error e => exact .inr (.inl ⟨rfl, rfl⟩)
    | ok info =>
      dsimp only
      cases update : needsUpdate metadata key info.specVersion with
      | true =>
        cases ChainInfo.updateMetadataAndSubstrateClient subxt key (replies.chainInfo key) with
        | error e => exact .inr (.inl ⟨rfl, rfl⟩)
        | ok fresh => exact .inr (.inr ⟨info, fresh, rfl, rfl⟩)
      | false =>
        obtain ⟨local_, cached, -⟩ := needsUpdate_some update
        refine .inr (.inr ⟨info, local_, ?_, ?_⟩)
        · have kept : Function.update prefetch.metadata key (some local_) = prefetch.metadata := by
            rw [← cached, ← same]
            exact Function.update_eq_self key prefetch.metadata
          simp [kept]
        · simp [cached]

theorem prefetchChain_visited {prefetch : Prefetch} {key : ChainKey} (h : prefetch.Visited key) :
    prefetchChain subxt replies prefetch key = .ok prefetch := by
  have open_ : (prefetch.blockInfo key).isSome ∨ key ∈ prefetch.failedChains := h
  rw [prefetchChain, if_pos open_]

theorem Prefetch.visited_fail {prefetch : Prefetch} {key other : ChainKey} :
    (prefetch.fail key).Visited other ↔ other = key ∨ prefetch.Visited other := by
  simp only [Visited, fail, Finset.mem_insert]
  tauto

def Prefetch.know (prefetch : Prefetch) (key : ChainKey) (info : BlockInfo)
    (local_ : MetadataInfo) : Prefetch :=
  { prefetch with
    blockInfo := Function.update prefetch.blockInfo key (some info)
    metadata := Function.update prefetch.metadata key (some local_) }

theorem Prefetch.visited_know {prefetch : Prefetch} {key other : ChainKey} {info : BlockInfo}
    {local_ : MetadataInfo} :
    (prefetch.know key info local_).Visited other ↔ other = key ∨ prefetch.Visited other := by
  by_cases same : other = key
  · simp [Visited, know, same]
  · simp [Visited, know, same]

theorem Prefetch.Holds.other {prefetch : Prefetch} {key other : ChainKey}
    {looked : Except Panic (Option (BlockInfo × MetadataInfo))} (holds : prefetch.Holds other looked)
    (apart : other ≠ key) : (prefetch.fail key).Holds other looked ∧
      ∀ info local_, (prefetch.know key info local_).Holds other looked := by
  cases holds with
  | found info local_ fine block cached =>
    refine ⟨.found info local_ ?_ block cached, fun info' local' => .found info local_ fine ?_ ?_⟩
    · simpa [fail, apart] using fine
    · simpa [know, Function.update_of_ne apart] using block
    · simpa [know, Function.update_of_ne apart] using cached
  | failed here =>
    exact ⟨.failed (Finset.mem_insert_of_mem here), fun _ _ => .failed here⟩

theorem prefetchChain_faithful {prefetch next : Prefetch} {key : ChainKey}
    (faithful : prefetch.Faithful subxt replies metadata)
    (step : prefetchChain subxt replies prefetch key = .ok next) :
    next.Faithful subxt replies metadata ∧
      ∀ other, next.Visited other ↔ other = key ∨ prefetch.Visited other := by
  by_cases old : prefetch.Visited key
  · rw [prefetchChain_visited old] at step
    obtain rfl : prefetch = next := Except.ok.inj step
    refine ⟨faithful, fun other => ⟨.inr, ?_⟩⟩
    rintro (same | visited)
    · rwa [same]
    · exact visited
  have unlisted : key ∉ prefetch.failedChains := fun failed => old (.inr failed)
  rcases prefetchChain_lookup faithful old with
    ⟨panic, ran, -⟩ | ⟨ran, looked⟩ | ⟨info, local_, ran, looked⟩
  · rw [ran] at step
    cases step
  · obtain rfl : prefetch.fail key = next := Except.ok.inj (ran.symm.trans step)
    refine ⟨⟨fun other visited => ?_, fun other unvisited => ?_⟩, fun _ => Prefetch.visited_fail⟩
    · by_cases same : other = key
      · rw [same, looked]
        exact .failed (Finset.mem_insert_self _ _)
      · have before := (Prefetch.visited_fail.mp visited).resolve_left same
        exact ((faithful.visited other before).other same).1
    · rw [Prefetch.visited_fail, not_or] at unvisited
      exact faithful.untouched other unvisited.2
  · obtain rfl : prefetch.know key info local_ = next := Except.ok.inj (ran.symm.trans step)
    refine ⟨⟨fun other visited => ?_, fun other unvisited => ?_⟩, fun _ => Prefetch.visited_know⟩
    · by_cases same : other = key
      · rw [same, looked]
        exact .found info local_ unlisted (by simp [Prefetch.know]) (by simp [Prefetch.know])
      · have before := (Prefetch.visited_know.mp visited).resolve_left same
        exact ((faithful.visited other before).other same).2 info local_
    · rw [Prefetch.visited_know, not_or] at unvisited
      simpa [Prefetch.know, Function.update_of_ne unvisited.1] using
        faithful.untouched other unvisited.2

theorem prefetchChains_faithful {prefetch final : Prefetch} {requests : List TransactionRequest}
    (faithful : prefetch.Faithful subxt replies metadata)
    (steps : prefetchChains subxt replies prefetch requests = .ok final) :
    final.Faithful subxt replies metadata ∧
      ∀ request ∈ requests, final.Visited request.chainKey := by
  have run : final.Faithful subxt replies metadata ∧ ∀ key, final.Visited key ↔
      key ∈ requests.map TransactionRequest.chainKey ∨ prefetch.Visited key := by
    induction requests generalizing prefetch with
    | nil =>
      obtain rfl : prefetch = final := Except.ok.inj steps
      simpa using faithful
    | cons request requests ih =>
      unfold prefetchChains at steps
      split at steps
      · cases steps
      rename_i next step
      have first := prefetchChain_faithful faithful step
      have rest := ih first.1 steps
      refine ⟨rest.1, fun key => ?_⟩
      rw [rest.2, first.2, List.map_cons, List.mem_cons]
      tauto
  refine ⟨run.1, fun request member => (run.2 _).mpr (.inl ?_)⟩
  exact List.mem_map_of_mem member

theorem prefetchChains_error {prefetch : Prefetch} {requests : List TransactionRequest}
    {panic : Panic} (faithful : prefetch.Faithful subxt replies metadata)
    (steps : prefetchChains subxt replies prefetch requests = .error panic) :
    ∃ request ∈ requests, lookupChain subxt replies metadata request.chainKey = .error panic := by
  induction requests generalizing prefetch with
  | nil => cases steps
  | cons request requests ih =>
    unfold prefetchChains at steps
    split at steps
    · rename_i panic' step
      obtain rfl : panic' = panic := Except.error.inj steps
      have fresh : ¬ prefetch.Visited request.chainKey := fun visited => by
        rw [prefetchChain_visited visited] at step
        cases step
      rcases prefetchChain_lookup faithful fresh with
        ⟨panic'', ran, looked⟩ | ⟨ran, -⟩ | ⟨_, _, ran, -⟩
      · obtain rfl : panic' = panic'' := Except.error.inj (step.symm.trans ran)
        exact ⟨request, by simp, looked⟩
      · cases step.symm.trans ran
      · cases step.symm.trans ran
    · rename_i next step
      obtain ⟨later, member, looked⟩ := ih (prefetchChain_faithful faithful step).1 steps
      exact ⟨later, List.mem_cons_of_mem _ member, looked⟩

theorem empty_faithful : (⟨fun _ => none, ∅, metadata⟩ : Prefetch).Faithful subxt replies metadata where
  visited key visited := by simp [Prefetch.Visited] at visited
  untouched _ _ := rfl

end Prefetching

section Seeding

variable {replies : Replies} {failedChains : Finset ChainKey}

theorem seedKeys_failed {seeding : Seeding} {keys : List NonceKey}
    (before : ∀ key ∈ seeding.failedKeys, ∃ e,
      ChainInfo.getAccountNonce (replies.accountNonce key) = .error e) :
    ∀ key ∈ (seedKeys replies failedChains seeding keys).failedKeys, ∃ e,
      ChainInfo.getAccountNonce (replies.accountNonce key) = .error e := by
  induction keys generalizing seeding with
  | nil => exact before
  | cons head keys ih =>
    apply ih
    unfold seedKey
    split
    · exact before
    split
    · exact before
    split
    · exact before
    · rename_i e refused
      intro key member
      rcases Finset.mem_insert.mp member with here | earlier
      · rw [here]
        exact ⟨e, refused⟩
      · exact before key earlier

theorem seedKeys_account (replies : Replies) (nonces : NonceCache) {keys : List NonceKey} {key : NonceKey}
    (listed : key ∈ keys) (fine : key.chainKey ∉ failedChains) :
    (∃ e, ChainInfo.getAccountNonce (replies.accountNonce key) = .error e ∧
        key ∈ (seedKeys replies failedChains ⟨nonces, ∅, ∅⟩ keys).failedKeys) ∨
      ∃ platformNonce, ChainInfo.getAccountNonce (replies.accountNonce key) = .ok platformNonce ∧
        key ∉ (seedKeys replies failedChains ⟨nonces, ∅, ∅⟩ keys).failedKeys ∧
        (seedKeys replies failedChains ⟨nonces, ∅, ∅⟩ keys).nonces key =
          some (rebase (nonces key) platformNonce) := by
  have empty : Seeded replies nonces ⟨nonces, ∅, ∅⟩ :=
    ⟨fun _ member => absurd member (Finset.notMem_empty _), fun _ _ => rfl⟩
  have seeded := seedKeys_seeded replies failedChains empty keys
  have refused : key ∈ (seedKeys replies failedChains ⟨nonces, ∅, ∅⟩ keys).failedKeys → ∃ e,
      ChainInfo.getAccountNonce (replies.accountNonce key) = .error e :=
    seedKeys_failed (fun _ member => absurd member (Finset.notMem_empty _)) key
  have visited := (seedKeys_visits replies failedChains ⟨nonces, ∅, ∅⟩ keys key
    (.inl listed)).resolve_left fine
  rcases visited with refreshed | failed
  · obtain ⟨platformNonce, read, slot⟩ := seeded.refreshed key refreshed
    refine .inr ⟨platformNonce, read, fun failed => ?_, slot⟩
    obtain ⟨e, error⟩ := refused failed
    cases read.symm.trans error
  · obtain ⟨e, error⟩ := refused failed
    exact .inl ⟨e, error, failed⟩

end Seeding

/-- What the requests of one account are signed with, and their first nonce. -/
structure Account where
  info : BlockInfo
  client : SubstrateClient
  start : Nat

section Loop

variable {K : Type} (subxt : Subxt) (ring : Keyring K) (keypair : K)

/-- The account of a key, unless its requests are skipped. -/
def openAccount (replies : Replies) (metadata : MetadataCache) (nonces : NonceCache)
    (key : NonceKey) : Option Account :=
  match lookupChain subxt replies metadata key.chainKey with
  | .ok (some (info, local_)) =>
    match ChainInfo.getAccountNonce (replies.accountNonce key) with
    | .ok platformNonce =>
      if subxt.atBlockRefuses local_.client info.blockNumber then none
      else some ⟨info, local_.client, rebase (nonces key) platformNonce⟩
    | .error _ => none
  | _ => none

def emptyBatch : Batch K := ⟨subxt, ring, keypair, ⟨fun _ => none, ∅, fun _ => none⟩, ∅⟩

/-- The entry of a request of the account, at a nonce. -/
def entryAt (account : Account) (nonce : Nat) (request : TransactionRequest) :
    Except Panic (Option SignTransactionInput) :=
  let batch := emptyBatch subxt ring keypair
  let key := nonceKey ring keypair request
  match fuelTankPayload batch request account.client.metadata key.2.2 account.info.blockNumber with
  | .error panic => .error panic
  | .ok (.error _) => .ok none
  | .ok (.ok payload) =>
    match signDummy batch account.client key.2.2 nonce account.info,
        signPayload batch account.client key.2.2 nonce account.info payload with
    | .ok dummy, .ok signed => .ok (some ⟨key, request.requestId, signed, dummy⟩)
    | _, _ => .ok none

/-- A request's turn, after `made` entries of its key. -/
def turn (open_ : NonceKey → Option Account) (made : NonceKey → Nat)
    (request : TransactionRequest) : Except Panic (Option SignTransactionInput) :=
  let key := nonceKey ring keypair request
  match open_ key with
  | none => .ok none
  | some account =>
    match entryAt subxt ring keypair account (account.start + made key) request with
    | .ok (some input) =>
      if account.start + made key + 1 < 2 ^ 64 then .ok (some input) else .error .nonceOverflow
    | other => other

def signAll (open_ : NonceKey → Option Account) :
    (NonceKey → Nat) → List TransactionRequest → Except Panic (List SignTransactionInput)
  | _, [] => .ok []
  | made, request :: rest =>
    match turn subxt ring keypair open_ made request with
    | .error panic => .error panic
    | .ok none => signAll open_ made rest
    | .ok (some input) =>
      let key := nonceKey ring keypair request
      (signAll open_ (Function.update made key (made key + 1)) rest).map (input :: ·)

variable {subxt ring keypair}

/-- The batch finds of a key what its account says. -/
def Agrees (batch : Batch K) (open_ : NonceKey → Option Account) (key : NonceKey) : Prop :=
  match open_ key with
  | none => ∃ skip, target batch key = .error skip
  | some account => target batch key = .ok (account.info, account.client)

/-- The slots are what the accounts have advanced to. -/
def Advanced (open_ : NonceKey → Option Account) (made : NonceKey → Nat) (nonces : NonceCache)
    (key : NonceKey) : Prop :=
  ∀ account, open_ key = some account → nonces key = some (account.start + made key)

theorem entry_skipped {batch : Batch K} {nonces : NonceCache} {request : TransactionRequest}
    {skip : Skip} (h : target batch (nonceKey batch.ring batch.keypair request) = .error skip) :
    entry batch nonces request = .ok (.error skip) := by
  unfold entry
  dsimp only
  rw [h]

theorem entry_opened {prefetch : Prefetch} {failedKeys : Finset NonceKey} {nonces : NonceCache}
    {request : TransactionRequest} {account : Account} {nonce : Nat}
    (reached : target ⟨subxt, ring, keypair, prefetch, failedKeys⟩ (nonceKey ring keypair request) =
      .ok (account.info, account.client))
    (slot : nonces (nonceKey ring keypair request) = some nonce) :
    (entry ⟨subxt, ring, keypair, prefetch, failedKeys⟩ nonces request).map Except.toOption =
      entryAt subxt ring keypair account nonce request := by
  -- Only the libraries and the key pair of the batch are used from here on.
  have same : fuelTankPayload ⟨subxt, ring, keypair, prefetch, failedKeys⟩ request =
      fuelTankPayload (emptyBatch subxt ring keypair) request := rfl
  have dummies : signDummy ⟨subxt, ring, keypair, prefetch, failedKeys⟩ =
      signDummy (emptyBatch subxt ring keypair) := rfl
  have payloads : signPayload ⟨subxt, ring, keypair, prefetch, failedKeys⟩ =
      signPayload (emptyBatch subxt ring keypair) := rfl
  simp only [entry, entryAt, reached, slot, same, dummies, payloads]
  cases fuelTankPayload (emptyBatch subxt ring keypair) request account.client.metadata
      (nonceKey ring keypair request).2.2 account.info.blockNumber with
  | error panic => rfl
  | ok rewritten =>
    cases rewritten with
    | error skip => rfl
    | ok payload =>
      dsimp only
      cases signDummy (emptyBatch subxt ring keypair) account.client
          (nonceKey ring keypair request).2.2 nonce account.info with
      | error skip => rfl
      | ok dummy =>
        dsimp only
        cases signPayload (emptyBatch subxt ring keypair) account.client
            (nonceKey ring keypair request).2.2 nonce account.info payload <;> rfl

theorem entryAt_some {account : Account} {nonce : Nat} {request : TransactionRequest}
    {input : SignTransactionInput}
    (h : entryAt subxt ring keypair account nonce request = .ok (some input)) :
    input.key = nonceKey ring keypair request ∧ input.uuid = request.requestId ∧
      input.nonce = nonce ∧
      ∃ payload, fuelTankPayload (emptyBatch subxt ring keypair) request account.client.metadata
          input.key.2.2 account.info.blockNumber = .ok (.ok payload) ∧
        signPayload (emptyBatch subxt ring keypair) account.client input.key.2.2 nonce account.info
          payload = .ok input.signedExtrinsic ∧
        signDummy (emptyBatch subxt ring keypair) account.client input.key.2.2 nonce account.info =
          .ok input.signedAbandonExtrinsic := by
  unfold entryAt at h
  dsimp only at h
  split at h
  · cases h
  · cases h
  rename_i payload rewritten
  split at h
  · rename_i dummy signed dummySigned payloadSigned
    obtain rfl : _ = input := Option.some.inj (Except.ok.inj h)
    refine ⟨rfl, rfl, ?_, payload, rewritten, payloadSigned, dummySigned⟩
    rw [SignTransactionInput.nonce, (signPayload_ok payloadSigned).2, mortalParams]
  · cases h

theorem signRequest_turn {prefetch : Prefetch} {failedKeys : Finset NonceKey}
    {open_ : NonceKey → Option Account} {made : NonceKey → Nat} {signing : Signing}
    {request : TransactionRequest}
    (agrees : Agrees ⟨subxt, ring, keypair, prefetch, failedKeys⟩ open_
      (nonceKey ring keypair request))
    (advanced : Advanced open_ made signing.nonces (nonceKey ring keypair request)) :
    signRequest ⟨subxt, ring, keypair, prefetch, failedKeys⟩ signing request =
      (turn subxt ring keypair open_ made request).map fun input => match input with
        | none => signing
        | some input => {
            nonces := Function.update signing.nonces input.key (some (input.nonce + 1))
            inputs := signing.inputs ++ [input]
            committedKeys := insert input.key signing.committedKeys } := by
  unfold Agrees at agrees
  cases account : open_ (nonceKey ring keypair request) with
  | none =>
    rw [account] at agrees
    obtain ⟨skip, refused⟩ := agrees
    simp only [signRequest, entry_skipped refused, turn, account]
    rfl
  | some account_ =>
    rw [account] at agrees
    have slot := advanced account_ account
    have opened := entry_opened agrees slot
    simp only [signRequest, turn, account, ← opened]
    cases made_ : entry ⟨subxt, ring, keypair, prefetch, failedKeys⟩ signing.nonces request with
    | error panic => rfl
    | ok result =>
      cases result with
      | error skip => rfl
      | ok input =>
        rw [made_] at opened
        obtain ⟨key, -, nonce, -⟩ := entryAt_some opened.symm
        dsimp only [Except.map, Except.toOption]
        rw [← nonce]
        split <;> rfl

theorem turn_some {open_ : NonceKey → Option Account} {made : NonceKey → Nat}
    {request : TransactionRequest} {input : SignTransactionInput}
    (h : turn subxt ring keypair open_ made request = .ok (some input)) :
    ∃ account, open_ (nonceKey ring keypair request) = some account ∧
      entryAt subxt ring keypair account (account.start + made (nonceKey ring keypair request))
        request = .ok (some input) ∧
      account.start + made (nonceKey ring keypair request) + 1 < 2 ^ 64 := by
  unfold turn at h
  dsimp only at h
  split at h
  · cases h
  rename_i account opened
  split at h
  · rename_i made_ entered
    split at h
    · rename_i small
      obtain rfl := Option.some.inj (Except.ok.inj h)
      exact ⟨account, opened, entered, small⟩
    · cases h
  · rename_i other
    exact absurd h (other input)

theorem Advanced.entered {open_ : NonceKey → Option Account} {made : NonceKey → Nat}
    {nonces : NonceCache} {key other : NonceKey} {account : Account}
    (opened : open_ key = some account) (advanced : Advanced open_ made nonces other) :
    Advanced open_ (Function.update made key (made key + 1))
      (Function.update nonces key (some (account.start + made key + 1))) other := by
  intro account' opened'
  by_cases same : other = key
  · subst same
    obtain rfl : account = account' := Option.some.inj (opened.symm.trans opened')
    simp [Nat.add_assoc]
  · rw [Function.update_of_ne same, Function.update_of_ne same]
    exact advanced account' opened'

theorem Advanced.all_entered {open_ : NonceKey → Option Account} {made : NonceKey → Nat}
    {nonces : NonceCache} {request : TransactionRequest} {input : SignTransactionInput}
    {requests : List TransactionRequest}
    (taken : turn subxt ring keypair open_ made request = .ok (some input))
    (advanced : ∀ other ∈ requests, Advanced open_ made nonces (nonceKey ring keypair other)) :
    ∀ other ∈ requests, Advanced open_
      (Function.update made (nonceKey ring keypair request)
        (made (nonceKey ring keypair request) + 1))
      (Function.update nonces input.key (some (input.nonce + 1))) (nonceKey ring keypair other) := by
  obtain ⟨account, opened, entered, -⟩ := turn_some taken
  obtain ⟨key, -, nonce, -⟩ := entryAt_some entered
  intro other member
  rw [key, nonce]
  exact Advanced.entered opened (advanced other member)

theorem signRequests_signAll {prefetch : Prefetch} {failedKeys : Finset NonceKey}
    {open_ : NonceKey → Option Account} {made : NonceKey → Nat} {signing : Signing}
    {requests : List TransactionRequest}
    (agrees : ∀ request ∈ requests, Agrees ⟨subxt, ring, keypair, prefetch, failedKeys⟩ open_
      (nonceKey ring keypair request))
    (advanced : ∀ request ∈ requests, Advanced open_ made signing.nonces
      (nonceKey ring keypair request)) :
    (signRequests ⟨subxt, ring, keypair, prefetch, failedKeys⟩ signing requests).map
        Signing.inputs =
      (signAll subxt ring keypair open_ made requests).map (signing.inputs ++ ·) := by
  induction requests generalizing made signing with
  | nil => simp [signRequests, signAll, Except.map]
  | cons request requests ih =>
    have step := signRequest_turn (agrees request (by simp)) (advanced request (by simp))
    have later : ∀ request ∈ requests, Agrees ⟨subxt, ring, keypair, prefetch, failedKeys⟩ open_
        (nonceKey ring keypair request) := fun other member => agrees other (by simp [member])
    rw [signRequests, signAll, step]
    cases taken : turn subxt ring keypair open_ made request with
    | error panic => rfl
    | ok input =>
      cases input with
      | none => exact ih later fun other member => advanced other (by simp [member])
      | some input =>
        have next := @ih _ ⟨Function.update signing.nonces input.key (some (input.nonce + 1)),
          signing.inputs ++ [input], insert input.key signing.committedKeys⟩ later
          (Advanced.all_entered taken fun other member => advanced other (by simp [member]))
        refine next.trans ?_
        dsimp only
        cases signAll subxt ring keypair open_ (Function.update made
            (nonceKey ring keypair request) (made (nonceKey ring keypair request) + 1)) requests with
        | error panic => rfl
        | ok inputs => simp [Except.map]

theorem signAll_cons_ok {open_ : NonceKey → Option Account} {made : NonceKey → Nat}
    {request : TransactionRequest} {requests : List TransactionRequest}
    {inputs : List SignTransactionInput}
    (h : signAll subxt ring keypair open_ made (request :: requests) = .ok inputs) :
    (turn subxt ring keypair open_ made request = .ok none ∧
      signAll subxt ring keypair open_ made requests = .ok inputs) ∨
    ∃ input rest, turn subxt ring keypair open_ made request = .ok (some input) ∧
      signAll subxt ring keypair open_ (Function.update made (nonceKey ring keypair request)
        (made (nonceKey ring keypair request) + 1)) requests = .ok rest ∧
      input :: rest = inputs := by
  rw [signAll] at h
  cases taken : turn subxt ring keypair open_ made request with
  | error panic =>
    rw [taken] at h
    cases h
  | ok result =>
    rw [taken] at h
    cases result with
    | none => exact .inl ⟨rfl, h⟩
    | some input =>
      dsimp only at h
      cases later : signAll subxt ring keypair open_ (Function.update made
          (nonceKey ring keypair request) (made (nonceKey ring keypair request) + 1)) requests with
      | error panic =>
        rw [later] at h
        cases h
      | ok rest =>
        rw [later] at h
        exact .inr ⟨input, rest, rfl, rfl, Except.ok.inj h⟩

theorem signAll_made {open_ : NonceKey → Option Account} {made : NonceKey → Nat}
    {requests : List TransactionRequest} {inputs : List SignTransactionInput}
    (h : signAll subxt ring keypair open_ made requests = .ok inputs) :
    ∀ input ∈ inputs, ∃ request ∈ requests, ∃ account nonce,
      open_ (nonceKey ring keypair request) = some account ∧
        entryAt subxt ring keypair account nonce request = .ok (some input) := by
  induction requests generalizing made inputs with
  | nil =>
    cases h
    exact fun _ => nofun
  | cons request requests ih =>
    rcases signAll_cons_ok h with ⟨-, rest⟩ | ⟨first, rest, taken, later, rfl⟩
    · intro input member
      obtain ⟨other, place, facts⟩ := ih rest input member
      exact ⟨other, List.mem_cons_of_mem _ place, facts⟩
    · intro input member
      rcases List.mem_cons.mp member with rfl | behind
      · obtain ⟨account, opened, entered, -⟩ := turn_some taken
        exact ⟨request, by simp, account, _, opened, entered⟩
      · obtain ⟨other, place, facts⟩ := ih later input behind
        exact ⟨other, List.mem_cons_of_mem _ place, facts⟩

/-- What is left of a batch's result is what it submits. -/
def submitted (subxt : Subxt) (ring : Keyring K) (keypair : K) (replies : Replies)
    (metadata : MetadataCache) (nonces : NonceCache) (requests : List TransactionRequest) :
    Except Panic (List SignTransactionInput) :=
  (prepare subxt ring keypair replies metadata nonces requests).map fun p => p.signing.inputs

/-- The chains of the batch can be looked up. -/
def Readable (subxt : Subxt) (replies : Replies) (metadata : MetadataCache)
    (requests : List TransactionRequest) : Prop :=
  ∀ request ∈ requests, ∀ panic,
    lookupChain subxt replies metadata request.chainKey ≠ .error panic

theorem prefetched_agrees (ring : Keyring K) (keypair : K) {replies : Replies}
    {metadata : MetadataCache} (nonces : NonceCache)
    {prefetch : Prefetch} {requests : List TransactionRequest}
    (prefetched : prefetchChains subxt replies ⟨fun _ => none, ∅, metadata⟩ requests =
      .ok prefetch) {request : TransactionRequest} (member : request ∈ requests) :
    let seeding := seedKeys replies prefetch.failedChains ⟨nonces, ∅, ∅⟩
      (requests.map (nonceKey ring keypair))
    Agrees ⟨subxt, ring, keypair, prefetch, seeding.failedKeys⟩
        (openAccount subxt replies metadata nonces) (nonceKey ring keypair request) ∧
      Advanced (openAccount subxt replies metadata nonces) (fun _ => 0) seeding.nonces
        (nonceKey ring keypair request) := by
  intro seeding
  obtain ⟨faithful, visited⟩ := prefetchChains_faithful empty_faithful prefetched
  have holds := faithful.visited _ (visited request member)
  have listed : nonceKey ring keypair request ∈ requests.map (nonceKey ring keypair) :=
    List.mem_map_of_mem member
  have chain : (nonceKey ring keypair request).chainKey = request.chainKey := rfl
  rw [← chain] at holds
  generalize nonceKey ring keypair request = key at listed holds
  cases looked : lookupChain subxt replies metadata key.chainKey with
  | error panic =>
    rw [looked] at holds
    cases holds
  | ok result =>
    rw [looked] at holds
    cases holds with
    | failed here =>
      have closed : openAccount subxt replies metadata nonces key = none := by
        simp only [openAccount, looked]
      refine ⟨?_, fun account opened => ?_⟩
      · rw [Agrees, closed]
        exact ⟨.prefetchFailed, by rw [target, if_pos here]⟩
      · cases closed.symm.trans opened
    | found info local_ fine block cached =>
      rcases seedKeys_account replies nonces listed fine with
        ⟨e, refused, failed⟩ | ⟨platformNonce, read, unfailed, slot⟩
      · have closed : openAccount subxt replies metadata nonces key = none := by
          simp only [openAccount, looked, refused]
        refine ⟨?_, fun account opened => ?_⟩
        · rw [Agrees, closed]
          exact ⟨.noPrefetchedNonce, by rw [target, if_neg fine, if_pos failed]⟩
        · cases closed.symm.trans opened
      · cases refuses : subxt.atBlockRefuses local_.client info.blockNumber with
        | true =>
          have closed : openAccount subxt replies metadata nonces key = none := by
            simp only [openAccount, looked, read, refuses, if_true]
          refine ⟨?_, fun account opened => ?_⟩
          · rw [Agrees, closed]
            refine ⟨.clientUnavailable, ?_⟩
            rw [target, if_neg fine, if_neg unfailed]
            simp only [block, cached, refuses, if_true]
          · cases closed.symm.trans opened
        | false =>
          have opened : openAccount subxt replies metadata nonces key =
              some ⟨info, local_.client, rebase (nonces key) platformNonce⟩ := by
            simp only [openAccount, looked, read, refuses, Bool.false_eq_true, if_false]
          refine ⟨?_, fun account opened' => ?_⟩
          · rw [Agrees, opened]
            dsimp only
            rw [target, if_neg fine, if_neg unfailed]
            simp only [block, cached, refuses, Bool.false_eq_true, if_false]
          · obtain rfl := Option.some.inj (opened.symm.trans opened')
            exact slot

/-- A batch submits what the accounts of its requests make, unless the lookup of
a chain panics. -/
theorem submitted_eq {replies : Replies} {metadata : MetadataCache} {nonces : NonceCache}
    {requests : List TransactionRequest} (readable : Readable subxt replies metadata requests) :
    submitted subxt ring keypair replies metadata nonces requests =
      signAll subxt ring keypair (openAccount subxt replies metadata nonces) (fun _ => 0)
        requests := by
  unfold submitted prepare
  cases prefetched : prefetchChains subxt replies ⟨fun _ => none, ∅, metadata⟩ requests with
  | error panic =>
    obtain ⟨request, member, looked⟩ := prefetchChains_error empty_faithful prefetched
    exact absurd looked (readable request member panic)
  | ok prefetch =>
    have agrees := fun request (member : request ∈ requests) =>
      prefetched_agrees ring keypair nonces prefetched member
    dsimp only at agrees ⊢
    generalize seedKeys replies prefetch.failedChains ⟨nonces, ∅, ∅⟩
      (requests.map (nonceKey ring keypair)) = seeding at agrees ⊢
    have signed := @signRequests_signAll _ _ _ _ _ _ _ _ ⟨seeding.nonces, [], ∅⟩ _
      (fun request member => (agrees request member).1)
      (fun request member => (agrees request member).2)
    have whole : ∀ result : Except Panic (List SignTransactionInput),
        result.map ([] ++ ·) = result := fun result => by cases result <;> rfl
    rw [← (signed.trans (whole _))]
    cases signRequests ⟨subxt, ring, keypair, prefetch, seeding.failedKeys⟩
      ⟨seeding.nonces, [], ∅⟩ requests <;> rfl

theorem readable_of_prefetched {replies : Replies} {metadata : MetadataCache} {prefetch : Prefetch}
    {requests : List TransactionRequest}
    (prefetched : prefetchChains subxt replies ⟨fun _ => none, ∅, metadata⟩ requests =
      .ok prefetch) : Readable subxt replies metadata requests := by
  obtain ⟨faithful, visited⟩ := prefetchChains_faithful empty_faithful prefetched
  intro request member panic looked
  have holds := faithful.visited _ (visited request member)
  rw [looked] at holds
  cases holds

theorem submitted_unreadable (ring : Keyring K) (keypair : K) {replies : Replies}
    {metadata : MetadataCache} (nonces : NonceCache) {requests : List TransactionRequest}
    (unreadable : ¬ Readable subxt replies metadata requests) :
    ∃ panic, submitted subxt ring keypair replies metadata nonces requests = .error panic := by
  cases prefetched : prefetchChains subxt replies ⟨fun _ => none, ∅, metadata⟩ requests with
  | error panic => exact ⟨panic, by simp only [submitted, prepare, prefetched, Except.map]⟩
  | ok prefetch => exact absurd (readable_of_prefetched prefetched) unreadable

end Loop

end WalletDaemon.TransactionHandler
