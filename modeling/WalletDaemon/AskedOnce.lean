import WalletDaemon.Accounts
import WalletDaemon.Inquiry

/-! A batch as it talks to the platform, which may answer one question differently each time.
Each chain's block and metadata and each account's nonce are asked for at most once, so that
the platform's replies to a batch are functions of the chain and of the account. -/

namespace WalletDaemon.TransactionHandler

open Platform Transition

/-- The operations that a batch sends to the platform. -/
inductive Question
  | currentBlock (key : ChainKey)
  | chainInfo (key : ChainKey)
  | accountNonce (key : NonceKey)
  | signTransactions (inputs : List SignTransactionInput)
deriving DecidableEq

/-- What the attempts of an operation meet. -/
@[reducible] def Reply : Question → Type
  | .currentBlock _ => Send (Option CurrentBlock)
  | .chainInfo _ => Send (Option ChainInfo)
  | .accountNonce _ => Send Int
  | .signTransactions _ => Send Bool

instance (question : Question) : Nonempty (Reply question) := by
  cases question <;> exact ⟨(unavailable : Send _)⟩

abbrev Asking := Inquiry Question Reply

section Asking

variable (subxt : Subxt)

def askChain (prefetch : Prefetch) (key : ChainKey) : Asking (Except Panic Prefetch) :=
  if (prefetch.blockInfo key).isSome ∨ key ∈ prefetch.failedChains then .done (.ok prefetch)
  else .ask (.currentBlock key) fun currentBlock =>
    match ChainInfo.getBlockAndSpecVersion currentBlock with
    | .error panic => .done (.error panic)
    | .ok (.error _) => .done (.ok (prefetch.fail key))
    | .ok (.ok info) =>
      let known (metadata : MetadataCache) : Prefetch :=
        { prefetch with
          blockInfo := Function.update prefetch.blockInfo key (some info)
          metadata }
      if needsUpdate prefetch.metadata key info.specVersion then
        .ask (.chainInfo key) fun chainInfo =>
          match ChainInfo.updateMetadataAndSubstrateClient subxt key chainInfo with
          | .error _ => .done (.ok (prefetch.fail key))
          | .ok fresh => .done (.ok (known (Function.update prefetch.metadata key (some fresh))))
      else .done (.ok (known prefetch.metadata))

def askChains : Prefetch → List TransactionRequest → Asking (Except Panic Prefetch)
  | prefetch, [] => .done (.ok prefetch)
  | prefetch, request :: rest =>
    (askChain subxt prefetch request.chainKey).andThen fun
      | .error panic => .done (.error panic)
      | .ok prefetch => askChains prefetch rest

def askKey (failedChains : Finset ChainKey) (seeding : Seeding) (key : NonceKey) : Asking Seeding :=
  if key.chainKey ∈ failedChains then .done seeding
  else if key ∈ seeding.refreshedKeys ∨ key ∈ seeding.failedKeys then .done seeding
  else .ask (.accountNonce key) fun accountNonce =>
    match ChainInfo.getAccountNonce accountNonce with
    | .ok platformNonce =>
      .done { seeding with
        nonces := Function.update seeding.nonces key
          (some (rebase (seeding.nonces key) platformNonce))
        refreshedKeys := insert key seeding.refreshedKeys }
    | .error _ => .done { seeding with failedKeys := insert key seeding.failedKeys }

def askKeys (failedChains : Finset ChainKey) : Seeding → List NonceKey → Asking Seeding
  | seeding, [] => .done seeding
  | seeding, key :: rest =>
    (askKey failedChains seeding key).andThen fun seeding => askKeys failedChains seeding rest

variable {K : Type} (ring : Keyring K) (keypair : K)

def askPrepare (metadata : MetadataCache) (nonces : NonceCache) (requests : List TransactionRequest) :
    Asking (Except Panic Prepared) :=
  (askChains subxt ⟨fun _ => none, ∅, metadata⟩ requests).andThen fun
    | .error panic => .done (.error panic)
    | .ok prefetch =>
      (askKeys prefetch.failedChains ⟨nonces, ∅, ∅⟩ (requests.map (nonceKey ring keypair))).andThen
        fun seeding =>
        match signRequests ⟨subxt, ring, keypair, prefetch, seeding.failedKeys⟩
            ⟨seeding.nonces, [], ∅⟩ requests with
        | .error panic => .done (.error panic)
        | .ok signing => .done (.ok ⟨prefetch.metadata, seeding.nonces, signing⟩)

/-- Replies of which only that to the submission matters. -/
def submissionReply (signTransactions : Send Bool) : Replies where
  currentBlock _ := unavailable
  chainInfo _ := unavailable
  accountNonce _ := unavailable
  signTransactions

def askSubmit (prepared : Prepared) (requestCount : Nat) : Asking Handled :=
  if prepared.signing.inputs.isEmpty then
    .done (submit (submissionReply unavailable) prepared requestCount)
  else .ask (.signTransactions prepared.signing.inputs) fun signTransactions =>
    .done (submit (submissionReply signTransactions) prepared requestCount)

/-- `handle_tick`, with the questions it asks in the order of the source. -/
def askTick (metadata : MetadataCache) (nonces : NonceCache) (requests : List TransactionRequest)
    (idle : Finset ChainKey) : Asking (Except Panic Handled) :=
  let nonces := evictIdleChains nonces idle
  if requests.isEmpty then .done (.ok ⟨.completed, metadata, nonces, []⟩)
  else (askPrepare subxt ring keypair metadata nonces requests).andThen fun
    | .error panic => .done (.error panic)
    | .ok prepared =>
      (askSubmit prepared requests.length).andThen fun handled => .done (.ok handled)

end Asking

section Evaluated

variable {subxt : Subxt} {K : Type} {ring : Keyring K} {keypair : K}

/-- The replies that a table holds. -/
def repliesOf (table : ∀ question, Reply question) (signTransactions : Send Bool) : Replies where
  currentBlock key := table (.currentBlock key)
  chainInfo key := table (.chainInfo key)
  accountNonce key := table (.accountNonce key)
  signTransactions

variable (table : ∀ question, Reply question) (signTransactions : Send Bool)

theorem askChain_eval (prefetch : Prefetch) (key : ChainKey) :
    (askChain subxt prefetch key).eval table =
      prefetchChain subxt (repliesOf table signTransactions) prefetch key := by
  unfold askChain prefetchChain
  split
  · rfl
  · rw [Inquiry.eval_ask]
    dsimp only [repliesOf]
    cases ChainInfo.getBlockAndSpecVersion (table (.currentBlock key)) with
    | error panic => rfl
    | ok result =>
      cases result with
      | error e => rfl
      | ok info =>
        dsimp only
        split
        · rw [Inquiry.eval_ask]
          cases ChainInfo.updateMetadataAndSubstrateClient subxt key (table (.chainInfo key)) <;> rfl
        · rfl

theorem askChains_eval (prefetch : Prefetch) (requests : List TransactionRequest) :
    (askChains subxt prefetch requests).eval table =
      prefetchChains subxt (repliesOf table signTransactions) prefetch requests := by
  induction requests generalizing prefetch with
  | nil => rfl
  | cons request rest ih =>
    rw [askChains, Inquiry.eval_andThen, askChain_eval table signTransactions, prefetchChains]
    cases prefetchChain subxt (repliesOf table signTransactions) prefetch request.chainKey with
    | error panic => rfl
    | ok prefetch => exact ih prefetch

theorem askKey_eval (failedChains : Finset ChainKey) (seeding : Seeding) (key : NonceKey) :
    (askKey failedChains seeding key).eval table =
      seedKey (repliesOf table signTransactions) failedChains seeding key := by
  unfold askKey seedKey
  split
  · rfl
  split
  · rfl
  rw [Inquiry.eval_ask]
  dsimp only [repliesOf]
  cases ChainInfo.getAccountNonce (table (.accountNonce key)) <;> rfl

theorem askKeys_eval (failedChains : Finset ChainKey) (seeding : Seeding) (keys : List NonceKey) :
    (askKeys failedChains seeding keys).eval table =
      seedKeys (repliesOf table signTransactions) failedChains seeding keys := by
  induction keys generalizing seeding with
  | nil => rfl
  | cons key rest ih =>
    rw [askKeys, Inquiry.eval_andThen, askKey_eval table signTransactions, ih]
    rfl

theorem askPrepare_eval (metadata : MetadataCache) (nonces : NonceCache)
    (requests : List TransactionRequest) :
    (askPrepare subxt ring keypair metadata nonces requests).eval table =
      prepare subxt ring keypair (repliesOf table signTransactions) metadata nonces requests := by
  rw [askPrepare, Inquiry.eval_andThen, askChains_eval table signTransactions, prepare]
  cases prefetchChains subxt (repliesOf table signTransactions) ⟨fun _ => none, ∅, metadata⟩
      requests with
  | error panic => rfl
  | ok prefetch =>
    dsimp only
    rw [Inquiry.eval_andThen, askKeys_eval table signTransactions]
    split <;> simp_all

theorem askSubmit_eval (prepared : Prepared) (requestCount : Nat) :
    (askSubmit prepared requestCount).eval table =
      submit (repliesOf table (table (.signTransactions prepared.signing.inputs))) prepared
        requestCount := by
  unfold askSubmit
  split
  · rename_i nothing
    simp only [Inquiry.eval_done, submit, nothing, if_true]
  · rfl

theorem askTick_eval (metadata : MetadataCache) (nonces : NonceCache)
    (requests : List TransactionRequest) (idle : Finset ChainKey) :
    ∃ signTransactions, (askTick subxt ring keypair metadata nonces requests idle).eval table =
      handleTick subxt ring keypair (repliesOf table signTransactions) metadata nonces requests
        idle := by
  unfold askTick handleTick
  dsimp only
  split
  · exact ⟨unavailable, rfl⟩
  rw [Inquiry.eval_andThen]
  cases made : (askPrepare subxt ring keypair metadata (evictIdleChains nonces idle) requests).eval
      table with
  | error panic =>
    refine ⟨unavailable, ?_⟩
    rw [transactionHandler, ← askPrepare_eval, made]
    rfl
  | ok prepared =>
    refine ⟨table (.signTransactions prepared.signing.inputs), ?_⟩
    rw [transactionHandler, ← askPrepare_eval, made]
    dsimp only
    rw [Inquiry.eval_andThen, askSubmit_eval]
    rfl

end Evaluated

section Once

variable {subxt : Subxt} {K : Type} (ring : Keyring K) (keypair : K)

def Concerns (requests : List TransactionRequest) : Question → Prop
  | .currentBlock key => ∃ request ∈ requests, request.chainKey = key
  | .chainInfo key => ∃ request ∈ requests, request.chainKey = key
  | .accountNonce key => ∃ request ∈ requests, nonceKey ring keypair request = key
  | .signTransactions inputs => inputs ≠ []

/-- What was asked in the prefetch: chains that are known since. -/
structure ChainsAsked (requests : List TransactionRequest) (asked : Set Question) : Prop where
  concerns : ∀ question ∈ asked, Concerns ring keypair requests question
  noNonce : ∀ key, .accountNonce key ∉ asked
  noSubmission : ∀ inputs, .signTransactions inputs ∉ asked

def Prefetch.Tracks (prefetch : Prefetch) (asked : Set Question) : Prop :=
  ∀ key, .currentBlock key ∈ asked ∨ .chainInfo key ∈ asked → prefetch.Visited key

structure KeysAsked (requests : List TransactionRequest) (asked : Set Question) : Prop where
  concerns : ∀ question ∈ asked, Concerns ring keypair requests question
  noSubmission : ∀ inputs, .signTransactions inputs ∉ asked

def Seeding.Tracks (seeding : Seeding) (asked : Set Question) : Prop :=
  ∀ key, .accountNonce key ∈ asked → key ∈ seeding.refreshedKeys ∨ key ∈ seeding.failedKeys

variable {ring keypair} {requests : List TransactionRequest} {asked : Set Question}

theorem ChainsAsked.insert_block (chains : ChainsAsked ring keypair requests asked) {key : ChainKey}
    (about : ∃ request ∈ requests, request.chainKey = key) :
    ChainsAsked ring keypair requests (insert (.currentBlock key) asked) where
  concerns question inside := by
    rcases Set.mem_insert_iff.mp inside with rfl | old
    · exact about
    · exact chains.concerns question old
  noNonce other := by simpa using chains.noNonce other
  noSubmission inputs := by simpa using chains.noSubmission inputs

theorem ChainsAsked.insert_info (chains : ChainsAsked ring keypair requests asked) {key : ChainKey}
    (about : ∃ request ∈ requests, request.chainKey = key) :
    ChainsAsked ring keypair requests (insert (.chainInfo key) asked) where
  concerns question inside := by
    rcases Set.mem_insert_iff.mp inside with rfl | old
    · exact about
    · exact chains.concerns question old
  noNonce other := by simpa using chains.noNonce other
  noSubmission inputs := by simpa using chains.noSubmission inputs

theorem Prefetch.Tracks.visit {prefetch after : Prefetch} {later : Set Question} {key : ChainKey}
    (tracks : prefetch.Tracks asked) (now : after.Visited key)
    (kept : ∀ other, prefetch.Visited other → after.Visited other)
    (new : ∀ other, .currentBlock other ∈ later ∨ .chainInfo other ∈ later →
      other = key ∨ .currentBlock other ∈ asked ∨ .chainInfo other ∈ asked) :
    after.Tracks later := by
  intro other inside
  rcases new other inside with rfl | old
  · exact now
  · exact kept other (tracks other old)

theorem fail_visited (prefetch : Prefetch) (key : ChainKey) : (prefetch.fail key).Visited key :=
  .inr (Finset.mem_insert_self key _)

theorem fail_kept (prefetch : Prefetch) (key other : ChainKey) (visited : prefetch.Visited other) :
    (prefetch.fail key).Visited other :=
  visited.imp_right (Finset.mem_insert_of_mem)

theorem askChain_once {prefetch : Prefetch} {key : ChainKey}
    (chains : ChainsAsked ring keypair requests asked) (tracks : prefetch.Tracks asked)
    (about : ∃ request ∈ requests, request.chainKey = key) :
    (askChain subxt prefetch key).Once asked fun result later =>
      ChainsAsked ring keypair requests later ∧
        ∀ after, result = .ok after → after.Tracks later := by
  unfold askChain
  split
  · exact ⟨chains, fun after same => Except.ok.inj same ▸ tracks⟩
  rename_i unknown
  have fresh : ¬ prefetch.Visited key := unknown
  refine ⟨fun old => fresh (tracks key (.inl old)), fun currentBlock => ?_⟩
  have first := chains.insert_block about
  have one : ∀ other, .currentBlock other ∈ insert (.currentBlock key) asked ∨
      .chainInfo other ∈ insert (.currentBlock key) asked →
        other = key ∨ .currentBlock other ∈ asked ∨ .chainInfo other ∈ asked := by
    intro other inside
    simp only [Set.mem_insert_iff, Question.currentBlock.injEq, reduceCtorEq, false_or] at inside
    tauto
  dsimp only
  split
  · exact ⟨first, fun after same => by cases same⟩
  · refine ⟨first, fun after same => ?_⟩
    rw [← Except.ok.inj same]
    exact tracks.visit (fail_visited _ _) (fail_kept _ _) one
  rename_i info _
  have known : ∀ metadata, (⟨Function.update prefetch.blockInfo key (some info),
      prefetch.failedChains, metadata⟩ : Prefetch).Visited key := by
    intro metadata
    refine .inl ?_
    simp
  have kept : ∀ metadata other, prefetch.Visited other →
      (⟨Function.update prefetch.blockInfo key (some info), prefetch.failedChains, metadata⟩ :
        Prefetch).Visited other := by
    intro metadata other visited
    by_cases same : other = key
    · rw [same]
      exact known metadata
    · refine visited.imp_left fun there => ?_
      simpa [Function.update_of_ne same] using there
  split
  · refine ⟨fun old => ?_, fun chainInfo => ?_⟩
    · rcases Set.mem_insert_iff.mp old with same | before
      · cases same
      · exact fresh (tracks key (.inr before))
    have second := first.insert_info about
    have two : ∀ other, .currentBlock other ∈ insert (.chainInfo key)
          (insert (.currentBlock key) asked) ∨
        .chainInfo other ∈ insert (.chainInfo key) (insert (.currentBlock key) asked) →
          other = key ∨ .currentBlock other ∈ asked ∨ .chainInfo other ∈ asked := by
      intro other inside
      simp only [Set.mem_insert_iff, Question.currentBlock.injEq, Question.chainInfo.injEq,
        reduceCtorEq, false_or] at inside
      tauto
    dsimp only
    split
    · refine ⟨second, fun after same => ?_⟩
      rw [← Except.ok.inj same]
      exact tracks.visit (fail_visited _ _) (fail_kept _ _) two
    · refine ⟨second, fun after same => ?_⟩
      rw [← Except.ok.inj same]
      exact tracks.visit (known _) (kept _) two
  · refine ⟨first, fun after same => ?_⟩
    rw [← Except.ok.inj same]
    exact tracks.visit (known _) (kept _) one

theorem askChains_once {prefetch : Prefetch} {rest : List TransactionRequest}
    (chains : ChainsAsked ring keypair requests asked) (tracks : prefetch.Tracks asked)
    (inside : rest ⊆ requests) :
    (askChains subxt prefetch rest).Once asked fun _ later =>
      ChainsAsked ring keypair requests later := by
  induction rest generalizing prefetch asked with
  | nil => exact chains
  | cons request rest ih =>
    have about : ∃ other ∈ requests, other.chainKey = request.chainKey :=
      ⟨request, inside List.mem_cons_self, rfl⟩
    refine Inquiry.Once.andThen ((askChain_once chains tracks about).mono ?_)
    rintro result later ⟨chains, tracks⟩
    cases result with
    | error panic => exact chains
    | ok after => exact ih chains (tracks after rfl) fun _ member => inside (List.mem_cons_of_mem _ member)

theorem askKey_once {failedChains : Finset ChainKey} {seeding : Seeding} {key : NonceKey}
    (keys : KeysAsked ring keypair requests asked) (tracks : seeding.Tracks asked)
    (about : ∃ request ∈ requests, nonceKey ring keypair request = key) :
    (askKey failedChains seeding key).Once asked fun after later =>
      KeysAsked ring keypair requests later ∧ after.Tracks later := by
  unfold askKey
  split
  · exact ⟨keys, tracks⟩
  split
  · exact ⟨keys, tracks⟩
  rename_i unknown
  refine ⟨fun old => unknown (tracks key old), fun accountNonce => ?_⟩
  have asks : KeysAsked ring keypair requests (insert (.accountNonce key) asked) := by
    refine ⟨fun question inside => ?_, fun inputs => by simpa using keys.noSubmission inputs⟩
    rcases Set.mem_insert_iff.mp inside with rfl | old
    · exact about
    · exact keys.concerns question old
  dsimp only
  split
  · refine ⟨asks, fun other inside => ?_⟩
    rcases Set.mem_insert_iff.mp inside with same | old
    · exact .inl (Finset.mem_insert.mpr (.inl (Question.accountNonce.inj same)))
    · exact (tracks other old).imp_left Finset.mem_insert_of_mem
  · refine ⟨asks, fun other inside => ?_⟩
    rcases Set.mem_insert_iff.mp inside with same | old
    · exact .inr (Finset.mem_insert.mpr (.inl (Question.accountNonce.inj same)))
    · exact (tracks other old).imp_right Finset.mem_insert_of_mem

theorem askKeys_once {failedChains : Finset ChainKey} {seeding : Seeding} {rest : List NonceKey}
    (keys : KeysAsked ring keypair requests asked) (tracks : seeding.Tracks asked)
    (inside : rest ⊆ requests.map (nonceKey ring keypair)) :
    (askKeys failedChains seeding rest).Once asked fun _ later =>
      KeysAsked ring keypair requests later := by
  induction rest generalizing seeding asked with
  | nil => exact keys
  | cons key rest ih =>
    refine Inquiry.Once.andThen
      ((askKey_once keys tracks (List.mem_map.mp (inside List.mem_cons_self))).mono ?_)
    rintro after later ⟨keys, tracks⟩
    exact ih keys tracks fun _ member => inside (List.mem_cons_of_mem _ member)

theorem askPrepare_once (metadata : MetadataCache) (nonces : NonceCache) :
    (askPrepare subxt ring keypair metadata nonces requests).Once ∅ fun _ later =>
      KeysAsked ring keypair requests later := by
  have start : ChainsAsked ring keypair requests ∅ :=
    ⟨fun _ inside => absurd inside (Set.notMem_empty _), fun _ => Set.notMem_empty _,
      fun _ => Set.notMem_empty _⟩
  have nothing : (⟨fun _ => none, ∅, metadata⟩ : Prefetch).Tracks ∅ := by
    rintro key (inside | inside) <;> exact absurd inside (Set.notMem_empty _)
  refine Inquiry.Once.andThen ((askChains_once start nothing fun _ member => member).mono ?_)
  intro result later chains
  have keys : KeysAsked ring keypair requests later := ⟨chains.concerns, chains.noSubmission⟩
  cases result with
  | error panic => exact keys
  | ok prefetch =>
    have none_ : (⟨nonces, ∅, ∅⟩ : Seeding).Tracks later := fun key inside =>
      absurd inside (chains.noNonce key)
    refine Inquiry.Once.andThen ((askKeys_once keys none_ fun _ member => member).mono ?_)
    intro seeding later keys
    split <;> exact keys

theorem askTick_once (metadata : MetadataCache) (nonces : NonceCache) (idle : Finset ChainKey) :
    (askTick subxt ring keypair metadata nonces requests idle).Once ∅ fun _ later =>
      ∀ question ∈ later, Concerns ring keypair requests question := by
  unfold askTick
  dsimp only
  split
  · exact fun _ inside => absurd inside (Set.notMem_empty _)
  refine Inquiry.Once.andThen ((askPrepare_once metadata _).mono ?_)
  intro result later keys
  cases result with
  | error panic => exact keys.concerns
  | ok prepared =>
    refine Inquiry.Once.andThen ?_
    unfold askSubmit
    split
    · exact keys.concerns
    · rename_i some_
      refine ⟨keys.noSubmission _, fun signTransactions question inside => ?_⟩
      rcases Set.mem_insert_iff.mp inside with rfl | old
      · exact fun none_ => some_ (List.isEmpty_iff.mpr none_)
      · exact keys.concerns question old

end Once

section Served

variable {K : Type} (subxt : Subxt) (ring : Keyring K) (keypair : K)

structure Caches where
  metadata : MetadataCache
  nonces : NonceCache

def Handles (before : Caches) (tick : List TransactionRequest × Finset ChainKey) (after : Caches) :
    Prop :=
  ∃ replies handled, handleTick subxt ring keypair replies before.metadata before.nonces tick.1
    tick.2 = .ok handled ∧ after = ⟨handled.metadata, handled.nonces⟩

variable {Ω : Type} (server : ∀ question, Ω → Reply question × Ω)

/-- Handle one tick after another, up to a panic: how many, and what they leave. -/
def serveTicks : Caches → Ω → List (List TransactionRequest × Finset ChainKey) → Nat × Caches
  | caches, _, [] => (0, caches)
  | caches, world, tick :: rest =>
    let served := (askTick subxt ring keypair caches.metadata caches.nonces tick.1 tick.2).serve
      server world
    match served.value with
    | .error _ => (0, caches)
    | .ok handled =>
      let last := serveTicks ⟨handled.metadata, handled.nonces⟩ served.world rest
      (last.1 + 1, last.2)

variable {subxt ring keypair server}

theorem served_replies (subxt : Subxt) (ring : Keyring K) (keypair : K)
    (server : ∀ question, Ω → Reply question × Ω) (world : Ω) (metadata : MetadataCache)
    (nonces : NonceCache) (requests : List TransactionRequest) (idle : Finset ChainKey) :
    ∃ table signTransactions, Inquiry.Agrees table
        ((askTick subxt ring keypair metadata nonces requests idle).serve server world).log ∧
      ((askTick subxt ring keypair metadata nonces requests idle).serve server world).value =
        handleTick subxt ring keypair (repliesOf table signTransactions) metadata nonces requests
          idle := by
  have once : (askTick subxt ring keypair metadata nonces requests idle).Once ∅ fun _ later =>
      ∀ question ∈ later, Concerns ring keypair requests question := askTick_once metadata nonces idle
  obtain ⟨table, agrees, same⟩ := once.exists_table server world
  obtain ⟨signTransactions, evaluated⟩ :
      ∃ signTransactions, (askTick subxt ring keypair metadata nonces requests idle).eval table =
        handleTick subxt ring keypair (repliesOf table signTransactions) metadata nonces requests
          idle := askTick_eval table metadata nonces requests idle
  exact ⟨table, signTransactions, agrees, same.symm.trans evaluated⟩

/-- Tick by tick, a run against the platform is a run with replies. -/
theorem serveTicks_path (caches : Caches) (world : Ω)
    (ticks : List (List TransactionRequest × Finset ChainKey)) :
    Path (Handles subxt ring keypair) caches
      (ticks.take (serveTicks subxt ring keypair server caches world ticks).1)
      (serveTicks subxt ring keypair server caches world ticks).2 := by
  induction ticks generalizing caches world with
  | nil => exact .refl
  | cons tick rest ih =>
    obtain ⟨table, signTransactions, -, same⟩ := served_replies subxt ring keypair server world
      caches.metadata caches.nonces tick.1 tick.2
    unfold serveTicks
    dsimp only
    cases value : ((askTick subxt ring keypair caches.metadata caches.nonces tick.1 tick.2).serve
        server world).value with
    | error panic => exact .refl
    | ok handled =>
      have first : Handles subxt ring keypair caches tick ⟨handled.metadata, handled.nonces⟩ :=
        ⟨_, handled, same.symm.trans value, rfl⟩
      exact (Path.single first).trans (ih _ _)

/-- Whatever a platform answers, at its own time and in its own state, a batch asks it no
question twice and only of its own chains and accounts. What it makes of the answers is what
it makes of replies that are functions of the chain and of the account, and so is every run. -/
theorem batch_asks_once (subxt : Subxt) (ring : Keyring K) (keypair : K)
    (server : ∀ question, Ω → Reply question × Ω) (world : Ω) (metadata : MetadataCache)
    (nonces : NonceCache) :
    (∀ requests idle,
      let served := (askTick subxt ring keypair metadata nonces requests idle).serve server world
      (Inquiry.questions served.log).Nodup ∧
      (∀ question ∈ Inquiry.questions served.log, Concerns ring keypair requests question) ∧
      ∃ table signTransactions, Inquiry.Agrees table served.log ∧
        served.value = handleTick subxt ring keypair (repliesOf table signTransactions) metadata
          nonces requests idle) ∧
    ∀ ticks, Path (Handles subxt ring keypair) ⟨metadata, nonces⟩
      (ticks.take (serveTicks subxt ring keypair server ⟨metadata, nonces⟩ world ticks).1)
      (serveTicks subxt ring keypair server ⟨metadata, nonces⟩ world ticks).2 := by
  refine ⟨fun requests idle => ?_, fun ticks => serveTicks_path _ _ ticks⟩
  have once : (askTick subxt ring keypair metadata nonces requests idle).Once ∅ fun _ later =>
      ∀ question ∈ later, Concerns ring keypair requests question := askTick_once metadata nonces idle
  obtain ⟨nodup, -, concerns⟩ := once.serve server world
  exact ⟨nodup, fun question inside => concerns question (.inr inside),
    served_replies subxt ring keypair server world metadata nonces requests idle⟩

end Served

end WalletDaemon.TransactionHandler
