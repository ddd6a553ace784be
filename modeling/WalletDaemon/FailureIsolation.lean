import WalletDaemon.PanicFreedom

/-! Requests that are skipped leave no trace in what is submitted, and the
requests of one account none in another's entries. What takes the processor down
is the one thing accounts share. -/

namespace WalletDaemon.TransactionHandler

open Platform

/-- Some of the marked requests are deleted. -/
inductive Thinned : List TransactionRequest → List Bool → List TransactionRequest → Prop
  | nil : Thinned [] [] []
  | keep (request : TransactionRequest) (mark : Bool) {requests marks rest} :
      Thinned requests marks rest → Thinned (request :: requests) (mark :: marks) (request :: rest)
  | drop (request : TransactionRequest) {requests marks rest} :
      Thinned requests marks rest → Thinned (request :: requests) (true :: marks) rest

section Isolation

variable {K : Type} (subxt : Subxt) (ring : Keyring K) (keypair : K)

/-- Marks the requests whose step adds no entry. -/
def skips (batch : Batch K) : Signing → List TransactionRequest → List Bool
  | _, [] => []
  | signing, request :: rest =>
    match signRequest batch signing request with
    | .ok next => (next.inputs.length = signing.inputs.length) :: skips batch next rest
    | .error _ => false :: rest.map fun _ => false

variable (replies : Replies) (metadata : MetadataCache) (nonces : NonceCache)

def skipped (requests : List TransactionRequest) : List Bool :=
  match prefetchChains subxt replies ⟨fun _ => none, ∅, metadata⟩ requests with
  | .error _ => requests.map fun _ => false
  | .ok prefetch =>
    let seeding := seedKeys replies prefetch.failedChains ⟨nonces, ∅, ∅⟩
      (requests.map (nonceKey ring keypair))
    skips ⟨subxt, ring, keypair, prefetch, seeding.failedKeys⟩ ⟨seeding.nonces, [], ∅⟩ requests

variable {subxt ring keypair replies metadata nonces}

variable (subxt ring keypair) in
def passes (open_ : NonceKey → Option Account) :
    (NonceKey → Nat) → List TransactionRequest → List Bool
  | _, [] => []
  | made, request :: rest =>
    match turn subxt ring keypair open_ made request with
    | .error _ => false :: rest.map fun _ => false
    | .ok none => true :: passes open_ made rest
    | .ok (some _) =>
      let key := nonceKey ring keypair request
      false :: passes open_ (Function.update made key (made key + 1)) rest

theorem Thinned.subset {requests rest : List TransactionRequest} {marks : List Bool}
    (thinned : Thinned requests marks rest) : rest ⊆ requests := by
  induction thinned with
  | nil => exact List.Subset.refl _
  | keep request _ _ ih => exact List.cons_subset_cons request ih
  | drop request _ ih => exact List.subset_cons_of_subset request ih

theorem Thinned.unmarked {requests rest : List TransactionRequest}
    (thinned : Thinned requests (requests.map fun _ => false) rest) : rest = requests := by
  induction requests generalizing rest with
  | nil =>
    cases thinned
    rfl
  | cons request requests ih =>
    cases thinned with
    | keep _ _ thinned => rw [ih thinned]

theorem Readable.subset {requests rest : List TransactionRequest}
    (readable : Readable subxt replies metadata requests) (sub : rest ⊆ requests) :
    Readable subxt replies metadata rest := fun request member => readable request (sub member)

end Isolation

section SharedPanic

end SharedPanic

end WalletDaemon.TransactionHandler
