import WalletDaemon.FuelTank
import WalletDaemon.TransactionRequest

/-! Extrinsics as subxt is asked for them.
A signed extrinsic is kept as what its signature covers, not as the bytes it is
encoded to, and two signatures over the same content are not told apart here.
What subxt refuses, and how it decodes metadata, are parameters. -/

namespace WalletDaemon

def txMortality : Nat := 64

def dummyTxMortality : Nat := 14400

/-- An offline client: one runtime for every block. -/
structure SubstrateClient where
  genesisHash : Bytes
  specVersion : Nat
  transactionVersion : Nat
  metadata : Metadata
deriving DecidableEq, Repr

structure RawPayload where
  palletName : String
  callName : String
  fieldBytes : Bytes
deriving DecidableEq, Repr

/-- Name the call with the metadata the payload is signed with. -/
def RawPayload.fromBytes (metadata : Metadata) : Bytes → Option RawPayload
  | palletIndex :: callIndex :: fieldBytes =>
    match metadata.extrinsicCallInfoByIndex palletIndex callIndex with
    | .error _ => none
    | .ok info => some ⟨info.palletName, info.callName, fieldBytes⟩
  | _ => none

def remarkPayload : RawPayload := ⟨"System", "remark", [0]⟩

/-- A nonce, and a mortality anchored at a block. -/
structure ExtrinsicParams where
  nonce : Nat
  forNBlocks : Nat
  fromBlockN : Nat
  fromBlockHash : Bytes
deriving DecidableEq, Repr

structure SignedExtrinsic where
  signer : Bytes
  genesisHash : Bytes
  specVersion : Nat
  transactionVersion : Nat
  callData : Bytes
  params : ExtrinsicParams
deriving DecidableEq, Repr

structure Subxt where
  scale : FuelTank.ScaleLibrary
  decodeMetadata : Bytes → Except String Metadata
  codecErrorText : Scale.DecodeError → String
  atBlockRefuses : SubstrateClient → Nat → Bool
  signableRefuses : SubstrateClient → RawPayload → ExtrinsicParams → Option String
  signRefuses : SubstrateClient → RawPayload → ExtrinsicParams → Bytes → Option String

namespace Subxt

/-- The indices the names have in the metadata, then the fields. -/
def callData (client : SubstrateClient) (payload : RawPayload) : Except String Bytes :=
  match client.metadata.extrinsicCallInfoByName payload.palletName payload.callName with
  | .error e => .error e
  | .ok info => .ok (info.palletIndex :: info.callIndex :: payload.fieldBytes)

/-- Where names are unique, a payload named by the metadata is encoded back to
its bytes. -/
theorem callData_fromBytes {client : SubstrateClient} (unique : client.metadata.UniqueNames)
    {bytes : Bytes} {payload : RawPayload}
    (h : RawPayload.fromBytes client.metadata bytes = some payload) :
    callData client payload = .ok bytes := by
  unfold RawPayload.fromBytes at h
  split at h
  · rename_i palletIndex callIndex fieldBytes
    split at h
    · cases h
    rename_i info found
    have made : (⟨info.palletName, info.callName, fieldBytes⟩ : RawPayload) = payload :=
      Option.some.inj h
    have back := Metadata.byName_of_byIndex unique found
    rw [← made, callData]
    simp only [back.1, back.2.1, back.2.2]
  · cases h

def createSignableOffline (subxt : Subxt) (client : SubstrateClient) (payload : RawPayload)
    (params : ExtrinsicParams) : Except String Bytes :=
  match callData client payload with
  | .error e => .error e
  | .ok data =>
    match subxt.signableRefuses client payload params with
    | some e => .error e
    | none => .ok data

def signedExtrinsic (subxt : Subxt) (client : SubstrateClient) (payload : RawPayload)
    (params : ExtrinsicParams) (signer : Bytes) : Except String SignedExtrinsic :=
  match subxt.createSignableOffline client payload params with
  | .error e => .error e
  | .ok data =>
    match subxt.signRefuses client payload params signer with
    | some e => .error e
    | none => .ok {
        signer
        genesisHash := client.genesisHash
        specVersion := client.specVersion
        transactionVersion := client.transactionVersion
        callData := data
        params }

theorem signedExtrinsic_callData {subxt : Subxt} {client : SubstrateClient}
    {payload : RawPayload} {params : ExtrinsicParams} {signer : Bytes} {signed : SignedExtrinsic}
    (h : subxt.signedExtrinsic client payload params signer = .ok signed) :
    callData client payload = .ok signed.callData := by
  unfold signedExtrinsic createSignableOffline at h
  split at h
  · cases h
  rename_i data created
  split at h
  · cases h
  have made := Except.ok.inj h
  rw [← made]
  split at created
  · cases created
  rename_i encoded
  split at created
  · cases created
  · rw [encoded, Except.ok.inj created]

theorem signedExtrinsic_ok {subxt : Subxt} {client : SubstrateClient} {payload : RawPayload}
    {params : ExtrinsicParams} {signer : Bytes} {signed : SignedExtrinsic}
    (h : subxt.signedExtrinsic client payload params signer = .ok signed) :
    signed.signer = signer ∧ signed.params = params := by
  unfold signedExtrinsic at h
  split at h
  · cases h
  split at h
  · cases h
  have made := Except.ok.inj h
  rw [← made]
  exact ⟨rfl, rfl⟩

theorem signedExtrinsic_specVersion {subxt : Subxt} {client : SubstrateClient}
    {payload : RawPayload} {params : ExtrinsicParams} {signer : Bytes} {signed : SignedExtrinsic}
    (h : subxt.signedExtrinsic client payload params signer = .ok signed) :
    signed.specVersion = client.specVersion := by
  unfold signedExtrinsic at h
  split at h
  · cases h
  split at h
  · cases h
  have made := Except.ok.inj h
  rw [← made]

end Subxt

end WalletDaemon
