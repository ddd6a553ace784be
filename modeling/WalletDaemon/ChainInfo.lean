import WalletDaemon.Extrinsic
import Mathlib.Algebra.Group.Nat.Defs

/-! What the daemon reads about a chain: its head, its runtime and an account's
next nonce. The platform's integers are `i64`s and are cast as the code casts
them; a block hash of the wrong length panics. -/

namespace WalletDaemon

/-- What takes the processor down in the batch being handled. A panic ends its task,
a stack overflow the process. -/
inductive Panic
  | blockHashLength
  | expirationOverflow
  | nonceOverflow
  | stackOverflow
deriving DecidableEq, Repr

def asU32 (n : Int) : Nat := (n % 2 ^ 32).toNat

def asU64 (n : Int) : Nat := (n % 2 ^ 64).toNat

structure CurrentBlock where
  currentBlockNumber : Int
  currentBlockHash : String
  specVersion : Int
deriving DecidableEq, Repr

/-- Captured at prefetch time and reused for every request signed against that
chain in the batch. -/
structure BlockInfo where
  blockNumber : Nat
  blockHash : Bytes
  specVersion : Nat
deriving DecidableEq, Repr

structure ChainInfo where
  specVersion : Int
  transactionVersion : Int
  metadataVersion : Int
  metadata : String
deriving DecidableEq, Repr

structure MetadataInfo where
  specVersion : Nat
  client : SubstrateClient
deriving DecidableEq, Repr

namespace ChainInfo

open Platform Reader Scale

def getBlockAndSpecVersion (send : Send (Option CurrentBlock)) :
    Except Panic (Except String BlockInfo) :=
  match executeQuery send none with
  | .error e => .ok (.error e)
  | .ok none => .ok (.error "no result for current block")
  | .ok (some info) =>
    match prefixedBytes "decode block hash failed" info.currentBlockHash with
    | .error e => .ok (.error e)
    | .ok blockHash =>
      if blockHash.length = 32 then
        .ok (.ok ⟨asU32 info.currentBlockNumber, blockHash, asU32 info.specVersion⟩)
      else .error .blockHashLength

/-- An optional byte vector; bytes after it are not looked at. -/
def optionBytes : Decoder (Option Bytes) :=
  readByte.andThen fun tag =>
    if tag = 0 then done none
    else if tag = 1 then
      (compactUint 4).andThen fun len => (takeBytes len).map some
    else fail (.variantNotFound tag)

def genesisHash : Network → Chain → Bytes
  | .canary, .relay => [
      0x73, 0x5d, 0x87, 0x73, 0xc6, 0x3e, 0x74, 0xff, 0x84, 0x90, 0xfe, 0xe5, 0x75, 0x1a, 0xc0, 0x7e,
      0x15, 0xbf, 0xe2, 0xb3, 0xb5, 0x26, 0x3b, 0xe4, 0xd6, 0x83, 0xc4, 0x8d, 0xbd, 0xfb, 0xcd, 0x15]
  | .canary, .matrix => [
      0xa3, 0x77, 0x25, 0xfd, 0x89, 0x43, 0xd2, 0xa5, 0x24, 0xcb, 0x7e, 0xcc, 0x65, 0xda, 0x43, 0x8f,
      0x9f, 0xa6, 0x44, 0xdb, 0x78, 0xba, 0x24, 0xdc, 0xd0, 0x00, 0x3e, 0x2f, 0x95, 0x64, 0x5e, 0x8f]
  | .enjin, .relay => [
      0xd8, 0x76, 0x1d, 0x3c, 0x88, 0xf2, 0x6d, 0xc1, 0x28, 0x75, 0xc0, 0x0d, 0x31, 0x65, 0xf7, 0xd6,
      0x72, 0x43, 0xd5, 0x6f, 0xc8, 0x5b, 0x4c, 0xf1, 0x99, 0x37, 0x60, 0x1a, 0x79, 0x16, 0xe5, 0xa9]
  | .enjin, .matrix => [
      0x3a, 0xf4, 0xff, 0x48, 0xec, 0x76, 0xd2, 0xef, 0xc8, 0x47, 0x67, 0x30, 0xf4, 0x23, 0xac, 0x07,
      0xe2, 0x5a, 0xd4, 0x8f, 0x5f, 0x4c, 0x9d, 0xc3, 0x9c, 0x77, 0x8b, 0x16, 0x4d, 0x80, 0x86, 0x15]

def updateMetadataAndSubstrateClient (subxt : Subxt) (key : ChainKey)
    (send : Send (Option ChainInfo)) : Except String MetadataInfo :=
  match executeQuery send none with
  | .error e => .error e
  | .ok none => .error "no result for metadata"
  | .ok (some info) =>
    if info.metadataVersion > 16 then
      .error "metadata version greater than 16 is not supported"
    else match prefixedBytes "missing 0x" info.metadata with
      | .error e => .error e
      | .ok bytes =>
        match optionBytes bytes with
        | .error e => .error (subxt.codecErrorText e)
        | .ok (none, _) => .error "No metadata returned"
        | .ok (some bytes, _) =>
          match subxt.decodeMetadata bytes with
          | .error e => .error e
          | .ok metadata => .ok {
              specVersion := asU32 info.specVersion
              client := {
                genesisHash := genesisHash key.1 key.2
                specVersion := asU32 info.specVersion
                transactionVersion := asU32 info.transactionVersion
                metadata } }

def getAccountNonce (send : Send Int) : Except String Nat :=
  match executeQuery send none with
  | .error e => .error e
  | .ok result => .ok (asU64 result)

theorem getBlockAndSpecVersion_ok {send : Send (Option CurrentBlock)} {info : BlockInfo}
    (h : getBlockAndSpecVersion send = .ok (.ok info)) :
    info.blockHash.length = 32 ∧ info.blockNumber < 2 ^ 32 := by
  unfold getBlockAndSpecVersion at h
  split at h
  · cases h
  · cases h
  split at h
  · cases h
  split at h
  · rename_i length
    have made := Except.ok.inj (Except.ok.inj h)
    rw [← made]
    refine ⟨length, ?_⟩
    simp only [asU32]
    omega
  · cases h

theorem getBlockAndSpecVersion_reply {send : Send (Option CurrentBlock)} {info : BlockInfo}
    (h : getBlockAndSpecVersion send = .ok (.ok info)) :
    ∃ block, executeQuery send none = .ok (some block) ∧
      info.specVersion = asU32 block.specVersion := by
  unfold getBlockAndSpecVersion at h
  split at h
  · cases h
  · cases h
  rename_i block replied
  refine ⟨block, replied, ?_⟩
  split at h
  · cases h
  split at h
  · rw [← Except.ok.inj (Except.ok.inj h)]
  · cases h

end ChainInfo

end WalletDaemon
