import WalletDaemon.Platform
import Mathlib.Data.List.TakeWhile
import Mathlib.Algebra.Group.Nat.Defs
import Mathlib.Algebra.Group.Int.Defs

/-! A row of a pending-transactions page, and the request it becomes.
Strings are read character by character, so that a model of the hex decoder and
of `i64`'s parser can be evaluated. -/

namespace WalletDaemon

inductive HexError
  | oddLength
  | invalidHexCharacter (c : Char) (index : Nat)
deriving DecidableEq, Repr

def HexError.toText : HexError → String
  | .oddLength => "Odd number of digits"
  | .invalidHexCharacter c index =>
    let apostrophe := Char.ofNat 39
    "Invalid character " ++ Platform.enclosed apostrophe (Platform.debugEscape apostrophe) [c] ++
      " at position " ++ toString index

def hexValue (c : Char) : Option Nat :=
  if '0' ≤ c ∧ c ≤ '9' then some (c.toNat - '0'.toNat)
  else if 'a' ≤ c ∧ c ≤ 'f' then some (c.toNat - 'a'.toNat + 10)
  else if 'A' ≤ c ∧ c ≤ 'F' then some (c.toNat - 'A'.toNat + 10)
  else none

def hexPairs (index : Nat) : List Char → Except HexError Bytes
  | high :: low :: rest =>
    match hexValue high, hexValue low with
    | some h, some l => (hexPairs (index + 2) rest).map (UInt8.ofNat (16 * h + l) :: ·)
    | none, _ => .error (.invalidHexCharacter high index)
    | some _, none => .error (.invalidHexCharacter low (index + 1))
  | _ => .ok []

/-- The bytes of a text's UTF-8, each as the character of its number. -/
def latin (text : List Char) : List Char :=
  text.flatMap fun c => (String.utf8EncodeChar c).map fun b => Char.ofNat b.toNat

/-- `hex::decode`, which reads the bytes of the text. -/
def hexDecode (digits : List Char) : Except HexError Bytes :=
  let bytes := latin digits
  if bytes.length % 2 = 1 then .error .oddLength else hexPairs 0 bytes

theorem hexValue_ascii {c : Char} {n : Nat} (h : hexValue c = some n) : c.toNat < 128 := by
  have nine : ('9' : Char).toNat = 57 := rfl
  have small : ('f' : Char).toNat = 102 := rfl
  have capital : ('F' : Char).toNat = 70 := rfl
  unfold hexValue at h
  simp only [Char.le_def, UInt32.le_iff_toNat_le, Char.toNat_val] at h
  split at h
  · omega
  · split at h
    · omega
    · split at h
      · omega
      · cases h

theorem latin_cons (c : Char) (rest : List Char) : latin (c :: rest) = latin [c] ++ latin rest := by
  simp [latin]

theorem toNat_ofNat_byte (b : UInt8) : (Char.ofNat b.toNat).toNat = b.toNat := by
  have small := b.toNat_lt
  have valid : b.toNat.isValidChar := .inl (by omega)
  rw [Char.ofNat, dif_pos valid]
  rfl

theorem latin_ascii {c : Char} (h : c.toNat < 128) : latin [c] = [c] := by
  have code : c.val.toNat = c.toNat := rfl
  have small : c.val.toNat ≤ 127 := by omega
  have byte : (UInt8.ofNat c.val.toNat).toNat = c.toNat := by
    rw [UInt8.toNat_ofNat']
    omega
  simp only [latin, List.flatMap_singleton, String.utf8EncodeChar, if_pos small, List.map_cons,
    List.map_nil, byte, Char.ofNat_toNat]

/-- Beyond ASCII every character begins with a byte that is no digit. -/
theorem latin_beyond {c : Char} (h : 128 ≤ c.toNat) :
    ∃ d rest, latin [c] = d :: rest ∧ 128 ≤ d.toNat := by
  have code : c.val.toNat = c.toNat := rfl
  have lead : ∀ n, 192 ≤ n → n < 256 → 128 ≤ (Char.ofNat (UInt8.ofNat n).toNat).toNat := by
    intro n least most
    rw [toNat_ofNat_byte, UInt8.toNat_ofNat']
    omega
  simp only [latin, List.flatMap_singleton, String.utf8EncodeChar]
  split
  · omega
  · split
    · exact ⟨_, _, rfl, lead _ (by omega) (by omega)⟩
    · split
      · exact ⟨_, _, rfl, lead _ (by omega) (by omega)⟩
      · exact ⟨_, _, rfl, lead _ (by omega) (by omega)⟩

theorem latin_digits {digits : List Char} (h : ∀ c ∈ digits, c.toNat < 128) :
    latin digits = digits := by
  induction digits with
  | nil => rfl
  | cons c digits ih =>
    rw [latin_cons, latin_ascii (h c (by simp)), ih fun d later => h d (by simp [later])]
    rfl

theorem ascii_of_latin {text : List Char} (h : ∀ d ∈ latin text, d.toNat < 128) :
    ∀ c ∈ text, c.toNat < 128 := by
  intro c inside
  by_contra beyond
  obtain ⟨d, rest, bytes, high⟩ := latin_beyond (Nat.not_lt.mp beyond)
  have member : d ∈ latin text := by
    refine List.mem_flatMap.mpr ⟨c, inside, ?_⟩
    have own : latin [c] = (String.utf8EncodeChar c).map fun b => Char.ofNat b.toNat := by
      simp [latin]
    rw [← own, bytes]
    exact List.mem_cons_self
  have low := h d member
  omega

/-- `text.split('x').nth(1)`. -/
def afterX (text : String) : Option (List Char) :=
  match text.toList.dropWhile (· ≠ 'x') with
  | [] => none
  | _ :: rest => some (rest.takeWhile (· ≠ 'x'))

/-- The bytes after the `0x` of a field, with the error for a field without one. -/
def prefixedBytes (missing : String) (text : String) : Except String Bytes :=
  match afterX text with
  | none => .error missing
  | some digits => (hexDecode digits).mapError HexError.toText

/-- A value of a GraphQL enumeration: the schema's own, or one it does not name. -/
inductive Enumerated (V : Type)
  | known (value : V)
  | other (name : String)
deriving DecidableEq, Repr

def Enumerated.tryInto {V : Type} : Enumerated V → Except String V
  | .known value => .ok value
  | .other name => .error name

structure PendingTransaction where
  uuid : String
  encodedData : String
  walletExternalId : Option String
  network : Enumerated Network
  chain : Enumerated Chain
  shouldSignFuelTank : Bool
  fuelTankSignerExternalId : Option String
deriving DecidableEq, Repr

/-- With a `fuelTankSignerExternalId` the payload is a fuel tank dispatch that
needs its signature added. -/
structure TransactionRequest where
  requestId : String
  externalId : Option String
  network : Network
  chain : Chain
  payload : Bytes
  fuelTankSignerExternalId : Option (Option String)
deriving DecidableEq, Repr

def TransactionRequest.chainKey (request : TransactionRequest) : ChainKey :=
  (request.network, request.chain)

def TransactionRequest.tryFrom (data : PendingTransaction) : Except String TransactionRequest :=
  match data.network.tryInto with
  | .error e => .error e
  | .ok network =>
    match data.chain.tryInto with
    | .error e => .error e
    | .ok chain =>
      match prefixedBytes "missing 0x" data.encodedData with
      | .error e => .error e
      | .ok payload => .ok {
          requestId := data.uuid
          externalId := data.walletExternalId
          network
          chain
          payload
          fuelTankSignerExternalId :=
            if data.shouldSignFuelTank then some data.fuelTankSignerExternalId else none }

theorem TransactionRequest.tryFrom_requestId {data : PendingTransaction}
    {request : TransactionRequest} (h : tryFrom data = .ok request) :
    request.requestId = data.uuid := by
  unfold tryFrom at h
  split at h
  · cases h
  split at h
  · cases h
  split at h
  · cases h
  rw [← Except.ok.inj h]

inductive DeriveJunction
  | number (n : Int)
  | text (id : String)
deriving DecidableEq, Repr

/-- Key pairs, as far as the daemon uses them. -/
structure Keyring (K : Type) where
  publicKey : K → Bytes
  derive : K → DeriveJunction → K
  sign : K → Bytes → { bytes : Bytes // bytes.length = 64 }

def parseDigits (value : Nat) : List Char → Option Nat
  | [] => some value
  | c :: rest =>
    if '0' ≤ c ∧ c ≤ '9' then parseDigits (10 * value + (c.toNat - '0'.toNat)) rest else none

/-- `text.parse::<i64>()`. -/
def parseI64 (text : String) : Option Int :=
  let (negative, digits) := match text.toList with
    | '-' :: digits => (true, digits)
    | '+' :: digits => (false, digits)
    | digits => (false, digits)
  if digits.isEmpty then none
  else match parseDigits 0 digits with
    | none => none
    | some n =>
      if negative then if n ≤ 2 ^ 63 then some (-(n : Int)) else none
      else if n < 2 ^ 63 then some (n : Int) else none

/-- A soft junction for the id, numeric when the id is an `i64`; without an id
the root key pair signs. -/
def deriveSigner {K : Type} (ring : Keyring K) (keypair : K) : Option String → K
  | some id => ring.derive keypair (match parseI64 id with
    | some n => .number n
    | none => .text id)
  | none => keypair

def nonceKey {K : Type} (ring : Keyring K) (keypair : K) (request : TransactionRequest) :
    NonceKey :=
  (request.network, request.chain, ring.publicKey (deriveSigner ring keypair request.externalId))

end WalletDaemon
