import WalletDaemon.ScaleEncode
import WalletDaemon.Text
import WalletDaemon.WalletPoller

/-! Managed wallets: the junction an external id derives its key pair with, and
what is registered of that key pair. -/

namespace WalletDaemon

open Scale

/-- The compact form of a length, a `u32`. -/
def compactLength (n : Nat) : Bytes :=
  if n < 2 ^ 6 then leBytes 1 (4 * n)
  else if n < 2 ^ 14 then leBytes 2 (4 * n + 1)
  else if n < 2 ^ 30 then leBytes 4 (4 * n + 2)
  else 3 :: leBytes 4 n

/-- The SCALE encoding of a junction's index: an `i64` in two's complement, a
string with its length. -/
def DeriveJunction.encoded : DeriveJunction → Bytes
  | .number n => leBytes 8 (n % 2 ^ 64).toNat
  | .text id => compactLength (utf8 id).length ++ utf8 id

/-- The chain code of an encoding: padded with zeros, or hashed when too long. -/
def chainCode (blake2 : Bytes → Bytes) (encoded : Bytes) : Bytes :=
  if encoded.length ≤ 32 then encoded ++ List.replicate (32 - encoded.length) 0
  else blake2 encoded

def DeriveJunction.soft (blake2 : Bytes → Bytes) (junction : DeriveJunction) : Bytes :=
  chainCode blake2 junction.encoded

/-- Numeric ids derive from the integer, everything else from the string. -/
def deriveJunction (externalId : String) : DeriveJunction :=
  match parseI64 externalId with
  | some n => .number n
  | none => .text externalId

structure PopulateManagedWalletInput where
  externalId : String
  publicKey : String
  signedMessage : String
deriving DecidableEq, Repr

section Registration

variable {K : Type} (ring : Keyring K) (keypair : K)

def derivedPair (externalId : String) : K := ring.derive keypair (deriveJunction externalId)

def populateInput (request : WalletPoller.DeriveWalletRequest) : PopulateManagedWalletInput :=
  let derived := derivedPair ring keypair request.externalId
  let daemonPublicKey := hexEncode (ring.publicKey keypair)
  let message := "EnjinPlatform.VerifyManagedWallet(0x" ++ daemonPublicKey ++ ")"
  { externalId := request.externalId
    publicKey := "0x" ++ hexEncode (ring.publicKey derived)
    signedMessage := "0x" ++ hexEncode (ring.sign derived (utf8 message)).1 }

end Registration

section Encodings

theorem signed_range {negative : Bool} {value : Nat} {n : Int}
    (h : (if negative = true then if value ≤ 2 ^ 63 then some (-(value : Int)) else none
      else if value < 2 ^ 63 then some (value : Int) else none) = some n) :
    -2 ^ 63 ≤ n ∧ n < 2 ^ 63 := by
  split_ifs at h
  · obtain rfl : -(value : Int) = n := Option.some.inj h
    omega
  · obtain rfl : (value : Int) = n := Option.some.inj h
    omega

theorem parseI64_range {text : String} {n : Int} (h : parseI64 text = some n) :
    -2 ^ 63 ≤ n ∧ n < 2 ^ 63 := by
  unfold parseI64 at h
  dsimp only at h
  split at h <;> dsimp only at h <;> split at h
  all_goals first
    | cases h
    | split at h
      · cases h
      · exact signed_range h

theorem chainCode_eq_iff (blake2 : Bytes → Bytes) {x y : Bytes} (left : x.length ≤ 32)
    (right : y.length ≤ 32) : chainCode blake2 x = chainCode blake2 y ↔ leNat x = leNat y := by
  have value : ∀ z : Bytes, leNat (z ++ List.replicate (32 - z.length) 0) = leNat z := by
    intro z
    simp [leNat_append, leNat_zeros]
  rw [chainCode, chainCode, if_pos left, if_pos right]
  constructor
  · intro same
    rw [← value x, ← value y, same]
  · intro same
    apply leNat_inj
    · simp only [List.length_append, List.length_replicate]
      omega
    · rw [value, value, same]

theorem encoded_number_length (n : Int) : (DeriveJunction.number n).encoded.length = 8 :=
  leBytes_length 8 _

theorem leNat_number (n : Int) : leNat (DeriveJunction.number n).encoded = (n % 2 ^ 64).toNat := by
  apply leNat_leBytes
  omega

theorem compactLength_length_mono {m n : Nat} (h : m ≤ n) :
    (compactLength m).length ≤ (compactLength n).length := by
  simp only [compactLength, apply_ite List.length, List.length_cons, leBytes_length]
  split_ifs <;> omega

theorem encoded_text_inj {a b : String}
    (h : (DeriveJunction.text a).encoded = (DeriveJunction.text b).encoded) : a = b := by
  have lengths := congrArg List.length h
  simp only [DeriveJunction.encoded, List.length_append] at lengths
  have same : (utf8 a).length = (utf8 b).length := by
    rcases Nat.lt_trichotomy (utf8 a).length (utf8 b).length with less | same | more
    · have := compactLength_length_mono less.le
      omega
    · exact same
    · have := compactLength_length_mono more.le
      omega
  simp only [DeriveJunction.encoded, same] at h
  exact utf8_inj (List.append_cancel_left h)

theorem encoded_text_short {text : String}
    (h : (DeriveJunction.text text).encoded.length ≤ 32) :
    (utf8 text).length < 32 ∧ (DeriveJunction.text text).encoded =
      UInt8.ofNat (4 * (utf8 text).length) :: utf8 text := by
  simp only [DeriveJunction.encoded, List.length_append] at h ⊢
  have short : (utf8 text).length < 2 ^ 6 := by omega
  have one : compactLength (utf8 text).length = [UInt8.ofNat (4 * (utf8 text).length)] := by
    rw [compactLength, if_pos short, leBytes, leBytes]
    congr 2
    omega
  rw [one] at h ⊢
  simp only [List.length_singleton] at h
  exact ⟨by omega, rfl⟩

end Encodings

section Collisions

/-- The text's length byte and its UTF-8 bytes are the little-endian bytes of
the number, zeros aside. -/
def Spells (text : String) (n : Int) : Prop :=
  (utf8 text).length < 32 ∧
    leNat (UInt8.ofNat (4 * (utf8 text).length) :: utf8 text) = (n % 2 ^ 64).toNat

/-- The ids derive the same junction: they are spellings of one number, or one
is a number that the other, which is none, spells. -/
inductive Clash (a b : String) : Prop
  | number (n : Int) : parseI64 a = some n → parseI64 b = some n → Clash a b
  | spelled (n : Int) : parseI64 a = some n → parseI64 b = none → Spells b n → Clash a b
  | spells (n : Int) : parseI64 a = none → parseI64 b = some n → Spells a n → Clash a b

/-- The two encodings are not told apart only if they are the same, when the
hash is needed. -/
def HashInjective (blake2 : Bytes → Bytes) (x y : Bytes) : Prop :=
  32 < x.length ∨ 32 < y.length → chainCode blake2 x = chainCode blake2 y → x = y

variable {blake2 : Bytes → Bytes}

theorem numbers_apart {m n : Int} (left : -2 ^ 63 ≤ m ∧ m < 2 ^ 63)
    (right : -2 ^ 63 ≤ n ∧ n < 2 ^ 63) :
    (DeriveJunction.number m).soft blake2 = (DeriveJunction.number n).soft blake2 ↔ m = n := by
  have short : ∀ k, (DeriveJunction.number k).encoded.length ≤ 32 := fun k => by
    rw [encoded_number_length]
    decide
  rw [DeriveJunction.soft, DeriveJunction.soft, chainCode_eq_iff blake2 (short m) (short n),
    leNat_number, leNat_number]
  omega

theorem texts_apart {a b : String} (injective : HashInjective blake2
      (DeriveJunction.text a).encoded (DeriveJunction.text b).encoded) :
    (DeriveJunction.text a).soft blake2 = (DeriveJunction.text b).soft blake2 ↔ a = b := by
  refine ⟨fun same => ?_, fun same => by rw [same]⟩
  by_cases short : (DeriveJunction.text a).encoded.length ≤ 32 ∧
      (DeriveJunction.text b).encoded.length ≤ 32
  · have value := (chainCode_eq_iff blake2 short.1 short.2).mp same
    obtain ⟨lengthA, encodedA⟩ := encoded_text_short short.1
    obtain ⟨lengthB, encodedB⟩ := encoded_text_short short.2
    rw [encodedA, encodedB, leNat, leNat, UInt8.toNat_ofNat', UInt8.toNat_ofNat'] at value
    have lengths : (utf8 a).length = (utf8 b).length := by omega
    exact utf8_inj (leNat_inj lengths (by omega))
  · exact encoded_text_inj (injective (by omega) same)

/-- A number and a text derive the same junction only if the text spells the
number. -/
theorem number_text_apart {n : Int} {text : String} (injective : HashInjective blake2
      (DeriveJunction.number n).encoded (DeriveJunction.text text).encoded) :
    (DeriveJunction.number n).soft blake2 = (DeriveJunction.text text).soft blake2 ↔
      Spells text n := by
  have number : (DeriveJunction.number n).encoded.length ≤ 32 := by
    rw [encoded_number_length]
    decide
  by_cases short : (DeriveJunction.text text).encoded.length ≤ 32
  · obtain ⟨length, encoded⟩ := encoded_text_short short
    rw [DeriveJunction.soft, DeriveJunction.soft, chainCode_eq_iff blake2 number short,
      leNat_number, encoded, Spells, eq_comm]
    exact (and_iff_right length).symm
  · constructor
    · intro same
      have encoded := injective (.inr (by omega)) same
      rw [← encoded] at short
      exact absurd number short
    · rintro ⟨length, -⟩
      have one : (compactLength (utf8 text).length).length = 1 := by
        rw [compactLength, if_pos (by omega), leBytes_length]
      simp only [DeriveJunction.encoded, List.length_append, one] at short
      omega

theorem HashInjective.symm {x y : Bytes} (h : HashInjective blake2 x y) :
    HashInjective blake2 y x := fun long same => (h long.symm same.symm).symm

/-- Two ids derive the same junction exactly if they are equal or clash. -/
theorem deriveJunction_soft_eq_iff {a b : String} (different : a ≠ b)
    (injective : HashInjective blake2 (deriveJunction a).encoded (deriveJunction b).encoded) :
    (deriveJunction a).soft blake2 = (deriveJunction b).soft blake2 ↔ Clash a b := by
  unfold deriveJunction at injective ⊢
  cases left : parseI64 a with
  | some m =>
    cases right : parseI64 b with
    | some n =>
      dsimp only
      rw [numbers_apart (parseI64_range left) (parseI64_range right)]
      constructor
      · intro same
        exact .number m left (right.trans (congrArg some same.symm))
      · rintro (⟨k, isA, isB⟩ | ⟨_, _, isB, _⟩ | ⟨_, isA, _, _⟩)
        · exact Option.some.inj ((left.symm.trans isA).trans (isB.symm.trans right))
        · cases right.symm.trans isB
        · cases left.symm.trans isA
    | none =>
      rw [left, right] at injective
      dsimp only at injective ⊢
      rw [number_text_apart injective]
      constructor
      · exact .spelled m left right
      · rintro (⟨_, _, isB⟩ | ⟨k, isA, _, spelled⟩ | ⟨_, isA, _, _⟩)
        · cases right.symm.trans isB
        · rwa [Option.some.inj (left.symm.trans isA)]
        · cases left.symm.trans isA
  | none =>
    cases right : parseI64 b with
    | some n =>
      rw [left, right] at injective
      dsimp only at injective ⊢
      rw [eq_comm, number_text_apart injective.symm]
      constructor
      · exact .spells n left right
      · rintro (⟨_, isA, _⟩ | ⟨_, isA, _, _⟩ | ⟨k, _, isB, spells⟩)
        · cases left.symm.trans isA
        · cases left.symm.trans isA
        · rwa [Option.some.inj (right.symm.trans isB)]
    | none =>
      rw [left, right] at injective
      dsimp only at injective ⊢
      rw [texts_apart injective]
      refine iff_of_false different ?_
      rintro (⟨_, isA, _⟩ | ⟨_, isA, _, _⟩ | ⟨_, _, isB, _⟩)
      · cases left.symm.trans isA
      · cases left.symm.trans isA
      · cases right.symm.trans isB

/-- Key pairs as the junctions that lead to them. -/
def pathRing : Keyring (List DeriveJunction) where
  publicKey _ := []
  derive path junction := path ++ [junction]
  sign _ _ := ⟨List.replicate 64 0, List.length_replicate⟩

def registeredJunctions (blake2 : Bytes → Bytes) (externalId : String) : List Bytes :=
  (derivedPair pathRing [] externalId).map (DeriveJunction.soft blake2)

def signingJunctions (blake2 : Bytes → Bytes) (externalId : String) : List Bytes :=
  (deriveSigner pathRing [] (some externalId)).map (DeriveJunction.soft blake2)

/-- The wallet registered for one id is neither registered nor signing for the
other. -/
structure Distinct (blake2 : Bytes → Bytes) (a b : String) : Prop where
  registered : registeredJunctions blake2 a ≠ registeredJunctions blake2 b
  signing : registeredJunctions blake2 a ≠ signingJunctions blake2 b
  signs : signingJunctions blake2 a ≠ registeredJunctions blake2 b

/-- Different ids have distinct wallets exactly if they do not clash. -/
theorem wallets_distinct_iff (blake2 : Bytes → Bytes) (a b : String) (different : a ≠ b)
    (injective : HashInjective blake2 (deriveJunction a).encoded (deriveJunction b).encoded) :
    Distinct blake2 a b ↔ ¬ Clash a b := by
  rw [← deriveJunction_soft_eq_iff different injective]
  have registered : ∀ id, registeredJunctions blake2 id = [(deriveJunction id).soft blake2] :=
    fun _ => rfl
  have signing : ∀ id, signingJunctions blake2 id = [(deriveJunction id).soft blake2] :=
    fun _ => rfl
  constructor
  · rintro ⟨distinct, -, -⟩ same
    exact distinct (by rw [registered, registered, same])
  · intro apart
    have lists : [(deriveJunction a).soft blake2] ≠ [(deriveJunction b).soft blake2] :=
      fun same => apart (List.singleton_inj.mp same)
    refine ⟨?_, ?_, ?_⟩
    · rwa [registered, registered]
    · rwa [registered, signing]
    · rwa [registered, signing]

theorem wallets_distinct_textual : Distinct (fun _ => []) "42" "wallet-1" :=
  (wallets_distinct_iff (fun _ => []) "42" "wallet-1" (by decide)
    (fun long _ => absurd long (by decide))).mpr (by
      rintro (⟨_, _, isB⟩ | ⟨n, isA, _, spelled⟩ | ⟨_, isA, _, _⟩)
      · cases isB
      · cases isA
        exact absurd spelled.2 (by decide)
      · cases isA)

/-- The text "a" has the wallet of a number. -/
theorem letter_has_number_wallet :
    ¬ ∀ (blake2 : Bytes → Bytes) (a b : String), a ≠ b →
      HashInjective blake2 (deriveJunction a).encoded (deriveJunction b).encoded →
        Distinct blake2 a b := by
  intro claim
  have distinct := claim (fun _ => []) "a" "24836" (by decide)
    fun long _ => absurd long (by decide)
  exact distinct.registered (by decide)

end Collisions

end WalletDaemon
