import Mathlib.Data.List.Basic
import Mathlib.Algebra.Group.Nat.Defs

/-! UTF-16: the code units of characters, and the lossy reading of any units. -/

namespace WalletDaemon.Utf16

def highSurrogate (code : Nat) : UInt16 := UInt16.ofNat (0xD800 + code / 0x400)

def lowSurrogate (code : Nat) : UInt16 := UInt16.ofNat (0xDC00 + code % 0x400)

/-- Beyond the first plane a character takes a pair of surrogates. -/
def encodeChar (c : Char) : List UInt16 :=
  if c.toNat < 0x10000 then [UInt16.ofNat c.toNat]
  else [highSurrogate (c.toNat - 0x10000), lowSurrogate (c.toNat - 0x10000)]

def encode (text : String) : List UInt16 := text.toList.flatMap encodeChar

def isHigh (u : UInt16) : Bool := 0xD800 ≤ u.toNat && u.toNat < 0xDC00

def isLow (u : UInt16) : Bool := 0xDC00 ≤ u.toNat && u.toNat < 0xE000

def isSurrogate (u : UInt16) : Bool := isHigh u || isLow u

def pair (u v : UInt16) : Char :=
  Char.ofNat (0x10000 + 0x400 * (u.toNat - 0xD800) + (v.toNat - 0xDC00))

def unpaired (u : UInt16) : Except UInt16 Char :=
  if isSurrogate u then .error u else .ok (Char.ofNat u.toNat)

/-- `char::decode_utf16`: the unit after a high surrogate is read again unless it is
a low one. -/
def decode : List UInt16 → List (Except UInt16 Char)
  | [] => []
  | [u] => [unpaired u]
  | u :: v :: rest =>
    if isHigh u && isLow v then .ok (pair u v) :: decode rest else unpaired u :: decode (v :: rest)

def replacementCharacter : Char := Char.ofNat 0xFFFD

def orReplacement : Except UInt16 Char → Char
  | .ok c => c
  | .error _ => replacementCharacter

/-- `String::from_utf16_lossy`. -/
def fromUtf16Lossy (units : List UInt16) : String :=
  String.ofList ((decode units).map orReplacement)

theorem toNat_bounds (c : Char) :
    c.toNat < 0x110000 ∧ ¬ (0xD800 ≤ c.toNat ∧ c.toNat < 0xE000) := by
  rcases c.valid with low | ⟨above, below⟩
  · have small : c.toNat < 0xD800 := low
    omega
  · have above' : 0xDFFF < c.toNat := above
    have below' : c.toNat < 0x110000 := below
    omega

theorem toNat_ofNat {n : Nat} (h : n < 2 ^ 16) : (UInt16.ofNat n).toNat = n := by
  rw [UInt16.toNat_ofNat']
  omega

section Surrogates

variable {code : Nat}

theorem highSurrogate_toNat (h : code < 0x100000) :
    (highSurrogate code).toNat = 0xD800 + code / 0x400 :=
  toNat_ofNat (by omega)

theorem lowSurrogate_toNat (code : Nat) : (lowSurrogate code).toNat = 0xDC00 + code % 0x400 :=
  toNat_ofNat (by omega)

theorem isHigh_highSurrogate (h : code < 0x100000) : isHigh (highSurrogate code) = true := by
  simp only [isHigh, highSurrogate_toNat h, Bool.and_eq_true, decide_eq_true_eq]
  omega

theorem isLow_lowSurrogate (code : Nat) : isLow (lowSurrogate code) = true := by
  simp only [isLow, lowSurrogate_toNat, Bool.and_eq_true, decide_eq_true_eq]
  omega

theorem pair_surrogates (h : code < 0x100000) :
    pair (highSurrogate code) (lowSurrogate code) = Char.ofNat (0x10000 + code) := by
  have sum : 0x10000 + 0x400 * (0xD800 + code / 0x400 - 0xD800) + (0xDC00 + code % 0x400 - 0xDC00) =
      0x10000 + code := by omega
  rw [pair, highSurrogate_toNat h, lowSurrogate_toNat, sum]

end Surrogates

theorem decode_unpaired {u : UInt16} (h : isHigh u = false) (rest : List UInt16) :
    decode (u :: rest) = unpaired u :: decode rest := by
  cases rest with
  | nil => rfl
  | cons v rest => simp [decode, h]

theorem decode_pair {u v : UInt16} (high : isHigh u = true) (low : isLow v = true)
    (rest : List UInt16) : decode (u :: v :: rest) = .ok (pair u v) :: decode rest := by
  rw [decode, high, low]
  rfl

theorem decode_encodeChar (c : Char) (rest : List UInt16) :
    decode (encodeChar c ++ rest) = .ok c :: decode rest := by
  have bounds := toNat_bounds c
  unfold encodeChar
  split
  · rename_i small
    have value := toNat_ofNat (n := c.toNat) (by omega)
    have high : isHigh (UInt16.ofNat c.toNat) = false := by
      simp only [isHigh, value, Bool.and_eq_false_iff, decide_eq_false_iff_not]
      omega
    have low : isLow (UInt16.ofNat c.toNat) = false := by
      simp only [isLow, value, Bool.and_eq_false_iff, decide_eq_false_iff_not]
      omega
    rw [List.singleton_append, decode_unpaired high]
    simp only [unpaired, isSurrogate, high, low, value, Bool.or_false, Bool.false_eq_true, if_false,
      Char.ofNat_toNat]
  · rename_i large
    have plane : c.toNat - 0x10000 < 0x100000 := by omega
    have sum : 0x10000 + (c.toNat - 0x10000) = c.toNat := by omega
    rw [List.cons_append, List.singleton_append,
      decode_pair (isHigh_highSurrogate plane) (isLow_lowSurrogate _), pair_surrogates plane, sum,
      Char.ofNat_toNat]

theorem decode_encode (text : List Char) (rest : List UInt16) :
    decode (text.flatMap encodeChar ++ rest) = text.map .ok ++ decode rest := by
  induction text with
  | nil => rfl
  | cons c text ih =>
    rw [List.flatMap_cons, List.append_assoc, decode_encodeChar, ih]
    rfl

theorem fromUtf16Lossy_encode (text : String) (rest : List UInt16) :
    fromUtf16Lossy (encode text ++ rest) = text ++ fromUtf16Lossy rest := by
  have read := decode_encode text.toList rest
  have kept : (text.toList.map Except.ok).map orReplacement = text.toList := by
    simp [Function.comp_def, orReplacement]
  rw [fromUtf16Lossy, encode, read, List.map_append, kept, String.ofList_append,
    String.ofList_toList]
  rfl

section Reencoding

theorem ofNat_valid {n : Nat} (h : n.isValidChar) : (Char.ofNat n).toNat = n := by
  rw [Char.ofNat, dif_pos h]
  rfl

theorem encodeChar_unit {u : UInt16} (h : isSurrogate u = false) :
    encodeChar (Char.ofNat u.toNat) = [u] := by
  have small := u.toNat_lt
  have apart : u.toNat < 0xD800 ∨ 0xE000 ≤ u.toNat := by
    simp only [isSurrogate, isHigh, isLow, Bool.or_eq_false_iff, Bool.and_eq_false_iff,
      decide_eq_false_iff_not] at h
    omega
  have valid : Nat.isValidChar u.toNat := by
    unfold Nat.isValidChar
    omega
  have value : (Char.ofNat u.toNat).toNat = u.toNat := ofNat_valid valid
  rw [encodeChar, value, if_pos (by omega), UInt16.ofNat_toNat]

theorem encodeChar_pair {u v : UInt16} (high : isHigh u = true) (low : isLow v = true) :
    encodeChar (pair u v) = [u, v] := by
  simp only [isHigh, isLow, Bool.and_eq_true, decide_eq_true_eq] at high low
  have valid : Nat.isValidChar (0x10000 + 0x400 * (u.toNat - 0xD800) + (v.toNat - 0xDC00)) := by
    unfold Nat.isValidChar
    omega
  have value : (pair u v).toNat =
      0x10000 + 0x400 * (u.toNat - 0xD800) + (v.toNat - 0xDC00) := ofNat_valid valid
  have first : 0xD800 + ((pair u v).toNat - 0x10000) / 0x400 = u.toNat := by omega
  have second : 0xDC00 + ((pair u v).toNat - 0x10000) % 0x400 = v.toNat := by omega
  rw [encodeChar, if_neg (by omega), highSurrogate, lowSurrogate, first, second,
    UInt16.ofNat_toNat, UInt16.ofNat_toNat]

/-- A unit stands as it was, or is the replacement of a surrogate. -/
def Mended (u v : UInt16) : Prop := v = u ∨ isSurrogate u = true ∧ v = 0xFFFD

theorem mended_unpaired (u : UInt16) :
    ∃ v, encodeChar (orReplacement (unpaired u)) = [v] ∧ Mended u v := by
  unfold unpaired
  split
  · rename_i surrogate
    exact ⟨0xFFFD, rfl, .inr ⟨surrogate, rfl⟩⟩
  · rename_i other
    exact ⟨u, encodeChar_unit (by simpa using other), .inl rfl⟩

/-- The lossy reading drops no unit and moves none. -/
theorem encode_fromUtf16Lossy (units : List UInt16) :
    List.Forall₂ Mended units (encode (fromUtf16Lossy units)) := by
  rw [encode, fromUtf16Lossy, String.toList_ofList]
  induction units using decode.induct with
  | case1 => exact .nil
  | case2 u =>
    obtain ⟨v, unit, mended⟩ := mended_unpaired u
    simpa [decode, unit] using mended
  | case3 u v rest paired ih =>
    have halves : isHigh u = true ∧ isLow v = true := by simpa using paired
    rw [decode, if_pos paired, List.map_cons, List.flatMap_cons, orReplacement,
      encodeChar_pair halves.1 halves.2]
    exact .cons (.inl rfl) (.cons (.inl rfl) ih)
  | case4 u v rest other ih =>
    obtain ⟨w, unit, mended⟩ := mended_unpaired u
    rw [decode, if_neg other, List.map_cons, List.flatMap_cons, unit]
    exact .cons mended ih

end Reencoding

end WalletDaemon.Utf16
