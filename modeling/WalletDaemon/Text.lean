import WalletDaemon.TransactionRequest

/-! Texts as bytes: UTF-8 and hex. -/

namespace WalletDaemon

def utf8 (text : String) : Bytes := text.toByteArray.data.toList

/-- `String::from_utf8`, without its error. -/
def fromUtf8 (bytes : Bytes) : Option String := String.fromUTF8? ⟨bytes.toArray⟩

def hexDigit (n : Nat) : Char := if n < 10 then Char.ofNat (48 + n) else Char.ofNat (87 + n)

def hexDigits (bytes : Bytes) : List Char :=
  bytes.flatMap fun b => [hexDigit (b.toNat / 16), hexDigit (b.toNat % 16)]

def hexEncode (bytes : Bytes) : String := String.ofList (hexDigits bytes)

theorem utf8_inj {a b : String} (h : utf8 a = utf8 b) : a = b := by
  have data : a.toByteArray.data = b.toByteArray.data := Array.toList_inj.mp h
  exact String.toByteArray_inj.mp (ByteArray.ext data)

theorem utf8_append (a b : String) : utf8 (a ++ b) = utf8 a ++ utf8 b := by
  simp [utf8]

theorem fromUtf8_utf8 (text : String) : fromUtf8 (utf8 text) = some text := by
  unfold fromUtf8 utf8 String.fromUTF8?
  rw [Array.toArray_toList]
  exact dif_pos text.isValidUTF8

theorem utf8_of_fromUtf8 {bytes : Bytes} {text : String} (h : fromUtf8 bytes = some text) :
    utf8 text = bytes := by
  unfold fromUtf8 String.fromUTF8? at h
  split at h
  · rw [← Option.some.inj h]
    rfl
  · cases h

theorem fromUtf8_part {bytes : Bytes} {part whole : String} (h : fromUtf8 bytes = some part)
    (torn : bytes <+: utf8 whole) : part.toList <+: whole.toList := by
  obtain ⟨rest, same⟩ := torn
  rw [← utf8_of_fromUtf8 h] at same
  apply List.isPrefix_of_utf8Encode_append_eq_utf8Encode ⟨rest.toArray⟩
  rw [String.utf8Encode_toList, String.utf8Encode_toList]
  apply ByteArray.ext
  apply Array.toList_inj.mp
  simpa [utf8] using same

theorem hexValue_hexDigit : ∀ n < 16, hexValue (hexDigit n) = some n := by decide

theorem hexPairs_hexDigits (index : Nat) (bytes : Bytes) :
    hexPairs index (hexDigits bytes) = .ok bytes := by
  induction bytes generalizing index with
  | nil => rfl
  | cons b bytes ih =>
    have small := b.toNat_lt
    have high := hexValue_hexDigit (b.toNat / 16) (by omega)
    have low := hexValue_hexDigit (b.toNat % 16) (by omega)
    have whole : UInt8.ofNat (16 * (b.toNat / 16) + b.toNat % 16) = b := by
      rw [Nat.div_add_mod, UInt8.ofNat_toNat]
    have split : hexDigits (b :: bytes) =
        hexDigit (b.toNat / 16) :: hexDigit (b.toNat % 16) :: hexDigits bytes := rfl
    rw [split, hexPairs, high, low]
    simp only [ih, whole, Except.map]

theorem hexDigits_range {bytes : Bytes} {c : Char} (h : c ∈ hexDigits bytes) :
    '0' ≤ c ∧ c ≤ '9' ∨ 'a' ≤ c ∧ c ≤ 'f' := by
  obtain ⟨b, -, digit⟩ := List.mem_flatMap.mp h
  have small := b.toNat_lt
  have range : ∀ n < 16, '0' ≤ hexDigit n ∧ hexDigit n ≤ '9' ∨
      'a' ≤ hexDigit n ∧ hexDigit n ≤ 'f' := by decide
  rcases List.mem_cons.mp digit with rfl | digit
  · exact range _ (by omega)
  · rw [List.mem_singleton.mp digit]
    exact range _ (by omega)

theorem hexDigits_ascii {bytes : Bytes} {c : Char} (h : c ∈ hexDigits bytes) : c.toNat < 128 := by
  have nine : ('9' : Char).toNat = 57 := rfl
  have small : ('f' : Char).toNat = 102 := rfl
  have range := hexDigits_range h
  simp only [Char.le_def, UInt32.le_iff_toNat_le, Char.toNat_val] at range
  omega

theorem hexDecode_hexEncode (bytes : Bytes) : hexDecode (hexEncode bytes).toList = .ok bytes := by
  have even : (hexDigits bytes).length = 2 * bytes.length := by
    simp [hexDigits, List.length_flatMap, Nat.mul_comm]
  rw [hexEncode, String.toList_ofList, hexDecode, latin_digits fun c => hexDigits_ascii,
    if_neg (by omega), hexPairs_hexDigits]

end WalletDaemon
