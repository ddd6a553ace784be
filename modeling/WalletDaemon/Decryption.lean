import WalletDaemon.Crypto

/-! What `decrypt` does with any text. All the parts of an envelope are checked
before the cipher is asked, the lengths of the salt and of the nonce excepted. -/

namespace WalletDaemon.Crypto

section Parts

variable (crates : Crates)

structure Parts where
  salt : Bytes
  nonce : Bytes
  ciphertext : Bytes
  imported : Bool

/-- The text is a version 2 envelope whose parts decode. -/
def Holds (text : String) (parts : Parts) : Prop :=
  ∃ encrypted salt nonce, crates.fromJson text = .ok encrypted ∧
    encrypted.version = 2 ∧ encrypted.salt = some salt ∧ encrypted.nonce = some nonce ∧
    hexDecode encrypted.data.toList = .ok parts.ciphertext ∧
    hexDecode salt.toList = .ok parts.salt ∧ hexDecode nonce.toList = .ok parts.nonce ∧
    encrypted.imported.getD false = parts.imported

structure CipherInput where
  key : Bytes
  nonce : Bytes
  ciphertext : Bytes
  imported : Bool

/-- The text's parts decode, and its key derives. -/
def Decodes (text password : String) (input : CipherInput) : Prop :=
  ∃ salt, Holds crates text ⟨salt, input.nonce, input.ciphertext, input.imported⟩ ∧
    deriveKey crates password salt = .ok (.ok input.key)

def Authenticates (input : CipherInput) (plaintext : String) : Prop :=
  input.nonce.length = nonceLen ∧
    crates.aesDecrypt input.key input.nonce input.ciphertext = some (utf8 plaintext)

/-- `decrypt` returns, and only ever returns what the text was sealed from. -/
def DecryptsExactly (text password : String) : Prop :=
  (∃ result, decrypt crates text password = .ok result) ∧
    ∀ secret, decrypt crates text password = .ok (.ok secret) →
      ∃ input plaintext, Decodes crates text password input ∧
        Authenticates crates input plaintext ∧
        secret = secretOf plaintext password input.imported

variable {crates}

theorem decrypt_refuses {text : String} (h : ¬ ∃ parts, Holds crates text parts)
    (password : String) : ∃ error, decrypt crates text password = .ok (.error error) := by
  unfold decrypt
  cases read : crates.fromJson text with
  | error e => exact ⟨_, rfl⟩
  | ok encrypted =>
    dsimp only
    split
    · exact ⟨_, rfl⟩
    split
    · rename_i version
      unfold decryptV2
      split
      · exact ⟨_, rfl⟩
      · exact ⟨_, rfl⟩
      rename_i salt nonce salted nonced
      split
      · exact ⟨_, rfl⟩
      · exact ⟨_, rfl⟩
      · exact ⟨_, rfl⟩
      rename_i ciphertext saltBytes nonceBytes data saltRead nonceRead
      exact absurd ⟨⟨saltBytes, nonceBytes, ciphertext, _⟩, encrypted, salt, nonce, read,
        version, salted, nonced, data, saltRead, nonceRead, rfl⟩ h
    · exact ⟨_, rfl⟩

theorem decrypt_holds {text : String} {parts : Parts} (h : Holds crates text parts)
    (password : String) :
    decrypt crates text password =
      match deriveKey crates password parts.salt with
      | .error panic => .error panic
      | .ok (.error e) => .ok (.error e)
      | .ok (.ok key) =>
        if parts.nonce.length ≠ nonceLen then .error .nonceLength
        else match crates.aesDecrypt key parts.nonce parts.ciphertext with
          | none => .ok (.error "Decryption failed - wrong password?")
          | some plaintext =>
            match fromUtf8 plaintext with
            | none => .ok (.error ("Invalid UTF-8: " ++ crates.utf8ErrorText plaintext))
            | some result => .ok (.ok (secretOf result password parts.imported)) := by
  obtain ⟨encrypted, salt, nonce, read, version, salted, nonced, data, saltRead, nonceRead,
    imported⟩ := h
  unfold decrypt decryptV2
  simp only [read, version, salted, nonced, data, saltRead, nonceRead, imported]
  rfl

/-- A salt of two bytes is three characters of base64. -/
theorem deriveKey_panics_iff (encodes : crates.EncodesSalts) (password : String) (salt : Bytes) :
    (∃ panic, deriveKey crates password salt = .error panic) ↔ salt.length < 3 := by
  have encoded := encodes salt
  unfold deriveKey
  cases text : crates.saltString salt with
  | error e =>
    rw [text] at encoded
    simp only [maxSaltLength, base64Length] at encoded
    exact iff_of_false (by simp) (by omega)
  | ok saltString =>
    rw [text] at encoded
    simp only [base64Length] at encoded
    dsimp only
    by_cases short : saltString.length < minSaltLength
    · rw [if_pos short]
      simp only [minSaltLength] at short
      exact iff_of_true ⟨_, rfl⟩ (by omega)
    · rw [if_neg short]
      simp only [minSaltLength] at short
      refine iff_of_false ?_ (by omega)
      rintro ⟨panic, failed⟩
      split at failed <;> cases failed

/-- It panics on a salt that is too short, or on a nonce of another length, only. -/
theorem decrypt_returns_iff (encodes : crates.EncodesSalts) (text password : String) :
    (∃ result, decrypt crates text password = .ok result) ↔
      ∀ parts, Holds crates text parts → 3 ≤ parts.salt.length ∧
        ∀ key, deriveKey crates password parts.salt = .ok (.ok key) →
          parts.nonce.length = nonceLen := by
  constructor
  · rintro ⟨result, returned⟩ parts holds
    rw [decrypt_holds holds] at returned
    refine ⟨?_, fun key derived => ?_⟩
    · by_contra short
      obtain ⟨panic, failed⟩ := (deriveKey_panics_iff encodes password parts.salt).mpr (by omega)
      rw [failed] at returned
      cases returned
    · by_contra other
      rw [derived] at returned
      dsimp only at returned
      rw [if_pos other] at returned
      cases returned
  · intro fits
    by_cases holds : ∃ parts, Holds crates text parts
    · obtain ⟨parts, holds⟩ := holds
      obtain ⟨long, nonce⟩ := fits parts holds
      rw [decrypt_holds holds]
      cases derived : deriveKey crates password parts.salt with
      | error panic =>
        have short := (deriveKey_panics_iff encodes password parts.salt).mp ⟨panic, derived⟩
        omega
      | ok result =>
        cases result with
        | error e => exact ⟨_, rfl⟩
        | ok key =>
          dsimp only
          rw [if_neg (not_not.mpr (nonce key derived))]
          split
          · exact ⟨_, rfl⟩
          · split <;> exact ⟨_, rfl⟩
    · obtain ⟨error, refused⟩ := decrypt_refuses holds password
      exact ⟨_, refused⟩

theorem decrypt_ok {text password secret : String}
    (h : decrypt crates text password = .ok (.ok secret)) :
    ∃ input plaintext, Decodes crates text password input ∧
      Authenticates crates input plaintext ∧
      secret = secretOf plaintext password input.imported := by
  by_cases holds : ∃ parts, Holds crates text parts
  · obtain ⟨parts, holds⟩ := holds
    rw [decrypt_holds holds] at h
    split at h
    · cases h
    · cases h
    rename_i key derived
    split at h
    · cases h
    rename_i length
    split at h
    · cases h
    rename_i plaintext opened
    split at h
    · cases h
    rename_i result valid
    refine ⟨⟨key, parts.nonce, parts.ciphertext, parts.imported⟩, result, ⟨parts.salt, holds,
      derived⟩, ⟨not_not.mp length, ?_⟩, ?_⟩
    · rw [opened, utf8_of_fromUtf8 valid]
    · exact (Except.ok.inj (Except.ok.inj h)).symm
  · obtain ⟨error, refused⟩ := decrypt_refuses holds password
    rw [refused] at h
    cases h

/-- Decryption is total and exact but for a salt that is too short and a nonce of
another length, in an envelope that decodes. -/
theorem decrypt_exact_iff {crates : Crates} (lawful : crates.Lawful)
    (encodes : crates.EncodesSalts) :
    (∀ text password, DecryptsExactly crates text password ↔
      ∀ parts, Holds crates text parts → 3 ≤ parts.salt.length ∧
        ∀ key, deriveKey crates password parts.salt = .ok (.ok key) →
          parts.nonce.length = nonceLen) ∧
    ∀ (salt : Salt) (nonce : SealNonce) plaintext password imported content,
      encryptWithImported crates salt nonce plaintext password imported = .ok content →
        decrypt crates content password = .ok (.ok (secretOf plaintext password imported)) := by
  constructor
  · intro text password
    rw [← decrypt_returns_iff encodes]
    exact and_iff_left fun secret opened => decrypt_ok opened
  · intro salt nonce plaintext password imported content sealed_
    exact decrypt_encrypt lawful sealed_

theorem decrypt_exact_clearCrates :
    clearCrates.Lawful ∧ clearCrates.EncodesSalts ∧
      ∀ text password, DecryptsExactly clearCrates text password ↔
        ∀ parts, Holds clearCrates text parts → 3 ≤ parts.salt.length ∧
          ∀ key, deriveKey clearCrates password parts.salt = .ok (.ok key) →
            parts.nonce.length = nonceLen :=
  ⟨clearCrates_lawful, clearCrates_encodesSalts,
    (decrypt_exact_iff clearCrates_lawful clearCrates_encodesSalts).1⟩

def shortNonce : EncryptedData := envelope (List.replicate saltLen 0) [7] [] false

theorem decrypt_panics : ¬ DecryptsExactly clearCrates shortNonce.toJson "pass" := by
  intro exactly
  have read : clearCrates.fromJson shortNonce.toJson = .ok shortNonce := by
    rw [clearCrates_fromJson, shortNonce, readEnvelope_toJson]
  have derived : ∃ key, deriveKey clearCrates "pass" (List.replicate saltLen 0) = .ok (.ok key) :=
    ⟨_, rfl⟩
  obtain ⟨key, derived⟩ := derived
  have holds : Holds clearCrates shortNonce.toJson ⟨List.replicate saltLen 0, [7], [], false⟩ :=
    ⟨shortNonce, hexEncode (List.replicate saltLen 0), hexEncode [7], read, rfl, rfl, rfl,
      hexDecode_hexEncode [], hexDecode_hexEncode _, hexDecode_hexEncode [7], rfl⟩
  obtain ⟨-, nonce⟩ := (decrypt_returns_iff clearCrates_encodesSalts _ _).mp exactly.1 _ holds
  have length := nonce key derived
  simp [nonceLen] at length

end Parts

end WalletDaemon.Crypto
