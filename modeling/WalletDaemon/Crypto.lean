import WalletDaemon.Text
import Mathlib.Data.List.DropRight

/-! The encrypted form of a seed: a JSON envelope around a ciphertext.
Argon2, AES-GCM and the JSON reader are other crates', and left open. -/

namespace WalletDaemon.Crypto

def saltLen : Nat := 16

def nonceLen : Nat := 12

def keyLen : Nat := 32

/-- `Salt::MIN_LENGTH`, in characters. -/
def minSaltLength : Nat := 4

abbrev Salt := { bytes : Bytes // bytes.length = saltLen }

abbrev SealNonce := { bytes : Bytes // bytes.length = nonceLen }

structure EncryptedData where
  version : Nat
  salt : Option String
  nonce : Option String
  data : String
  /-- Imported from v1, which appends the password. -/
  imported : Option Bool
deriving DecidableEq, Repr

inductive Panic
  | keyDerivation (error : String)
  | encryption
  | saltLength
  | nonceLength
deriving DecidableEq, Repr

/-- What the other crates do. -/
structure Crates where
  saltString : Bytes → Except String String
  argon2 : (password : Bytes) → (salt : String) → Except String (Option Bytes)
  aesEncrypt : (key nonce plaintext : Bytes) → Option Bytes
  aesDecrypt : (key nonce ciphertext : Bytes) → Option Bytes
  fromJson : String → Except String EncryptedData
  utf8ErrorText : Bytes → String

section Envelope

/-- Only field names and hex are quoted, which need no escapes. -/
def quoted (text : String) : List Char := '"' :: (text.toList ++ ['"'])

def stringField (name value : String) : List Char := ',' :: (quoted name ++ ':' :: quoted value)

def optionalField (name : String) : Option String → List Char
  | some value => stringField name value
  | none => []

def EncryptedData.fields (encrypted : EncryptedData) : List Char :=
  quoted "version" ++ ':' :: (toString encrypted.version).toList ++
    optionalField "salt" encrypted.salt ++ optionalField "nonce" encrypted.nonce ++
    stringField "data" encrypted.data ++
    match encrypted.imported with
    | some imported => ',' :: (quoted "imported" ++ ':' :: (toString imported).toList)
    | none => []

/-- `serde_json::to_string`; absent fields are skipped. -/
def EncryptedData.toJson (encrypted : EncryptedData) : String :=
  String.ofList ('\x7b' :: (encrypted.fields ++ ['\x7d']))

/-- The envelope that `encrypt_with_imported` writes. -/
def envelope (salt nonce ciphertext : Bytes) (imported : Bool) : EncryptedData where
  version := 2
  salt := some (hexEncode salt)
  nonce := some (hexEncode nonce)
  data := hexEncode ciphertext
  imported := some imported

def jsonSpace (c : Char) : Bool := c = ' ' || c = '\t' || c = '\n' || c = '\r'

/-- A struct is read from an object or from an array of its fields. -/
def Bracketed (body : List Char) : Prop :=
  body.head? = some '\x7b' ∧ body.getLast? = some '\x7d' ∨
    body.head? = some '[' ∧ body.getLast? = some ']'

/-- What the loader relies on: decryption inverts encryption, the JSON reader
reads back what is written, and reads one bracketed value amid blanks. -/
structure Crates.Lawful (crates : Crates) : Prop where
  opens : ∀ key nonce plaintext ciphertext,
    crates.aesEncrypt key nonce plaintext = some ciphertext →
      crates.aesDecrypt key nonce ciphertext = some plaintext
  readsBack : ∀ salt nonce ciphertext imported,
    crates.fromJson (envelope salt nonce ciphertext imported).toJson =
      .ok (envelope salt nonce ciphertext imported)
  bracketed : ∀ text encrypted, crates.fromJson text = .ok encrypted →
    ∃ before body after, text.toList = before ++ body ++ after ∧
      (∀ c ∈ before, jsonSpace c) ∧ (∀ c ∈ after, jsonSpace c) ∧ Bracketed body ∧
      crates.fromJson (String.ofList body) = .ok encrypted

/-- `Salt::MAX_LENGTH`, in characters. -/
def maxSaltLength : Nat := 64

/-- The characters of unpadded base64. -/
def base64Length (bytes : Nat) : Nat := (4 * bytes + 2) / 3

/-- A salt string is the salt in unpadded base64, unless that is too long. -/
def Crates.EncodesSalts (crates : Crates) : Prop :=
  ∀ salt, match crates.saltString salt with
    | .ok text => text.length = base64Length salt.length
    | .error _ => maxSaltLength < base64Length salt.length

end Envelope

section Encryption

variable (crates : Crates)

/-- `hash_password` expects its salt string to be a salt. -/
def deriveKey (password : String) (salt : Bytes) : Except Panic (Except String Bytes) :=
  match crates.saltString salt with
  | .error e => .ok (.error ("Invalid salt: " ++ e))
  | .ok saltString =>
    if saltString.length < minSaltLength then .error .saltLength
    else match crates.argon2 (utf8 password) saltString with
      | .error e => .ok (.error ("Hash failed: " ++ e))
      | .ok none => .ok (.error "No hash output")
      | .ok (some hash) =>
        .ok (.ok (hash.take keyLen ++ List.replicate (keyLen - (hash.take keyLen).length) 0))

/-- `encrypt` is this with `imported` false. -/
def encryptWithImported (salt : Salt) (nonce : SealNonce) (plaintext password : String)
    (imported : Bool) : Except Panic String :=
  match deriveKey crates password salt.1 with
  | .error panic => .error panic
  | .ok (.error e) => .error (.keyDerivation e)
  | .ok (.ok key) =>
    match crates.aesEncrypt key nonce.1 (utf8 plaintext) with
    | none => .error .encryption
    | some ciphertext => .ok (envelope salt.1 nonce.1 ciphertext imported).toJson

/-- A salt or a nonce of a wrong length panics, where all else is an error. -/
def decryptV2 (encrypted : EncryptedData) (password : String) :
    Except Panic (Except String String) :=
  match encrypted.salt, encrypted.nonce with
  | none, _ => .ok (.error "Missing salt")
  | some _, none => .ok (.error "Missing nonce")
  | some salt, some nonce =>
    match hexDecode encrypted.data.toList, hexDecode salt.toList, hexDecode nonce.toList with
    | .error e, _, _ => .ok (.error ("Invalid hex: " ++ e.toText))
    | .ok _, .error e, _ => .ok (.error ("Invalid salt hex: " ++ e.toText))
    | .ok _, .ok _, .error e => .ok (.error ("Invalid nonce hex: " ++ e.toText))
    | .ok ciphertext, .ok saltBytes, .ok nonceBytes =>
      match deriveKey crates password saltBytes with
      | .error panic => .error panic
      | .ok (.error e) => .ok (.error e)
      | .ok (.ok key) =>
        if nonceBytes.length ≠ nonceLen then .error .nonceLength
        else match crates.aesDecrypt key nonceBytes ciphertext with
          | none => .ok (.error "Decryption failed - wrong password?")
          | some plaintext =>
            match fromUtf8 plaintext with
            | none => .ok (.error ("Invalid UTF-8: " ++ crates.utf8ErrorText plaintext))
            | some result =>
              .ok (.ok (if encrypted.imported.getD false then result ++ "///" ++ password
                else result))

def decrypt (encryptedJson password : String) : Except Panic (Except String String) :=
  match crates.fromJson encryptedJson with
  | .error e => .ok (.error ("Invalid JSON: " ++ e))
  | .ok encrypted =>
    if encrypted.version = 1 then
      .ok (.error "V1 format detected - plain text migration not supported")
    else if encrypted.version = 2 then decryptV2 crates encrypted password
    else .ok (.error ("Unknown version: " ++ toString encrypted.version))

def isEncryptedV2 (text : String) : Bool :=
  match crates.fromJson text with
  | .ok encrypted => encrypted.version = 2
  | .error _ => false

variable {crates}

def secretOf (plaintext password : String) (imported : Bool) : String :=
  if imported then plaintext ++ "///" ++ password else plaintext

theorem decrypt_encrypt (lawful : crates.Lawful) {salt : Salt} {nonce : SealNonce}
    {plaintext password content : String} {imported : Bool}
    (h : encryptWithImported crates salt nonce plaintext password imported = .ok content) :
    decrypt crates content password = .ok (.ok (secretOf plaintext password imported)) := by
  unfold encryptWithImported at h
  split at h
  · cases h
  · cases h
  rename_i key derived
  split at h
  · cases h
  rename_i ciphertext sealed_
  have opened := lawful.opens _ _ _ _ sealed_
  rw [← Except.ok.inj h]
  unfold decrypt
  rw [lawful.readsBack]
  simp only [envelope, decryptV2, hexDecode_hexEncode, derived, opened, fromUtf8_utf8, nonce.2,
    secretOf]
  rfl

theorem isEncryptedV2_of_decrypt {text password secret : String}
    (h : decrypt crates text password = .ok (.ok secret)) : isEncryptedV2 crates text = true := by
  unfold decrypt at h
  unfold isEncryptedV2
  split at h
  · cases h
  rename_i encrypted read
  rw [read]
  split at h
  · cases h
  split at h
  · rename_i version
    simpa using version
  · cases h

end Encryption

section Truncation

/-- No closing bracket is among the characters. -/
def open_ (text : List Char) : Bool := text.all fun c => c ≠ '\x7d' && c ≠ ']'

theorem open_append {front back : List Char} (left : open_ front = true)
    (right : open_ back = true) : open_ (front ++ back) = true := by
  rw [open_, List.all_append, Bool.and_eq_true]
  exact ⟨left, right⟩

theorem open_hex (bytes : Bytes) : open_ (hexEncode bytes).toList = true := by
  rw [hexEncode, String.toList_ofList, open_, List.all_eq_true]
  intro c digit
  have range := hexDigits_range digit
  have brace : c ≠ '\x7d' := by
    rintro rfl
    exact absurd range (by decide)
  have bracket : c ≠ ']' := by
    rintro rfl
    exact absurd range (by decide)
  simp [brace, bracket]

theorem open_cons {c : Char} {rest : List Char} (first : open_ [c] = true)
    (later : open_ rest = true) : open_ (c :: rest) = true := open_append first later

theorem open_quoted {text : String} (h : open_ text.toList = true) :
    open_ (quoted text) = true := open_cons rfl (open_append h rfl)

theorem open_fields (salt nonce ciphertext : Bytes) (imported : Bool) :
    open_ (envelope salt nonce ciphertext imported).fields = true := by
  have field : ∀ name bytes, open_ name.toList = true →
      open_ (stringField name (hexEncode bytes)) = true := fun name bytes named =>
    open_cons rfl (open_append (open_quoted named) (open_cons rfl (open_quoted (open_hex bytes))))
  have version : open_ (quoted "version" ++ ':' :: (toString 2).toList) = true := by decide
  have flag : open_ (',' :: (quoted "imported" ++ ':' :: (toString imported).toList)) = true := by
    cases imported <;> rfl
  refine open_append (open_append (open_append (open_append version ?_) ?_) ?_) flag
  · exact field "salt" salt rfl
  · exact field "nonce" nonce rfl
  · exact field "data" ciphertext rfl

theorem open_of_subset {part whole : List Char} (h : open_ whole = true) (within : part ⊆ whole) :
    open_ part = true := by
  rw [open_, List.all_eq_true] at *
  exact fun c inside => h c (within inside)

theorem Crates.Lawful.fromJson_open {crates : Crates} (lawful : crates.Lawful) {text : String}
    (h : open_ text.toList = true) : ∃ error, crates.fromJson text = .error error := by
  cases read : crates.fromJson text with
  | error e => exact ⟨e, rfl⟩
  | ok encrypted =>
    obtain ⟨before, body, after, same, -, -, bracketed, -⟩ := lawful.bracketed text encrypted read
    have last : ∃ c ∈ body, c = '\x7d' ∨ c = ']' := by
      rcases bracketed with ⟨-, last⟩ | ⟨-, last⟩
      · exact ⟨_, List.mem_of_getLast? last, .inl rfl⟩
      · exact ⟨_, List.mem_of_getLast? last, .inr rfl⟩
    obtain ⟨c, inside, closing⟩ := last
    have free := List.all_eq_true.mp h c (by simp [same, inside])
    rcases closing with rfl | rfl <;> simp at free

end Truncation

section Clear

/-- Reads the envelopes that are written, and no other text. -/
def readEnvelope (text : String) : Except String EncryptedData :=
  let pieces := text.toList.splitOn '"'
  let piece n := String.ofList (pieces.getD n [])
  let encrypted : EncryptedData := {
    version := 2
    salt := some (piece 5)
    nonce := some (piece 9)
    data := piece 13
    imported := some (decide (pieces.getD 16 [] = ":true\x7d".toList)) }
  if encrypted.toJson = text then .ok encrypted else .error "not an envelope"

def base64Digit (n : Nat) : Char :=
  "ABCDEFGHIJKLMNOPQRSTUVWXYZabcdefghijklmnopqrstuvwxyz0123456789+/".toList.getD n 'A'

def base64Digits : Bytes → List Char
  | [] => []
  | [a] => [base64Digit (a.toNat / 4), base64Digit (a.toNat % 4 * 16)]
  | [a, b] => [base64Digit (a.toNat / 4), base64Digit (a.toNat % 4 * 16 + b.toNat / 16),
      base64Digit (b.toNat % 16 * 4)]
  | a :: b :: c :: rest =>
    base64Digit (a.toNat / 4) :: base64Digit (a.toNat % 4 * 16 + b.toNat / 16) ::
      base64Digit (b.toNat % 16 * 4 + c.toNat / 64) :: base64Digit (c.toNat % 64) ::
        base64Digits rest

theorem base64Digits_length (bytes : Bytes) :
    (base64Digits bytes).length = base64Length bytes.length := by
  unfold base64Length
  induction bytes using base64Digits.induct with
  | case1 => rfl
  | case2 => simp [base64Digits]
  | case3 => simp [base64Digits]
  | case4 a b c rest ih =>
    simp only [base64Digits, List.length_cons, ih]
    omega

/-- Crates that are lawful: the password is the key, and the key is the tag. -/
def clearCrates : Crates where
  saltString salt :=
    if base64Length salt.length ≤ maxSaltLength then .ok (String.ofList (base64Digits salt))
    else .error "salt too long"
  argon2 password _ := .ok (some password)
  aesEncrypt key _ plaintext := some (plaintext ++ key)
  aesDecrypt key _ ciphertext :=
    if key.isSuffixOf ciphertext then some (ciphertext.rdrop key.length) else none
  fromJson := readEnvelope
  utf8ErrorText _ := "invalid utf-8 sequence"

theorem hexDigits_quoteless (bytes : Bytes) : '"' ∉ hexDigits bytes := by
  intro digit
  exact absurd (hexDigits_range digit) (by decide)

def envelopePieces (salt nonce ciphertext : Bytes) (imported : Bool) : List (List Char) :=
  [['\x7b'], "version".toList, ":2,".toList, "salt".toList, ":".toList, hexDigits salt, ",".toList,
    "nonce".toList, ":".toList, hexDigits nonce, ",".toList, "data".toList, ":".toList,
    hexDigits ciphertext, ",".toList, "imported".toList,
    ':' :: ((toString imported).toList ++ ['\x7d'])]

theorem envelope_split (salt nonce ciphertext : Bytes) (imported : Bool) :
    (envelope salt nonce ciphertext imported).toJson.toList.splitOn '"' =
      envelopePieces salt nonce ciphertext imported := by
  have spelled : (envelope salt nonce ciphertext imported).toJson.toList =
      ['"'].intercalate (envelopePieces salt nonce ciphertext imported) := by
    simp only [EncryptedData.toJson, EncryptedData.fields, envelope, optionalField, stringField,
      quoted, hexEncode, String.toList_ofList, List.append_assoc, List.cons_append, envelopePieces,
      List.intercalate, List.intersperse, List.flatten, List.nil_append, List.append_eq,
      List.append_nil]
    rfl
  have quoteless : ∀ piece ∈ envelopePieces salt nonce ciphertext imported, '"' ∉ piece := by
    simp only [envelopePieces, List.forall_mem_cons, hexDigits_quoteless, not_false_eq_true,
      true_and]
    cases imported <;> decide
  rw [spelled, List.splitOn_intercalate '"' quoteless (by simp [envelopePieces])]

theorem true_flag (imported : Bool) :
    decide (':' :: ((toString imported).toList ++ ['\x7d']) = ":true\x7d".toList) = imported := by
  cases imported <;> decide

theorem readEnvelope_toJson (salt nonce ciphertext : Bytes) (imported : Bool) :
    readEnvelope (envelope salt nonce ciphertext imported).toJson =
      .ok (envelope salt nonce ciphertext imported) := by
  unfold readEnvelope
  rw [envelope_split]
  simp only [envelopePieces, List.getD_cons_succ, List.getD_cons_zero, true_flag]
  exact if_pos rfl

theorem readEnvelope_ok {text : String} {encrypted : EncryptedData}
    (h : readEnvelope text = .ok encrypted) : encrypted.toJson = text := by
  unfold readEnvelope at h
  extract_lets pieces piece read at h
  by_cases same : read.toJson = text
  · rw [if_pos same] at h
    rw [← Except.ok.inj h, same]
  · rw [if_neg same] at h
    cases h

theorem clearCrates_fromJson (text : String) : clearCrates.fromJson text = readEnvelope text := by
  simp only [clearCrates]

theorem clearCrates_lawful : clearCrates.Lawful where
  opens key nonce plaintext ciphertext sealed_ := by
    rw [← Option.some.inj sealed_]
    simp [clearCrates, List.rdrop_append_length]
  readsBack salt nonce ciphertext imported := by
    rw [clearCrates_fromJson, readEnvelope_toJson]
  bracketed text encrypted read := by
    rw [clearCrates_fromJson] at read
    have spelled : text.toList = '\x7b' :: (encrypted.fields ++ ['\x7d']) := by
      rw [← readEnvelope_ok read, EncryptedData.toJson, String.toList_ofList]
    refine ⟨[], text.toList, [], by simp, by simp, by simp, .inl ⟨?_, ?_⟩, ?_⟩
    · rw [spelled, List.head?_cons]
    · rw [spelled, ← List.cons_append, List.getLast?_concat]
    · rw [String.ofList_toList, clearCrates_fromJson, read]

theorem clearCrates_encodesSalts : clearCrates.EncodesSalts := by
  intro salt
  by_cases fits : base64Length salt.length ≤ maxSaltLength
  · simp only [clearCrates, if_pos fits]
    rw [String.length_ofList, base64Digits_length]
  · simp only [clearCrates, if_neg fits]
    omega

theorem clearCrates_encrypts (salt : Salt) (nonce : SealNonce) (plaintext password : String)
    (imported : Bool) : ∃ content,
    encryptWithImported clearCrates salt nonce plaintext password imported = .ok content := by
  have length : (base64Digits salt.1).length = 22 := by
    rw [base64Digits_length, salt.2]
    rfl
  have fits : base64Length salt.1.length ≤ maxSaltLength := by
    rw [salt.2]
    decide
  have long : ¬ (String.ofList (base64Digits salt.1)).length < minSaltLength := by
    rw [String.length_ofList, length]
    decide
  simp only [encryptWithImported, deriveKey, clearCrates, if_pos fits, if_neg long]
  exact ⟨_, rfl⟩

end Clear

end WalletDaemon.Crypto
