import WalletDaemon.Crypto
import WalletDaemon.FileTree
import WalletDaemon.Script
import Mathlib.Data.List.DropRight

/-! Loading and writing the daemon's seed. What is drawn at random by one call,
and the order in which it lists a directory, come with the call. Printing is
left out. -/

namespace WalletDaemon.WalletLoader

open Crypto

abbrev Disk := FileTree Bytes

inductive Panic
  | crypto (panic : Crypto.Panic)
  | encryptedSeed
  | unableToRead
  | unableToReadV1
  | unableToWrite
  | unableToCreateDirectory
  | unableToDelete
  | alreadyExists
  | invalidUri
  | publicKeyMismatch
deriving DecidableEq, Repr

/-- The key pairs of secret URIs, where the text is one and has one. -/
structure SecretUris (K : Type) where
  keypair : String → Option K
  publicKey : K → Bytes

section Grammar

/-- What a phrase is made of; beyond ASCII all is let in. -/
def phraseChar (c : Char) : Bool := c.isAlphanum || c = '_' || c = ' ' || 0x80 ≤ c.toNat

/-- After the phrase come derivation paths and the password. -/
def shaped (secret : String) : Bool :=
  match secret.toList.dropWhile phraseChar with
  | [] => true
  | c :: _ => c = '/'

/-- The public development phrase. -/
def devPhrase : String := "bottom drive obey lake curtain smoke basket hold race lonely fit walk"

/-- What the URI parser takes, and what it makes of a missing phrase. -/
structure SecretUris.Grammar {K : Type} (uris : SecretUris K) : Prop where
  phrase : ∀ secret keypair, uris.keypair secret = some keypair → shaped secret = true
  missing : ∀ password,
    uris.keypair ("///" ++ password) = uris.keypair (devPhrase ++ "///" ++ password)

/-- Key pairs that are the secrets themselves, spelled out. -/
def spelledUris : SecretUris String where
  keypair secret :=
    if shaped secret then
      some (if secret.toList.head? = some '/' then devPhrase ++ secret else secret)
    else none
  publicKey := utf8

theorem spelledUris_grammar : spelledUris.Grammar where
  phrase secret keypair found := by
    by_contra unshaped
    have none_ : spelledUris.keypair secret = none := if_neg unshaped
    rw [none_] at found
    cases found
  missing password := by
    have bare : ("///" ++ password).toList = '/' :: '/' :: '/' :: password.toList := by
      rw [String.toList_append]
      rfl
    have full : (devPhrase ++ ("///" ++ password)).toList =
        devPhrase.toList ++ '/' :: '/' :: '/' :: password.toList := by
      rw [String.toList_append, bare]
    rw [String.append_assoc]
    simp only [spelledUris, shaped, bare, full]
    rfl

end Grammar

structure Draw where
  mnemonic : String
  salt : Salt
  nonce : SealNonce
  listing : List String

def walletSeed : String := "wallet.seed"

def isV1Name (name : String) : Bool :=
  "73723235".toList.isPrefixOf name.toList && (utf8 name).length = 72

/-- `path.extension().is_none()`. -/
def extensionIsNone (path : TreePath) : Bool :=
  match path.getLast? with
  | some name => !(name.toList.drop 1).contains '.'
  | none => true

section Trimming

def isWhitespace (c : Char) : Bool :=
  let n := c.toNat
  (9 ≤ n && n ≤ 13) || n = 0x20 || n = 0x85 || n = 0xA0 || n = 0x1680 ||
    (0x2000 ≤ n && n ≤ 0x200A) || n = 0x2028 || n = 0x2029 || n = 0x202F || n = 0x205F || n = 0x3000

def trimMatches (matches_ : Char → Bool) (text : List Char) : List Char :=
  (text.dropWhile matches_).rdropWhile matches_

def strip (text : List Char) : List Char :=
  trimMatches (· = '\r') (trimMatches (· = '\n') (trimMatches (· = '"')
    (trimMatches isWhitespace text)))

theorem trimMatches_subset (matches_ : Char → Bool) (text : List Char) :
    trimMatches matches_ text ⊆ text := by
  intro c inside
  exact List.dropWhile_subset _ ((List.rdropWhile_prefix _ _).subset inside)

theorem strip_subset (text : List Char) : strip text ⊆ text := by
  intro c inside
  iterate 4 replace inside := trimMatches_subset _ _ inside
  exact inside

end Trimming

section Loader

variable {K : Type} (crates : Crates) (uris : SecretUris K)

/-- The mnemonic of a seed file that is not encrypted. -/
def decryptMnemonic (content : String) : Except Panic String :=
  let stripped := String.ofList (strip content.toList)
  if isEncryptedV2 crates stripped then .error .encryptedSeed else .ok stripped

def keypairOf (secret : String) : Except Panic K :=
  match uris.keypair secret with
  | some keypair => .ok keypair
  | none => .error .invalidUri

/-- The key pair of a seed file with this content. -/
def seedKeys (content : Bytes) (keyPass : String) : Except Panic K :=
  match fromUtf8 content with
  | none => .error .unableToRead
  | some content =>
    match decrypt crates content keyPass with
    | .error panic => .error (.crypto panic)
    | .ok (.ok decrypted) => keypairOf uris decrypted
    | .ok (.error _) =>
      match decryptMnemonic crates content with
      | .error panic => .error panic
      | .ok mnemonic => keypairOf uris (mnemonic ++ "///" ++ keyPass)

variable (draw : Draw)

def encrypted (mnemonic keyPass : String) (imported : Bool) : Except Panic String :=
  (encryptWithImported crates draw.salt draw.nonce mnemonic keyPass imported).mapError .crypto

def finalPath (path : TreePath) : Script Disk Panic TreePath :=
  .branch (fun tree => tree.isDir path) (.done (path ++ [walletSeed]))
    (.branch (fun tree => !tree.present path && extensionIsNone path)
      ((Script.change .unableToCreateDirectory fun tree => tree.createDirAll path).andThen fun _ =>
        .done (path ++ [walletSeed]))
      (.done path))

def writeMnemonic (path : TreePath) (keyPass : String) (mnemonic : Option String)
    (allowOverwrite : Bool) : Script Disk Panic (String × K) :=
  let mnemonic := mnemonic.getD draw.mnemonic
  (Script.ask fun _ => encrypted crates draw mnemonic keyPass false).andThen fun encrypted =>
  (Script.ask fun _ => keypairOf uris mnemonic).andThen fun keypair =>
  (finalPath path).andThen fun finalPath =>
  (Script.change .unableToCreateDirectory fun tree =>
    tree.createDirAll finalPath.dropLast).andThen fun _ =>
  (Script.ask fun tree =>
    if !allowOverwrite && tree.isFile finalPath then .error .alreadyExists
    else .ok ()).andThen fun _ =>
  (Script.change .unableToWrite fun tree => tree.write finalPath (utf8 encrypted)).andThen fun _ =>
  .done (mnemonic, keypair)

def getKeys (path : TreePath) (keyPass : String) : Script Disk Panic K :=
  .branch (fun tree => tree.isFile path)
    (.ask fun tree =>
      match tree.read path with
      | some content => seedKeys crates uris content keyPass
      | none => .error .unableToRead)
    ((writeMnemonic crates uris draw path keyPass none true).andThen fun written =>
      .done written.2)

def loadWallet (seedPath : TreePath) (keyPass : String) : Script Disk Panic K :=
  getKeys crates uris draw seedPath keyPass

/-- The seed file of a directory, and the v1 file to migrate if it is one. -/
def locate (tree : Disk) (seedPath : TreePath) : TreePath × Option TreePath :=
  if tree.present (seedPath ++ [walletSeed]) then (seedPath ++ [walletSeed], none)
  else match draw.listing.find? isV1Name with
    | some name => (seedPath ++ [name], some (seedPath ++ [name]))
    | none => (seedPath ++ [walletSeed], none)

def readV1 (tree : Disk) (path : TreePath) : Except Panic String :=
  match (tree.read path).bind fromUtf8 with
  | some content => .ok content
  | none => .error .unableToReadV1

/-- Rewrite a v1 file as `wallet.seed`, and delete it once both load alike. -/
def migrate (v1Path : TreePath) (keyPass : String) : Script Disk Panic TreePath :=
  let walletSeedPath := v1Path.dropLast ++ [walletSeed]
  (Script.ask fun tree => readV1 tree v1Path).andThen fun v1Content =>
  (Script.ask fun _ => decryptMnemonic crates v1Content).andThen fun mnemonic =>
  (Script.ask fun _ => encrypted crates draw mnemonic keyPass true).andThen fun v2Encrypted =>
  (Script.change .unableToWrite fun tree =>
    tree.write walletSeedPath (utf8 v2Encrypted)).andThen fun _ =>
  (loadWallet crates uris draw walletSeedPath keyPass).andThen fun verifiedKeypair =>
  (loadWallet crates uris draw v1Path keyPass).andThen fun v1Keypair =>
  (Script.ask fun _ =>
    if uris.publicKey verifiedKeypair ≠ uris.publicKey v1Keypair then .error .publicKeyMismatch
    else .ok ()).andThen fun _ =>
  (Script.change .unableToDelete fun tree => tree.remove v1Path).andThen fun _ =>
  .done walletSeedPath

def loadDirectory (seedPath : TreePath) (keyPass : String) : Script Disk Panic K :=
  (Script.ask fun tree => .ok (locate draw tree seedPath)).andThen fun (seedPath, v1MigrationPath) =>
  (Script.branch (fun tree => tree.present seedPath) (.done ())
    ((writeMnemonic crates uris draw seedPath keyPass none true).andThen fun _ =>
      .done ())).andThen fun _ =>
  (match v1MigrationPath with
    | some v1Path => migrate crates uris draw v1Path keyPass
    | none => .done seedPath).andThen fun seedPath =>
  loadWallet crates uris draw seedPath keyPass

def loadSeed (seedPath : TreePath) (keyPass : String) : Script Disk Panic K :=
  .branch (fun tree => !tree.present seedPath || tree.isFile seedPath)
    (loadWallet crates uris draw seedPath keyPass)
    (loadDirectory crates uris draw seedPath keyPass)

variable {crates uris draw} {path : TreePath} {keyPass : String} {tree : Disk}

theorem seedKeys_encrypted (lawful : crates.Lawful) {mnemonic content : String} {imported : Bool}
    (h : encrypted crates draw mnemonic keyPass imported = .ok content) :
    seedKeys crates uris (utf8 content) keyPass =
      keypairOf uris (secretOf mnemonic keyPass imported) := by
  unfold encrypted at h
  cases made : encryptWithImported crates draw.salt draw.nonce mnemonic keyPass imported with
  | error panic =>
    rw [made] at h
    cases h
  | ok text =>
    rw [made] at h
    obtain rfl : text = content := Except.ok.inj h
    simp only [seedKeys, fromUtf8_utf8, decrypt_encrypt lawful made]

theorem seedKeys_open (lawful : crates.Lawful) {text : String} (h : open_ text.toList = true) :
    seedKeys crates uris (utf8 text) keyPass =
      keypairOf uris (String.ofList (strip text.toList) ++ "///" ++ keyPass) := by
  obtain ⟨error, unread⟩ := lawful.fromJson_open h
  have bare : open_ (String.ofList (strip text.toList)).toList = true := by
    rw [String.toList_ofList]
    exact open_of_subset h (strip_subset _)
  obtain ⟨other, unread'⟩ := lawful.fromJson_open bare
  simp only [seedKeys, fromUtf8_utf8, decrypt, unread, decryptMnemonic, isEncryptedV2, unread']
  rfl

theorem loadWallet_file {content : Bytes} (h : tree.node path = some (.file content)) :
    (loadWallet crates uris draw path keyPass).run tree =
      ⟨seedKeys crates uris content keyPass, tree, []⟩ := by
  have file : tree.isFile path = true := FileTree.isFile_iff.mpr ⟨content, h⟩
  simp only [loadWallet, getKeys, Script.branch_run, file, if_true, Script.ask,
    FileTree.read_iff.mpr h]

theorem loadWallet_noFile (h : tree.isFile path = false) :
    (loadWallet crates uris draw path keyPass).run tree =
      ((writeMnemonic crates uris draw path keyPass none true).andThen
        fun written => .done written.2).run tree := by
  simp only [loadWallet, getKeys, Script.branch_run, h, Bool.false_eq_true, if_false]

/-- The file at a path loads to a key pair, whatever is drawn, and stays. -/
def Loads (crates : Crates) (uris : SecretUris K) (keyPass : String) (tree : Disk)
    (path : TreePath) (keypair : K) : Prop :=
  tree.isFile path = true ∧
    ∀ draw, (loadWallet crates uris draw path keyPass).run tree = ⟨.ok keypair, tree, []⟩

theorem Loads.of_content {content : Bytes} {keypair : K} (file : tree.node path = some (.file content))
    (keys : seedKeys crates uris content keyPass = .ok keypair) :
    Loads crates uris keyPass tree path keypair := by
  refine ⟨FileTree.isFile_iff.mpr ⟨content, file⟩, fun draw => ?_⟩
  rw [loadWallet_file file, keys]

theorem Loads.content {keypair : K} (draw : Draw)
    (loads : Loads crates uris keyPass tree path keypair) :
    ∃ content, tree.node path = some (.file content) ∧
      seedKeys crates uris content keyPass = .ok keypair := by
  obtain ⟨content, file⟩ := FileTree.isFile_iff.mp loads.1
  have ran := loads.2 draw
  rw [loadWallet_file file] at ran
  exact ⟨content, file, congrArg Run.value ran⟩

theorem loadSeed_file {content : Bytes} (h : tree.node path = some (.file content)) :
    (loadSeed crates uris draw path keyPass).run tree =
      ⟨seedKeys crates uris content keyPass, tree, []⟩ := by
  have file : tree.isFile path = true := FileTree.isFile_iff.mpr ⟨content, h⟩
  rw [loadSeed, Script.branch_run, file, Bool.or_true, if_pos rfl, loadWallet_file h]

theorem loadSeed_dir (h : tree.node path = some .dir) :
    (loadSeed crates uris draw path keyPass).run tree =
      (loadDirectory crates uris draw path keyPass).run tree := by
  have choice : (!tree.present path || tree.isFile path) = false := by
    rw [FileTree.present_of_node h, FileTree.not_isFile (by simp [h])]
    rfl
  rw [loadSeed, Script.branch_run, choice]
  exact if_neg Bool.false_ne_true

theorem loadDirectory_present {file : TreePath} {v1 : Option TreePath}
    (located : locate draw tree path = (file, v1)) (there : tree.present file = true) :
    (loadDirectory crates uris draw path keyPass).run tree =
      ((match v1 with
        | some v1Path => migrate crates uris draw v1Path keyPass
        | none => .done file).andThen fun file =>
          loadWallet crates uris draw file keyPass).run tree := by
  have found : (Script.ask fun tree => .ok (locate draw tree path) : Script Disk Panic _).run tree =
      ⟨.ok (file, v1), tree, []⟩ := by
    simp only [Script.ask, located]
  rw [loadDirectory, Script.andThen_of_quiet found]
  exact Script.andThen_of_quiet (if_pos there)

theorem loadSeed_present (h : tree.present (path ++ [walletSeed]) = true) :
    (loadSeed crates uris draw path keyPass).run tree =
      (loadWallet crates uris draw (path ++ [walletSeed]) keyPass).run tree := by
  have located : locate draw tree path = (path ++ [walletSeed], none) := if_pos h
  rw [loadSeed_dir (tree.parents path walletSeed h), loadDirectory_present located h]
  exact Script.andThen_of_quiet rfl

theorem loadSeed_walletSeed {content : Bytes}
    (h : tree.node (path ++ [walletSeed]) = some (.file content)) :
    (loadSeed crates uris draw path keyPass).run tree =
      ⟨seedKeys crates uris content keyPass, tree, []⟩ := by
  have there : tree.present (path ++ [walletSeed]) = true := by
    rw [FileTree.present, h]
    rfl
  rw [loadSeed_present there, loadWallet_file h]

def seedFile (tree : Disk) (path : TreePath) : TreePath :=
  if tree.isDir path || (!tree.present path && extensionIsNone path) then path ++ [walletSeed]
  else path

def Keeps (before after : Disk) : Prop :=
  ∀ other, (before.node other).isSome → after.node other = before.node other

theorem Keeps.refl (tree : Disk) : Keeps tree tree := fun _ _ => rfl

theorem Keeps.trans {first second third : Disk} (left : Keeps first second)
    (right : Keeps second third) : Keeps first third := by
  intro other here
  have kept := left other here
  rw [right other (by rwa [kept]), kept]

theorem Keeps.of_createDirAll {before after : Disk} {path : TreePath}
    (h : before.createDirAll path = some after) : Keeps before after :=
  fun _ => FileTree.createDirAll_present h

theorem Keeps.isFile {before after : Disk} (keeps : Keeps before after) {path : TreePath}
    (h : after.isFile path = false) : before.isFile path = false := by
  by_contra file
  obtain ⟨content, here⟩ := FileTree.isFile_iff.mp (by simpa using file)
  have same := keeps path (by rw [here]; rfl)
  rw [FileTree.isFile_iff.mpr ⟨content, same.trans here⟩] at h
  cases h

theorem finalPath_ok {final : TreePath} (h : ((finalPath path).run tree).value = .ok final) :
    final = seedFile tree path ∧ Keeps tree ((finalPath path).run tree).state := by
  unfold finalPath seedFile at *
  cases dir : tree.isDir path with
  | true =>
    simp only [Script.branch_run, dir, if_true, Script.done_run, Bool.true_or] at h ⊢
    exact ⟨(Except.ok.inj h).symm, Keeps.refl tree⟩
  | false =>
    simp only [Script.branch_run, dir, Bool.false_eq_true, if_false, Bool.false_or] at h ⊢
    cases make : !tree.present path && extensionIsNone path with
    | true =>
      simp only [make, if_true] at h ⊢
      obtain ⟨after, made, last, same⟩ := Script.change_andThen_ok h
      rw [same]
      exact ⟨(Except.ok.inj last).symm, Keeps.of_createDirAll made⟩
    | false =>
      simp only [make, Bool.false_eq_true, if_false, Script.done_run] at h ⊢
      exact ⟨(Except.ok.inj h).symm, Keeps.refl tree⟩

structure Written (crates : Crates) (draw : Draw) (tree after : Disk) (file : TreePath)
    (mnemonic keyPass : String) : Prop where
  content : ∃ content, encrypted crates draw mnemonic keyPass false = .ok content ∧
    after.node file = some (.file (utf8 content))
  free : tree.node file ≠ some .dir
  kept : ∀ other, other ≠ file → (tree.node other).isSome → after.node other = tree.node other

theorem writeMnemonic_ok {mnemonic : Option String} {allowOverwrite : Bool} {written : String × K}
    (h : ((writeMnemonic crates uris draw path keyPass mnemonic allowOverwrite).run tree).value =
      .ok written) :
    written.1 = mnemonic.getD draw.mnemonic ∧ keypairOf uris written.1 = .ok written.2 ∧
      (allowOverwrite = false → tree.isFile (seedFile tree path) = false) ∧
      Written crates draw tree
        ((writeMnemonic crates uris draw path keyPass mnemonic allowOverwrite).run tree).state
        (seedFile tree path) written.1 keyPass := by
  unfold writeMnemonic at h ⊢
  obtain ⟨content, sealed_, h, same⟩ := Script.ask_andThen_ok h
  rw [same]
  clear same
  obtain ⟨keypair, key, h, same⟩ := Script.ask_andThen_ok h
  rw [same]
  clear same
  obtain ⟨final, placed, h, same⟩ := Script.andThen_value_ok h
  rw [same]
  clear same
  obtain ⟨rfl, kept⟩ := finalPath_ok placed
  obtain ⟨parent, made, h, same⟩ := Script.change_andThen_ok h
  rw [same]
  clear same
  have kept := kept.trans (Keeps.of_createDirAll made)
  obtain ⟨_, fresh, h, same⟩ := Script.ask_andThen_ok h
  rw [same]
  clear same
  obtain ⟨after, put, h, same⟩ := Script.change_andThen_ok h
  rw [same]
  obtain rfl := Except.ok.inj h
  refine ⟨rfl, key, ?_, ⟨content, sealed_, ?_⟩, ?_, ?_⟩
  · rintro rfl
    apply kept.isFile
    by_contra file
    simp [file] at fresh
  · exact FileTree.read_iff.mp (FileTree.read_write put)
  · intro dir
    have still := kept _ (by rw [dir]; rfl)
    exact (FileTree.write_ok put).1 (still.trans dir)
  · intro other apart here
    rw [Script.done_run, FileTree.write_other put apart, kept other here]

end Loader

end WalletDaemon.WalletLoader
