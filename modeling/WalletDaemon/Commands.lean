import WalletDaemon.SeedIdentity

/-! The commands of the program: where the seed is looked for, what is written and what is
printed. What was printed before a panic, the prompt and the log are left out. -/

namespace WalletDaemon

namespace Script

variable {σ ε α β γ : Type}

def mapError (f : ε → γ) (script : Script σ ε α) : Script σ γ α := ⟨fun s =>
  let ran := script.run s
  ⟨ran.value.mapError f, ran.state, ran.trail⟩⟩

def map (f : α → β) (script : Script σ ε α) : Script σ ε β := ⟨fun s =>
  let ran := script.run s
  ⟨ran.value.map f, ran.state, ran.trail⟩⟩

theorem map_andThen (f : β → γ) (first : Script σ ε α) (next : α → Script σ ε β) :
    (first.andThen next).map f = first.andThen fun a => (next a).map f := by
  refine congrArg Script.mk (funext fun s => ?_)
  change ((first.andThen next).map f).run s = (first.andThen fun a => (next a).map f).run s
  cases value : (first.run s).value with
  | error e => simp only [map, andThen_of_error value, Except.map]
  | ok a => simp only [map, andThen_of_ok value]

theorem map_branch (f : α → β) (test : σ → Bool) (yes no : Script σ ε α) :
    (branch test yes no).map f = branch test (yes.map f) (no.map f) := by
  refine congrArg Script.mk (funext fun s => ?_)
  change ((branch test yes no).map f).run s = (branch test (yes.map f) (no.map f)).run s
  simp only [map, branch_run]
  split <;> rfl

theorem andThen_done (script : Script σ ε α) (f : α → β) :
    (script.andThen fun a => done (f a)) = script.map f := by
  refine congrArg Script.mk (funext fun s => ?_)
  change (script.andThen fun a => done (f a)).run s = (script.map f).run s
  cases value : (script.run s).value with
  | error e => simp only [map, andThen_of_error value, value, Except.map]
  | ok a => simp [map, andThen_of_ok value, value, Except.map]

theorem mapError_error {f : ε → γ} {script : Script σ ε α} {s : σ} {e : γ}
    (h : ((script.mapError f).run s).value = .error e) :
    ∃ cause, (script.run s).value = .error cause ∧ f cause = e := by
  unfold mapError at h
  cases value : (script.run s).value with
  | error cause =>
    simp only [value] at h
    exact ⟨cause, rfl, Except.error.inj h⟩
  | ok a =>
    simp only [value] at h
    cases h

theorem mapError_ok {f : ε → γ} {script : Script σ ε α} {s : σ} {a : α}
    (h : ((script.mapError f).run s).value = .ok a) :
    (script.run s).value = .ok a ∧ ((script.mapError f).run s).state = (script.run s).state := by
  unfold mapError at h ⊢
  cases value : (script.run s).value with
  | error e =>
    simp only [value] at h
    cases h
  | ok b =>
    simp only [value] at h
    exact ⟨congrArg Except.ok (Except.ok.inj h), rfl⟩

end Script

namespace Commands

open Crypto WalletLoader

inductive PrintKind
  | normal
  | nothing
  | seed
deriving DecidableEq, Repr

structure Shown where
  stdout : List String
  stderr : List String
deriving DecidableEq, Repr

/-- The program's version, and the addresses of an SS58 format. -/
structure Labels where
  version : String
  ss58 : Nat → Bytes → String

def Labels.wallet (labels : Labels) (publicKey : Bytes) : PrintKind → Shown
  | .normal => {
      stdout := [
        "******************* Enjin Wallet Daemon v" ++ labels.version ++ " *******************",
        "** Enjin Relaychain   (SS58): " ++ labels.ss58 2135 publicKey,
        "** Enjin Matrixchain  (SS58): " ++ labels.ss58 1110 publicKey,
        "** Canary Relaychain  (SS58): " ++ labels.ss58 69 publicKey,
        "** Canary Matrixchain (SS58): " ++ labels.ss58 9030 publicKey,
        "** Public Key          (Hex): 0x" ++ hexEncode publicKey]
      stderr := [] }
  | .nothing => ⟨[], []⟩
  | .seed => {
      stdout := []
      stderr := [
        "** Enjin Matrixchain  (SS58): " ++ labels.ss58 1110 publicKey,
        "** Public Key          (Hex): 0x" ++ hexEncode publicKey] }

def Labels.imported (labels : Labels) (publicKey : Bytes) : Shown where
  stdout := [
    "Enjin Platform - Import Wallet",
    "* Enjin Matrixchain  (SS58): " ++ labels.ss58 1110 publicKey,
    "* Canary Matrixchain (SS58): " ++ labels.ss58 9030 publicKey,
    "* Public Key          (Hex): 0x" ++ hexEncode publicKey]
  stderr := []

section Printing

variable {K : Type} (crates : Crates) (uris : SecretUris K) (labels : Labels) (draw : Draw)

/-- The secret that a seed file holds. -/
def seedText (content : Bytes) (keyPass : String) : Except WalletLoader.Panic String :=
  match fromUtf8 content with
  | none => .error .unableToRead
  | some content =>
    match decrypt crates content keyPass with
    | .error panic => .error (.crypto panic)
    | .ok (.ok decrypted) => .ok decrypted
    | .ok (.error _) =>
      match decryptMnemonic crates content with
      | .error panic => .error panic
      | .ok mnemonic => .ok (mnemonic ++ "///" ++ keyPass)

def getKeysPrinting (path : TreePath) (keyPass : String) (printSeed : Bool) :
    Script Disk WalletLoader.Panic (K × List String) :=
  .branch (fun tree => tree.isFile path)
    (.ask fun tree =>
      match tree.read path with
      | some content =>
        match seedText crates content keyPass with
        | .error panic => .error panic
        | .ok decrypted =>
          (keypairOf uris decrypted).map fun keypair =>
            (keypair, if printSeed then [decrypted] else [])
      | none => .error .unableToRead)
    ((writeMnemonic crates uris draw path keyPass none true).andThen fun (mnemonic, keypair) =>
      .done (keypair, if printSeed then [mnemonic] else []))

def loadWalletPrinting (seedPath : TreePath) (keyPass : String) (printKind : PrintKind) :
    Script Disk WalletLoader.Panic (K × Shown) :=
  (getKeysPrinting crates uris draw seedPath keyPass (printKind = .seed)).andThen
    fun (signer, printed) =>
      let lines := labels.wallet (uris.publicKey signer) printKind
      .done (signer, ⟨printed ++ lines.stdout, lines.stderr⟩)

/-- A migration verifies with `PrintKind::Nothing`. -/
def loadDirectoryPrinting (seedPath : TreePath) (keyPass : String) (printKind : PrintKind) :
    Script Disk WalletLoader.Panic (K × Shown) :=
  (Script.ask fun tree => .ok (locate draw tree seedPath)).andThen fun (seedPath, v1MigrationPath) =>
  (Script.branch (fun tree => tree.present seedPath) (.done ())
    ((writeMnemonic crates uris draw seedPath keyPass none true).andThen fun _ =>
      .done ())).andThen fun _ =>
  (match v1MigrationPath with
    | some v1Path => migrate crates uris draw v1Path keyPass
    | none => .done seedPath).andThen fun seedPath =>
  loadWalletPrinting crates uris labels draw seedPath keyPass printKind

def loadSeedPrinting (seedPath : TreePath) (keyPass : String) (printSeed : Bool) :
    Script Disk WalletLoader.Panic (K × Shown) :=
  let printKind := if printSeed then .seed else .normal
  .branch (fun tree => !tree.present seedPath || tree.isFile seedPath)
    (loadWalletPrinting crates uris labels draw seedPath keyPass printKind)
    (loadDirectoryPrinting crates uris labels draw seedPath keyPass printKind)

def writeSeed (seed : String) (seedPath : TreePath) (keyPass : String) :
    Script Disk WalletLoader.Panic (K × Shown) :=
  (writeMnemonic crates uris draw seedPath keyPass (some seed) false).andThen fun (_, keypair) =>
    .done (keypair, labels.imported (uris.publicKey keypair))

end Printing

section Erased

variable {K : Type} {crates : Crates} {uris : SecretUris K} {labels : Labels} {draw : Draw}
  {path : TreePath} {keyPass : String}

theorem seedKeys_eq (content : Bytes) : seedKeys crates uris content keyPass =
    (seedText crates content keyPass).bind (keypairOf uris) := by
  unfold seedKeys seedText
  cases fromUtf8 content with
  | none => rfl
  | some text =>
    dsimp only
    rcases decrypt crates text keyPass with panic | e | secret
    · rfl
    · cases decryptMnemonic crates text <;> rfl
    · rfl

theorem getKeysPrinting_fst (printSeed : Bool) :
    (getKeysPrinting crates uris draw path keyPass printSeed).map Prod.fst =
      getKeys crates uris draw path keyPass := by
  rw [getKeysPrinting, Script.map_branch, Script.map_andThen]
  refine congrArg (fun yes => Script.branch _ yes _) (congrArg Script.mk (funext fun tree => ?_))
  simp only [Script.ask]
  cases tree.read path with
  | none => rfl
  | some content =>
    dsimp only
    rw [seedKeys_eq]
    cases seedText crates content keyPass with
    | error panic => rfl
    | ok text =>
      dsimp only [Except.bind]
      cases keypairOf uris text <;> rfl

theorem loadWalletPrinting_fst (printKind : PrintKind) :
    (loadWalletPrinting crates uris labels draw path keyPass printKind).map Prod.fst =
      loadWallet crates uris draw path keyPass := by
  rw [loadWalletPrinting, Script.map_andThen, loadWallet, ← getKeysPrinting_fst (printKind = .seed)]
  exact Script.andThen_done _ Prod.fst

theorem loadSeedPrinting_fst (printSeed : Bool) :
    (loadSeedPrinting crates uris labels draw path keyPass printSeed).map Prod.fst =
      loadSeed crates uris draw path keyPass := by
  rw [loadSeedPrinting, Script.map_branch, loadWalletPrinting_fst, loadDirectoryPrinting,
    Script.map_andThen, loadSeed, loadDirectory]
  refine congrArg (Script.branch _ _) (congrArg (Script.andThen _) (funext fun located => ?_))
  obtain ⟨file, v1MigrationPath⟩ := located
  dsimp only
  rw [Script.map_andThen]
  refine congrArg (Script.andThen _) (funext fun _ => ?_)
  rw [Script.map_andThen]
  exact congrArg (Script.andThen _) (funext fun _ => loadWalletPrinting_fst _)

end Erased

/-- `SEED_PATH`, with `.` and `..` resolved. -/
inductive SeedPath
  | absolute (path : TreePath)
  | relative (path : TreePath)
deriving DecidableEq, Repr

/-- What a process is started with. -/
structure Process where
  cwd : TreePath
  seedPath : Option SeedPath
  keyPass : Option String

def store : String := "store"

def Process.resolveSeedPath (process : Process) (tree : Disk) : TreePath :=
  match process.seedPath with
  | some (.absolute path) => path
  | some (.relative path) => process.cwd ++ path
  | none =>
    if tree.isFile (process.cwd ++ [walletSeed]) then process.cwd ++ [walletSeed]
    else if tree.isDir (process.cwd ++ [store]) then process.cwd ++ [store]
    else process.cwd

inductive Panic
  | wouldOverwrite
  | keyPassRequired
  | loader (panic : WalletLoader.Panic)
deriving DecidableEq, Repr

inductive Command
  | importSeed (seed : String)
  | printSeed
  | daemon
deriving DecidableEq, Repr

def Process.requireKeyPass (process : Process) : Except Panic String :=
  match process.keyPass with
  | some keyPass => .ok keyPass
  | none => .error .keyPassRequired

theorem Process.requireKeyPass_ok {process : Process} {keyPass : String} :
    process.requireKeyPass = .ok keyPass ↔ process.keyPass = some keyPass := by
  unfold requireKeyPass
  cases process.keyPass <;> simp

section Main

variable {K : Type} (crates : Crates) (uris : SecretUris K) (labels : Labels)

/-- `main`, up to where the daemon has its key pair. -/
def Process.main (process : Process) (command : Command) (draw : Draw) :
    Script Disk Panic (K × Shown) :=
  let keyPass : Script Disk Panic String := .ask fun _ => process.requireKeyPass
  (Script.ask fun tree => .ok (process.resolveSeedPath tree)).andThen fun seedPath =>
  match command with
  | .importSeed seed =>
    (Script.ask fun tree =>
      if tree.isFile seedPath && tree.present seedPath then .error .wouldOverwrite
      else .ok ()).andThen fun _ =>
    keyPass.andThen fun keyPass =>
    (writeSeed crates uris labels draw seed seedPath keyPass).mapError .loader
  | .printSeed =>
    keyPass.andThen fun keyPass =>
    (loadSeedPrinting crates uris labels draw seedPath keyPass true).mapError .loader
  | .daemon =>
    keyPass.andThen fun keyPass =>
    (loadSeedPrinting crates uris labels draw seedPath keyPass false).mapError .loader

/-- What a process does each time it is started, with what each start finds. -/
def Process.history (process : Process) :
    Disk → List (Command × Draw) → List (Command × Run Disk Panic (K × Shown))
  | _, [] => []
  | tree, (command, draw) :: rest =>
    let ran := (process.main crates uris labels command draw).run tree
    (command, ran) :: process.history ran.state rest

end Main

section Printed

variable {K : Type} {crates : Crates} {uris : SecretUris K} {labels : Labels} {draw : Draw}
  {path : TreePath} {keyPass secret : String} {keypair : K} {shown : Shown} {tree : Disk}

theorem seedText_encrypted (lawful : crates.Lawful) {mnemonic content : String} {imported : Bool}
    (h : encrypted crates draw mnemonic keyPass imported = .ok content) :
    seedText crates (utf8 content) keyPass = .ok (secretOf mnemonic keyPass imported) := by
  unfold encrypted at h
  cases made : encryptWithImported crates draw.salt draw.nonce mnemonic keyPass imported with
  | error panic =>
    rw [made] at h
    cases h
  | ok text =>
    rw [made] at h
    obtain rfl : text = content := Except.ok.inj h
    simp only [seedText, fromUtf8_utf8, decrypt_encrypt lawful made]

theorem seedText_of_seedKeys {content : Bytes} (h : seedKeys crates uris content keyPass = .ok keypair) :
    ∃ secret, seedText crates content keyPass = .ok secret ∧ keypairOf uris secret = .ok keypair := by
  rw [seedKeys_eq] at h
  cases text : seedText crates content keyPass with
  | error panic =>
    rw [text] at h
    cases h
  | ok secret =>
    rw [text] at h
    exact ⟨secret, rfl, h⟩

end Printed

end Commands

end WalletDaemon
