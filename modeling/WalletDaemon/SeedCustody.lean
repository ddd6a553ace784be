import WalletDaemon.Commands

/-! The seed over many starts of the program. Once a command has given a key pair, no later
one changes the disk or gives another, and what it prints brings the key pair back elsewhere. -/

namespace WalletDaemon.Commands

open Crypto WalletLoader

variable {K : Type} {crates : Crates} {uris : SecretUris K} {labels : Labels} {draw : Draw}
  {path : TreePath} {keyPass secret : String} {keypair : K} {tree after : Disk}

/-- The file that a path is, or the `wallet.seed` in it, holds the secret of the key pair. -/
structure Seated (crates : Crates) (uris : SecretUris K) (keyPass : String) (tree : Disk)
    (path : TreePath) (secret : String) (keypair : K) : Prop where
  key : keypairOf uris secret = .ok keypair
  file : ∃ content, seedText crates content keyPass = .ok secret ∧
    (tree.node path = some (.file content) ∨
      tree.node (path ++ [walletSeed]) = some (.file content))

def Labels.loaded (labels : Labels) (publicKey : Bytes) (secret : String) (printKind : PrintKind) :
    Shown :=
  let lines := labels.wallet publicKey printKind
  ⟨(if printKind = .seed then [secret] else []) ++ lines.stdout, lines.stderr⟩

theorem loadWalletPrinting_file {content : Bytes} (file : tree.node path = some (.file content))
    (text : seedText crates content keyPass = .ok secret) (key : keypairOf uris secret = .ok keypair)
    (printKind : PrintKind) :
    (loadWalletPrinting crates uris labels draw path keyPass printKind).run tree =
      ⟨.ok (keypair, labels.loaded (uris.publicKey keypair) secret printKind), tree, []⟩ := by
  have isFile : tree.isFile path = true := FileTree.isFile_iff.mpr ⟨content, file⟩
  have keys : (getKeysPrinting crates uris draw path keyPass (printKind = .seed)).run tree =
      ⟨.ok (keypair, if printKind = .seed then [secret] else []), tree, []⟩ := by
    simp only [getKeysPrinting, Script.branch_run, isFile, if_true, Script.ask,
      FileTree.read_iff.mpr file, text, key, Except.map, decide_eq_true_eq]
  rw [loadWalletPrinting, Script.andThen_of_quiet keys]
  rfl

theorem Seated.loadSeedPrinting_run (seated : Seated crates uris keyPass tree path secret keypair)
    (draw : Draw) (printSeed : Bool) :
    (loadSeedPrinting crates uris labels draw path keyPass printSeed).run tree =
      ⟨.ok (keypair, labels.loaded (uris.publicKey keypair) secret
        (if printSeed then .seed else .normal)), tree, []⟩ := by
  obtain ⟨content, text, file | file⟩ := seated.file
  · have isFile : tree.isFile path = true := FileTree.isFile_iff.mpr ⟨content, file⟩
    rw [loadSeedPrinting, Script.branch_run, isFile, Bool.or_true, if_pos rfl,
      loadWalletPrinting_file file text seated.key]
  · have there := FileTree.present_of_node file
    have dir := tree.parents path walletSeed (by rw [file]; rfl)
    have choice : (!tree.present path || tree.isFile path) = false := by
      rw [FileTree.present_of_node dir, FileTree.not_isFile (by simp [dir])]
      rfl
    have located : locate draw tree path = (path ++ [walletSeed], none) := if_pos there
    have found : (Script.ask fun tree => .ok (locate draw tree path) :
        Script Disk WalletLoader.Panic _).run tree =
          ⟨.ok (path ++ [walletSeed], none), tree, []⟩ := by
      simp only [Script.ask, located]
    rw [loadSeedPrinting, Script.branch_run, choice, if_neg Bool.false_ne_true,
      loadDirectoryPrinting, Script.andThen_of_quiet found]
    refine (Script.andThen_of_quiet (if_pos there)).trans ?_
    refine (Script.andThen_of_quiet rfl).trans ?_
    exact loadWalletPrinting_file file text seated.key _

theorem writeMnemonic_refused (crates : Crates) (uris : SecretUris K) (draw : Draw)
    (keyPass : String) (dir : tree.node path = some .dir) {content : Bytes}
    (file : tree.node (path ++ [walletSeed]) = some (.file content)) (mnemonic : Option String) :
    ∃ panic, ((writeMnemonic crates uris draw path keyPass mnemonic false).run tree).value =
        .error panic ∧
      ((writeMnemonic crates uris draw path keyPass mnemonic false).run tree).state = tree ∧
      ∀ state ∈ ((writeMnemonic crates uris draw path keyPass mnemonic false).run tree).trail,
        state = tree := by
  have isDir := FileTree.isDir_iff.mpr dir
  have isFile : tree.isFile (path ++ [walletSeed]) = true :=
    FileTree.isFile_iff.mpr ⟨content, file⟩
  have made := FileTree.createDirAll_of_dir dir
  cases sealed_ : encrypted crates draw (mnemonic.getD draw.mnemonic) keyPass false with
  | error panic =>
    refine ⟨panic, ?_⟩
    simp [writeMnemonic, Script.andThen, Script.ask, sealed_]
  | ok content =>
    cases key : keypairOf uris (mnemonic.getD draw.mnemonic) with
    | error panic =>
      refine ⟨panic, ?_⟩
      simp [writeMnemonic, Script.andThen, Script.ask, sealed_, key]
    | ok keypair =>
      refine ⟨.alreadyExists, ?_⟩
      simp [writeMnemonic, Script.andThen, Script.ask, sealed_, key, finalPath, Script.branch_run,
        isDir, Script.change, made, isFile]

/-- A seed as a command leaves it, and what else it changed: one new seed file at most, and
no directory is lost. -/
structure Left (crates : Crates) (uris : SecretUris K) (keyPass : String) (tree after : Disk)
    (path : TreePath) (secret : String) (keypair : K) : Prop where
  seated : Seated crates uris keyPass after path secret keypair
  dirs : ∀ other, tree.node other = some .dir → after.node other = some .dir
  stays : tree.isFile path = true → after.isFile path = true
  files : ∀ other content, after.node other = some (.file content) →
    other = path ∨ other = path ++ [walletSeed] ∨ tree.node other = some (.file content)

def Leaves (crates : Crates) (uris : SecretUris K) (keyPass : String) (tree after : Disk)
    (path : TreePath) (keypair : K) : Prop :=
  ∃ secret, Left crates uris keyPass tree after path secret keypair

theorem Left.of_quiet (seated : Seated crates uris keyPass tree path secret keypair) :
    Left crates uris keyPass tree tree path secret keypair :=
  ⟨seated, fun _ here => here, id, fun _ _ here => .inr (.inr here)⟩

section Writing

def FilesOf (before after : Disk) : Prop :=
  ∀ other content, after.node other = some (.file content) → before.node other = some (.file content)

theorem FilesOf.of_createDirAll (h : tree.createDirAll path = some after) : FilesOf tree after := by
  intro other content here
  rw [FileTree.createDirAll_ok h] at here
  dsimp only at here
  split at here
  · cases here
  · exact here

theorem finalPath_files {final : TreePath} (h : ((finalPath path).run tree).value = .ok final) :
    FilesOf tree ((finalPath path).run tree).state := by
  have same : FilesOf tree tree := fun _ _ here => here
  unfold finalPath at *
  cases dir : tree.isDir path with
  | true =>
    simp only [Script.branch_run, dir, if_true, Script.done_run]
    exact same
  | false =>
    simp only [Script.branch_run, dir, Bool.false_eq_true, if_false] at h ⊢
    cases make : !tree.present path && extensionIsNone path with
    | true =>
      simp only [make, if_true] at h ⊢
      obtain ⟨after, made, -, ended⟩ := Script.change_andThen_ok h
      rw [ended]
      exact FilesOf.of_createDirAll made
    | false =>
      simp only [Bool.false_eq_true, if_false, Script.done_run]
      exact same

theorem writeMnemonic_files {mnemonic : Option String} {allowOverwrite : Bool} {written : String × K}
    (h : ((writeMnemonic crates uris draw path keyPass mnemonic allowOverwrite).run tree).value =
      .ok written) (other : TreePath) (content : Bytes)
    (here : ((writeMnemonic crates uris draw path keyPass mnemonic allowOverwrite).run tree).state.node
      other = some (.file content)) :
    other = seedFile tree path ∨ tree.node other = some (.file content) := by
  unfold writeMnemonic at h here
  obtain ⟨_, -, h, same⟩ := Script.ask_andThen_ok h
  rw [same] at here
  clear same
  obtain ⟨_, -, h, same⟩ := Script.ask_andThen_ok h
  rw [same] at here
  clear same
  obtain ⟨final, placed, h, same⟩ := Script.andThen_value_ok h
  rw [same] at here
  clear same
  obtain ⟨rfl, -⟩ := finalPath_ok placed
  have first := finalPath_files placed
  obtain ⟨_, made, h, same⟩ := Script.change_andThen_ok h
  rw [same] at here
  clear same
  obtain ⟨_, -, h, same⟩ := Script.ask_andThen_ok h
  rw [same] at here
  clear same
  obtain ⟨_, put, -, same⟩ := Script.change_andThen_ok h
  rw [same, Script.done_run] at here
  by_cases apart : other = seedFile tree path
  · exact .inl apart
  · rw [FileTree.write_other put apart] at here
    exact .inr (first _ _ (FilesOf.of_createDirAll made _ _ here))

theorem Left.of_writeMnemonic (lawful : crates.Lawful) {target : TreePath} {mnemonic : Option String}
    {allowOverwrite : Bool} {written : String × K}
    (h : ((writeMnemonic crates uris draw target keyPass mnemonic allowOverwrite).run tree).value =
      .ok written)
    (place : seedFile tree target = path ∨ seedFile tree target = path ++ [walletSeed]) :
    Left crates uris keyPass tree
      ((writeMnemonic crates uris draw target keyPass mnemonic allowOverwrite).run tree).state path
      written.1 written.2 := by
  obtain ⟨-, key, -, put⟩ := writeMnemonic_ok h
  obtain ⟨content, sealed_, file⟩ := put.content
  refine ⟨⟨key, utf8 content, seedText_encrypted lawful sealed_, ?_⟩, fun other here => ?_,
    fun here => ?_, fun other content here => ?_⟩
  · rcases place with same | same
    · exact .inl (same ▸ file)
    · exact .inr (same ▸ file)
  · have apart : other ≠ seedFile tree target := by
      rintro rfl
      exact put.free here
    rw [put.kept other apart (by rw [here]; rfl), here]
  · obtain ⟨old, there⟩ := FileTree.isFile_iff.mp here
    by_cases same : path = seedFile tree target
    · exact FileTree.isFile_iff.mpr ⟨_, same ▸ file⟩
    · exact FileTree.isFile_iff.mpr ⟨old, by rw [put.kept path same (by rw [there]; rfl), there]⟩
  · rcases writeMnemonic_files h other content here with new | old
    · rw [new]
      exact place.imp id .inl
    · exact .inr (.inr old)

theorem seedFile_cases (tree : Disk) (path : TreePath) :
    seedFile tree path = path ∨ seedFile tree path = path ++ [walletSeed] := by
  unfold seedFile
  split
  · exact .inr rfl
  · exact .inl rfl

end Writing

section Loading

theorem Seated.of_content {content : Bytes} (keys : seedKeys crates uris content keyPass = .ok keypair)
    (file : tree.node path = some (.file content) ∨
      tree.node (path ++ [walletSeed]) = some (.file content)) :
    ∃ secret, Seated crates uris keyPass tree path secret keypair := by
  obtain ⟨secret, text, key⟩ := seedText_of_seedKeys keys
  exact ⟨secret, key, content, text, file⟩

theorem Leaves.of_reading {content : Bytes}
    (reads : (loadSeed crates uris draw path keyPass).run tree =
      ⟨seedKeys crates uris content keyPass, tree, []⟩)
    (h : ((loadSeed crates uris draw path keyPass).run tree).value = .ok keypair)
    (file : tree.node path = some (.file content) ∨
      tree.node (path ++ [walletSeed]) = some (.file content)) :
    Leaves crates uris keyPass tree ((loadSeed crates uris draw path keyPass).run tree).state path
      keypair := by
  rw [reads] at h ⊢
  obtain ⟨secret, seated⟩ := Seated.of_content h file
  exact ⟨secret, .of_quiet seated⟩

theorem Leaves.of_absent (lawful : crates.Lawful) (absent : tree.node path = none)
    (h : ((loadSeed crates uris draw path keyPass).run tree).value = .ok keypair) :
    Leaves crates uris keyPass tree ((loadSeed crates uris draw path keyPass).run tree).state path
      keypair := by
  have noFile : tree.isFile path = false := FileTree.not_isFile (by simp [absent])
  have ran : (loadSeed crates uris draw path keyPass).run tree =
      ((writeMnemonic crates uris draw path keyPass none true).andThen
        fun written => .done written.2).run tree := by
    rw [loadSeed, Script.branch_run, FileTree.not_present_iff.mpr absent]
    exact loadWallet_noFile noFile
  rw [ran] at h ⊢
  obtain ⟨written, wrote, last, same⟩ := Script.andThen_value_ok h
  obtain rfl : written.2 = keypair := Except.ok.inj last
  rw [same, Script.done_run]
  exact ⟨written.1, .of_writeMnemonic lawful wrote (seedFile_cases tree path)⟩

theorem Leaves.of_empty_dir (lawful : crates.Lawful) (here : tree.node path = some .dir)
    (absent : tree.node (path ++ [walletSeed]) = none)
    (none_ : draw.listing.find? isV1Name = none)
    (h : ((loadSeed crates uris draw path keyPass).run tree).value = .ok keypair) :
    Leaves crates uris keyPass tree ((loadSeed crates uris draw path keyPass).run tree).state path
      keypair := by
  have missing := FileTree.not_present_iff.mpr absent
  have located : locate draw tree path = (path ++ [walletSeed], none) := by
    rw [locate, missing, if_neg Bool.false_ne_true, none_]
  have found : (Script.ask fun tree => .ok (locate draw tree path) :
      Script Disk WalletLoader.Panic _).run tree = ⟨.ok (path ++ [walletSeed], none), tree, []⟩ := by
    simp only [Script.ask, located]
  rw [loadSeed_dir here, loadDirectory, Script.andThen_of_quiet found] at h ⊢
  obtain ⟨_, first, h, ended⟩ := Script.andThen_value_ok h
  rw [ended]
  clear ended
  have ran : (Script.branch (fun tree => tree.present (path ++ [walletSeed])) (.done ())
      ((writeMnemonic crates uris draw (path ++ [walletSeed]) keyPass none true).andThen fun _ =>
        .done ())).run tree = ((writeMnemonic crates uris draw (path ++ [walletSeed]) keyPass none
          true).andThen fun _ => .done ()).run tree := by
    rw [Script.branch_run, missing, if_neg Bool.false_ne_true]
  rw [ran] at first h ⊢
  obtain ⟨written, wrote, -, ended⟩ := Script.andThen_value_ok first
  rw [ended, Script.done_run] at h ⊢
  have left : Left crates uris keyPass tree _ path written.1 written.2 :=
    .of_writeMnemonic lawful wrote (.inr (seedFile_walletSeed absent))
  obtain ⟨-, key, -, put⟩ := writeMnemonic_ok wrote
  rw [seedFile_walletSeed absent] at put
  obtain ⟨content, sealed_, file⟩ := put.content
  have keys : seedKeys crates uris (utf8 content) keyPass = .ok written.2 := by
    rw [seedKeys_encrypted lawful sealed_]
    exact key
  rw [Script.andThen_of_quiet rfl, loadWallet_file file, keys] at h ⊢
  obtain rfl := Except.ok.inj h
  exact ⟨written.1, left⟩

theorem Leaves.of_v1 (lawful : crates.Lawful) (fits : ∀ name, name ∈ draw.listing ↔
      tree.present (path ++ [name]) = true)
    (absent : tree.node (path ++ [walletSeed]) = none) {name : String}
    (found : draw.listing.find? isV1Name = some name)
    (h : ((loadSeed crates uris draw path keyPass).run tree).value = .ok keypair) :
    Leaves crates uris keyPass tree ((loadSeed crates uris draw path keyPass).run tree).state path
      keypair := by
  have there := (fits name).mp (List.mem_of_find?_eq_some found)
  obtain ⟨k, v1⟩ : ∃ k, Loads crates uris keyPass tree (path ++ [name]) k := by
    rw [loadSeed_v1 absent found there] at h
    obtain ⟨target, migrated, -, -⟩ := Script.andThen_value_ok h
    exact migrate_ok absent migrated
  rcases loadSeed_migrates lawful absent found v1 with
    ⟨panic, -, ran⟩ | ⟨written, removed, migrated, ran⟩
  · rw [ran] at h
    cases h
  · rw [ran] at h ⊢
    obtain rfl : k = keypair := Except.ok.inj h
    obtain ⟨content, file, keys⟩ := migrated.removedSeed.content draw
    obtain ⟨secret, seated⟩ := Seated.of_content keys (.inr file)
    obtain ⟨old, v1File, -⟩ := v1.content draw
    have dir := tree.parents path name (by rw [v1File]; rfl)
    refine ⟨secret, seated, fun other here => ?_, fun here => ?_, fun other content here => ?_⟩
    · have apart : other ≠ path ++ [name] := by
        rintro rfl
        rw [v1File] at here
        cases here
      rw [migrated.kept other (FileTree.ne_of_absent here absent) apart, here]
    · rw [FileTree.not_isFile (by simp [dir])] at here
      cases here
    · by_cases seed : other = path ++ [walletSeed]
      · exact .inr (.inl seed)
      · have apart : other ≠ path ++ [name] := by
          rintro rfl
          rw [migrated.gone] at here
          cases here
        rw [migrated.kept other seed apart] at here
        exact .inr (.inr here)

theorem Leaves.of_loadSeed (lawful : crates.Lawful)
    (fits : ∀ name, name ∈ draw.listing ↔ tree.present (path ++ [name]) = true)
    (shape : nestedSeed tree path = false)
    (h : ((loadSeed crates uris draw path keyPass).run tree).value = .ok keypair) :
    Leaves crates uris keyPass tree ((loadSeed crates uris draw path keyPass).run tree).state path
      keypair := by
  match here : tree.node path with
  | none => exact .of_absent lawful here h
  | some (.file content) => exact .of_reading (loadSeed_file here) h (.inl here)
  | some .dir =>
    match seed : tree.node (path ++ [walletSeed]) with
    | some (.file content) => exact .of_reading (loadSeed_walletSeed seed) h (.inr seed)
    | some .dir =>
      -- no load returns here: a directory is where the seed file would be written
      exfalso
      rw [nestedSeed, FileTree.isDir_iff.mpr seed, Bool.true_and, Bool.not_eq_false'] at shape
      have noFile : tree.isFile (path ++ [walletSeed]) = false := FileTree.not_isFile (by simp [seed])
      rw [loadSeed_present (FileTree.present_of_node seed), loadWallet_noFile noFile] at h
      obtain ⟨written, wrote, -, -⟩ := Script.andThen_value_ok h
      obtain ⟨-, -, -, put⟩ := writeMnemonic_ok wrote
      apply put.free
      rw [seedFile, FileTree.isDir_iff.mpr seed, Bool.true_or, if_pos rfl]
      exact FileTree.isDir_iff.mp shape
    | none =>
      cases found : draw.listing.find? isV1Name with
      | none => exact .of_empty_dir lawful here seed found h
      | some name => exact .of_v1 lawful fits seed found h

end Loading

section Processes

variable {process : Process} {shown : Shown}

theorem Left.resolved (cwd : tree.node process.cwd = some .dir)
    (left : Left crates uris keyPass tree after (process.resolveSeedPath tree) secret keypair) :
    Seated crates uris keyPass after (process.resolveSeedPath after) secret keypair := by
  have seated := left.seated
  unfold Process.resolveSeedPath at *
  cases explicit : process.seedPath with
  | some seedPath => cases seedPath <;> simpa only [explicit] using seated
  | none =>
    simp only [explicit] at left seated ⊢
    cases file : tree.isFile (process.cwd ++ [walletSeed]) with
    | true =>
      simp only [file, if_true] at left seated
      rw [if_pos (left.stays file)]
      exact seated
    | false =>
      simp only [file, Bool.false_eq_true, if_false] at left seated
      cases dir : tree.isDir (process.cwd ++ [store]) with
      | true =>
        simp only [dir, if_true] at left seated
        have still := FileTree.isDir_iff.mpr (left.dirs _ (FileTree.isDir_iff.mp dir))
        have noFile : after.isFile (process.cwd ++ [walletSeed]) = false := by
          by_contra made
          obtain ⟨content, made⟩ := FileTree.isFile_iff.mp (Bool.not_eq_false _ ▸ made)
          rcases left.files _ _ made with same | same | old
          · exact absurd (List.append_cancel_left same) (by decide)
          · exact absurd (congrArg List.length same) (by simp)
          · rw [FileTree.isFile_iff.mpr ⟨content, old⟩] at file
            cases file
        rw [noFile, if_neg Bool.false_ne_true, if_pos still]
        exact seated
      | false =>
        simp only [dir, Bool.false_eq_true, if_false] at left seated
        obtain ⟨content, text, here | here⟩ := seated.file
        · rw [left.dirs _ cwd] at here
          cases here
        · rw [if_pos (FileTree.isFile_iff.mpr ⟨content, here⟩)]
          exact ⟨seated.key, content, text, .inl here⟩

theorem loadSeed_of_printing {printSeed : Bool}
    (h : ((loadSeedPrinting crates uris labels draw path keyPass printSeed).run tree).value =
      .ok (keypair, shown)) :
    ((loadSeed crates uris draw path keyPass).run tree).value = .ok keypair ∧
      ((loadSeedPrinting crates uris labels draw path keyPass printSeed).run tree).state =
        ((loadSeed crates uris draw path keyPass).run tree).state := by
  have erased : ((loadSeedPrinting crates uris labels draw path keyPass printSeed).map
      Prod.fst).run tree = (loadSeed crates uris draw path keyPass).run tree := by
    rw [loadSeedPrinting_fst]
  rw [← erased]
  simp [Script.map, h, Except.map]

theorem import_leaves (lawful : crates.Lawful) {seed : String}
    (h : ((process.main crates uris labels (.importSeed seed) draw).run tree).value =
      .ok (keypair, shown)) :
    ∃ keyPass, process.keyPass = some keyPass ∧ Left crates uris keyPass tree
      ((process.main crates uris labels (.importSeed seed) draw).run tree).state
      (process.resolveSeedPath tree) seed keypair := by
  unfold Process.main at h ⊢
  obtain ⟨seedPath, resolved, h, same⟩ := Script.ask_andThen_ok h
  obtain rfl := Except.ok.inj resolved
  rw [same]
  clear same resolved
  obtain ⟨_, -, h, same⟩ := Script.ask_andThen_ok h
  rw [same]
  clear same
  obtain ⟨keyPass, read, h, same⟩ := Script.ask_andThen_ok h
  rw [same]
  clear same
  obtain ⟨h, same⟩ := Script.mapError_ok h
  rw [same]
  clear same
  obtain ⟨written, wrote, last, same⟩ := Script.andThen_value_ok h
  rw [writeSeed, same]
  obtain ⟨rfl, -⟩ := Prod.mk.inj (Except.ok.inj last)
  have left := Left.of_writeMnemonic lawful wrote (seedFile_cases tree (process.resolveSeedPath tree))
  rw [(writeMnemonic_ok wrote).1] at left
  exact ⟨keyPass, Process.requireKeyPass_ok.mp read, left⟩

/-- What a command that gives a key pair leaves. -/
theorem main_leaves (lawful : crates.Lawful) {command : Command}
    (names : ∀ name, name ∈ draw.listing ↔
      tree.present (process.resolveSeedPath tree ++ [name]) = true)
    (shape : nestedSeed tree (process.resolveSeedPath tree) = false)
    (h : ((process.main crates uris labels command draw).run tree).value = .ok (keypair, shown)) :
    ∃ keyPass, process.keyPass = some keyPass ∧
      Leaves crates uris keyPass tree ((process.main crates uris labels command draw).run tree).state
        (process.resolveSeedPath tree) keypair := by
  have loads : ∀ {keyPass : String} {printSeed : Bool},
      (((loadSeedPrinting crates uris labels draw (process.resolveSeedPath tree) keyPass
        printSeed).mapError Panic.loader).run tree).value = .ok (keypair, shown) →
      Leaves crates uris keyPass tree (((loadSeedPrinting crates uris labels draw
        (process.resolveSeedPath tree) keyPass printSeed).mapError Panic.loader).run tree).state
        (process.resolveSeedPath tree) keypair := by
    intro keyPass printSeed loaded
    obtain ⟨loaded, same⟩ := Script.mapError_ok loaded
    obtain ⟨loaded, erased⟩ := loadSeed_of_printing loaded
    rw [same, erased]
    exact .of_loadSeed lawful names shape loaded
  cases command with
  | importSeed seed =>
    obtain ⟨keyPass, pass, left⟩ := import_leaves lawful h
    exact ⟨keyPass, pass, seed, left⟩
  | printSeed =>
    unfold Process.main at h ⊢
    obtain ⟨_, resolved, h, same⟩ := Script.ask_andThen_ok h
    obtain rfl := Except.ok.inj resolved
    obtain ⟨keyPass, read, h, ended⟩ := Script.ask_andThen_ok h
    rw [same, ended]
    exact ⟨keyPass, Process.requireKeyPass_ok.mp read, loads h⟩
  | daemon =>
    unfold Process.main at h ⊢
    obtain ⟨_, resolved, h, same⟩ := Script.ask_andThen_ok h
    obtain rfl := Except.ok.inj resolved
    obtain ⟨keyPass, read, h, ended⟩ := Script.ask_andThen_ok h
    rw [same, ended]
    exact ⟨keyPass, Process.requireKeyPass_ok.mp read, loads h⟩

/-- A start that leaves the disk alone, and is refused or shows the same secret. -/
def Stays (uris : SecretUris K) (labels : Labels) (tree : Disk) (secret : String) (keypair : K)
    (command : Command) (ran : Run Disk Panic (K × Shown)) : Prop :=
  ran.state = tree ∧ (∀ state ∈ ran.trail, state = tree) ∧
    match command with
    | .importSeed _ => ∃ panic, ran.value = .error panic
    | .printSeed =>
      ran.value = .ok (keypair, labels.loaded (uris.publicKey keypair) secret .seed)
    | .daemon =>
      ran.value = .ok (keypair, labels.loaded (uris.publicKey keypair) secret .normal)

theorem Seated.main_stays (pass : process.keyPass = some keyPass)
    (seated : Seated crates uris keyPass tree (process.resolveSeedPath tree) secret keypair)
    (command : Command) (draw : Draw) :
    Stays uris labels tree secret keypair command
      ((process.main crates uris labels command draw).run tree) := by
  cases command with
  | printSeed =>
    have ran : (loadSeedPrinting crates uris labels draw (process.resolveSeedPath tree) keyPass
        true).run tree = _ := seated.loadSeedPrinting_run draw true
    simp [Stays, Process.main, Script.andThen, Script.ask, Process.requireKeyPass_ok.mpr pass,
      Script.mapError, ran, Except.mapError]
  | daemon =>
    have ran : (loadSeedPrinting crates uris labels draw (process.resolveSeedPath tree) keyPass
        false).run tree = _ := seated.loadSeedPrinting_run draw false
    simp [Stays, Process.main, Script.andThen, Script.ask, Process.requireKeyPass_ok.mpr pass,
      Script.mapError, ran, Except.mapError]
  | importSeed seed =>
    obtain ⟨content, -, file | file⟩ := seated.file
    · have isFile : tree.isFile (process.resolveSeedPath tree) = true :=
        FileTree.isFile_iff.mpr ⟨content, file⟩
      have there := FileTree.present_of_node file
      simp [Stays, Process.main, Script.andThen, Script.ask, isFile, there]
    · have dir := tree.parents _ walletSeed (by rw [file]; rfl)
      have noFile : tree.isFile (process.resolveSeedPath tree) = false :=
        FileTree.not_isFile (by simp [dir])
      obtain ⟨panic, value, state, trail⟩ := writeMnemonic_refused crates uris draw keyPass dir file
        (some seed)
      simp [Stays, Process.main, Script.andThen, Script.ask, Process.requireKeyPass_ok.mpr pass, noFile,
        Script.mapError, writeSeed, value, state, Except.mapError]
      exact trail

theorem history_stays (pass : process.keyPass = some keyPass)
    (seated : Seated crates uris keyPass tree (process.resolveSeedPath tree) secret keypair)
    (later : List (Command × Draw)) :
    ∀ entry ∈ process.history crates uris labels tree later,
      Stays uris labels tree secret keypair entry.1 entry.2 := by
  induction later with
  | nil => exact fun _ inside => absurd inside List.not_mem_nil
  | cons start rest ih =>
    obtain ⟨command, draw⟩ := start
    have first : Stays uris labels tree secret keypair command
      ((process.main crates uris labels command draw).run tree) := seated.main_stays pass command draw
    intro entry inside
    rcases List.mem_cons.mp inside with rfl | inside
    · exact first
    · rw [first.1] at inside
      exact ih entry inside

/-- After a start that gives a key pair no later one changes the disk: imports are refused,
and the others give that key pair and show its one secret. -/
theorem identity_fixed (lawful : crates.Lawful) (process : Process) (tree : Disk)
    (cwd : tree.node process.cwd = some .dir)
    (shape : nestedSeed tree (process.resolveSeedPath tree) = false)
    (command : Command) (draw : Draw)
    (names : ∀ name, name ∈ draw.listing ↔
      tree.present (process.resolveSeedPath tree ++ [name]) = true)
    (first : ((process.main crates uris labels command draw).run tree).value = .ok (keypair, shown)) :
    ∃ secret, keypairOf uris secret = .ok keypair ∧
      ∀ later, ∀ entry ∈ process.history crates uris labels
          ((process.main crates uris labels command draw).run tree).state later,
        Stays uris labels ((process.main crates uris labels command draw).run tree).state secret
          keypair entry.1 entry.2 := by
  obtain ⟨keyPass, pass, secret, left⟩ := main_leaves lawful names shape first
  exact ⟨secret, left.seated.key, fun later => history_stays pass (left.resolved cwd) later⟩

end Processes

section Root

def rootProcess : Process := ⟨[], none, some "pass"⟩

def plainLabels : Labels := ⟨"2.0.0", fun format _ => toString format⟩

def rootImport : Run Disk Panic (String × Shown) :=
  (rootProcess.main clearCrates spelledUris plainLabels (.importSeed "bounce arctic")
    plainDraw).run plainDisk

theorem rootImport_value : rootImport.value =
    .ok ("bounce arctic", plainLabels.imported (utf8 "bounce arctic")) := rfl

theorem plainDisk_names (name : String) :
    name ∈ plainDraw.listing ↔ plainDisk.present ([] ++ [name]) = true := by
  rw [FileTree.present, plainDisk, FileTree.ofFile_node]
  by_cases same : name = v1Name
  · simp [same, plainDraw]
  · simp [same, plainDraw, FileTree.empty]

/-- After an import beside a v1 file that file is never loaded. -/
theorem identity_fixed_import :
    ∃ secret, keypairOf spelledUris secret = .ok "bounce arctic" ∧
      ∀ later, ∀ entry ∈ rootProcess.history clearCrates spelledUris plainLabels rootImport.state later,
        Stays spelledUris plainLabels rootImport.state secret "bounce arctic" entry.1 entry.2 :=
  identity_fixed clearCrates_lawful rootProcess plainDisk plainDisk.root rfl
    (.importSeed "bounce arctic") plainDraw plainDisk_names rootImport_value

end Root


end WalletDaemon.Commands
