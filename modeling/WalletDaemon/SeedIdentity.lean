import WalletDaemon.SeedMigration

/-! The identity that loading a seed gives: what was imported is what is loaded,
and what was loaded once is loaded again. -/

namespace WalletDaemon.WalletLoader

open Crypto

variable {K : Type} {crates : Crates} {uris : SecretUris K} {draw : Draw} {path : TreePath}
  {keyPass : String} {tree : Disk}

section Import

theorem Written.loadSeed_run (lawful : crates.Lawful) {after : Disk} {mnemonic : String} {keypair : K}
    (written : Written crates draw tree after (seedFile tree path) mnemonic keyPass)
    (key : keypairOf uris mnemonic = .ok keypair) (later : Draw) :
    (loadSeed crates uris later path keyPass).run after = ⟨.ok keypair, after, []⟩ := by
  obtain ⟨content, sealed_, file⟩ := written.content
  have keys : seedKeys crates uris (utf8 content) keyPass = .ok keypair := by
    rw [seedKeys_encrypted lawful sealed_]
    exact key
  unfold seedFile at file
  split at file
  · rw [loadSeed_walletSeed file, keys]
  · rw [loadSeed_file file, keys]

/-- An import overwrites no file, and what it wrote is loaded without a change. -/
theorem import_then_load (lawful : crates.Lawful) {mnemonic : String} {written : String × K}
    (h : ((writeMnemonic crates uris draw path keyPass (some mnemonic) false).run tree).value =
      .ok written) :
    let after := ((writeMnemonic crates uris draw path keyPass (some mnemonic) false).run tree).state
    (∀ file content, tree.node file = some (.file content) →
      after.node file = some (.file content)) ∧
    ∀ later, (loadSeed crates uris later path keyPass).run after = ⟨.ok written.2, after, []⟩ := by
  obtain ⟨named, key, fresh, wrote⟩ := writeMnemonic_ok h
  refine ⟨fun file content here => ?_, fun later => wrote.loadSeed_run lawful key later⟩
  by_cases same : file = seedFile tree path
  · rw [same] at here
    rw [FileTree.isFile_iff.mpr ⟨content, here⟩] at fresh
    cases fresh rfl
  · rw [wrote.kept file same (by rw [here]; rfl), here]

theorem plain_import : ((writeMnemonic clearCrates spelledUris plainDraw [] "pass"
    (some "bounce arctic") false).run plainDisk).value = .ok ("bounce arctic", "bounce arctic") := rfl

/-- The v1 file beside the imported one is not looked at. -/
theorem import_then_load_beside_v1 :
    let after := ((writeMnemonic clearCrates spelledUris plainDraw [] "pass"
      (some "bounce arctic") false).run plainDisk).state
    after.node [v1Name] = some (.file (utf8 plainContent)) ∧
    ∀ later, (loadSeed clearCrates spelledUris later [] "pass").run after =
      ⟨.ok "bounce arctic", after, []⟩ := by
  have imported := import_then_load clearCrates_lawful plain_import
  refine ⟨imported.1 [v1Name] _ ?_, imported.2⟩
  rw [plainDisk, FileTree.ofFile_node, Function.update_self]

end Import

section Identity

/-- What the mnemonics of new wallets are, with their seals and key pairs. -/
structure Generator (crates : Crates) (uris : SecretUris K) (keyPass : String)
    (generated : String → Prop) : Prop where
  encrypts : ∀ draw : Draw, generated draw.mnemonic →
    ∃ content, encrypted crates draw draw.mnemonic keyPass false = .ok content
  keyed : ∀ mnemonic, generated mnemonic → ∃ keypair, uris.keypair mnemonic = some keypair
  varied : ∃ first second, generated first ∧ generated second ∧
    uris.keypair first ≠ uris.keypair second

/-- A draw that a call can make: a new mnemonic, and the directory's names. -/
def Fits (generated : String → Prop) (draw : Draw) (tree : Disk) (path : TreePath) : Prop :=
  generated draw.mnemonic ∧ ∀ name, name ∈ draw.listing ↔ tree.present (path ++ [name]) = true

/-- A v1 file that is gone, and that `wallet.seed` stands in for. -/
def Replaced (crates : Crates) (uris : SecretUris K) (keyPass : String) (tree after : Disk)
    (path file : TreePath) : Prop :=
  ∃ name keypair, isV1Name name = true ∧ file = path ++ [name] ∧ after.node file = none ∧
    Loads crates uris keyPass tree file keypair ∧
    Loads crates uris keyPass after (path ++ [walletSeed]) keypair

/-- Files are as they were, but for a v1 file that was replaced. -/
def FilesKept (crates : Crates) (uris : SecretUris K) (keyPass : String) (tree after : Disk)
    (path : TreePath) : Prop :=
  ∀ file content, tree.node file = some (.file content) →
    after.node file = some (.file content) ∨ Replaced crates uris keyPass tree after path file

/-- What is loaded once is loaded again, and no key was lost. -/
def Stable (crates : Crates) (uris : SecretUris K) (generated : String → Prop) (keyPass : String)
    (tree : Disk) (path : TreePath) : Prop :=
  ∀ draw keypair, Fits generated draw tree path →
    ((loadSeed crates uris draw path keyPass).run tree).value = .ok keypair →
    (∀ later, Fits generated later ((loadSeed crates uris draw path keyPass).run tree).state path →
      ((loadSeed crates uris later path keyPass).run
        ((loadSeed crates uris draw path keyPass).run tree).state).value = .ok keypair) ∧
    FilesKept crates uris keyPass tree ((loadSeed crates uris draw path keyPass).run tree).state path

theorem FilesKept.refl (tree : Disk) : FilesKept crates uris keyPass tree tree path :=
  fun _ _ here => .inl here

section Directory

variable {dir : TreePath}

theorem writeMnemonic_dir {content : String} {keypair : K} (here : tree.node dir = some .dir)
    (free : tree.node (dir ++ [walletSeed]) ≠ some .dir)
    (sealed_ : encrypted crates draw draw.mnemonic keyPass false = .ok content)
    (key : keypairOf uris draw.mnemonic = .ok keypair) :
    ∃ after, tree.write (dir ++ [walletSeed]) (utf8 content) = some after ∧
      (writeMnemonic crates uris draw dir keyPass none true).run tree =
        ⟨.ok (draw.mnemonic, keypair), after, [tree, after]⟩ := by
  have above : tree.node (dir ++ [walletSeed]).dropLast = some .dir := by
    rw [List.dropLast_concat, here]
  obtain ⟨after, put⟩ := FileTree.write_isSome (utf8 content) free above
  have isDir := FileTree.isDir_iff.mpr here
  have made := FileTree.createDirAll_of_dir here
  refine ⟨after, put, ?_⟩
  simp only [writeMnemonic, Script.andThen, Script.ask, Option.getD_none, sealed_, key, finalPath,
    Script.branch_run, isDir, if_true, Script.done_run, Script.change, List.dropLast_concat, made,
    put]
  simp

/-- A directory in the place of `wallet.seed` is given a new mnemonic at each load. -/
theorem loadSeed_nested {content : String} {keypair : K}
    (nested : tree.node (path ++ [walletSeed]) = some .dir)
    (free : tree.node (path ++ [walletSeed] ++ [walletSeed]) ≠ some .dir)
    (sealed_ : encrypted crates draw draw.mnemonic keyPass false = .ok content)
    (key : keypairOf uris draw.mnemonic = .ok keypair) :
    ∃ after, tree.write (path ++ [walletSeed] ++ [walletSeed]) (utf8 content) = some after ∧
      (loadSeed crates uris draw path keyPass).run tree = ⟨.ok keypair, after, [tree, after]⟩ := by
  obtain ⟨after, put, ran⟩ := writeMnemonic_dir nested free sealed_ key
  refine ⟨after, put, ?_⟩
  have noFile : tree.isFile (path ++ [walletSeed]) = false := FileTree.not_isFile (by simp [nested])
  rw [loadSeed_present (FileTree.present_of_node nested), loadWallet_noFile noFile,
    Script.andThen_of_ok (by rw [ran]), ran]
  rfl

end Directory

section Kept

variable {keypair : K}

/-- What a load leaves behind: each later one gives the same, and no key was lost. -/
def Settled (crates : Crates) (uris : SecretUris K) (keyPass : String) (tree after : Disk)
    (path : TreePath) (keypair : K) : Prop :=
  (∀ later, ((loadSeed crates uris later path keyPass).run after).value = .ok keypair) ∧
    FilesKept crates uris keyPass tree after path

theorem Settled.of_reading {content : Bytes}
    (reads : ∀ draw, (loadSeed crates uris draw path keyPass).run tree =
      ⟨seedKeys crates uris content keyPass, tree, []⟩)
    (h : ((loadSeed crates uris draw path keyPass).run tree).value = .ok keypair) :
    Settled crates uris keyPass tree ((loadSeed crates uris draw path keyPass).run tree).state path
      keypair := by
  rw [reads draw] at h ⊢
  exact ⟨fun later => by rw [reads later, h], FilesKept.refl tree⟩

theorem Written.filesKept {after : Disk} {file : TreePath} {mnemonic : String}
    (written : Written crates draw tree after file mnemonic keyPass)
    (absent : tree.node file = none) : FilesKept crates uris keyPass tree after path := by
  intro other content here
  refine .inl ?_
  rw [written.kept other (FileTree.ne_of_absent here absent) (by rw [here]; rfl), here]

theorem seedFile_walletSeed (absent : tree.node (path ++ [walletSeed]) = none) :
    seedFile tree (path ++ [walletSeed]) = path ++ [walletSeed] := by
  have noDir : tree.isDir (path ++ [walletSeed]) = false := by
    rw [FileTree.isDir, absent]
  have extended : extensionIsNone (path ++ [walletSeed]) = false := by
    rw [extensionIsNone, List.getLast?_concat]
    rfl
  rw [seedFile, noDir, extended, Bool.and_false, Bool.or_false, if_neg Bool.false_ne_true]

theorem seedFile_absent (absent : tree.node path = none) : tree.node (seedFile tree path) = none := by
  unfold seedFile
  split
  · by_contra there
    obtain ⟨node, here⟩ := Option.ne_none_iff_exists'.mp there
    have above := tree.parents path walletSeed (by rw [here]; rfl)
    rw [absent] at above
    cases above
  · exact absent

theorem Settled.of_absent (lawful : crates.Lawful) (absent : tree.node path = none)
    (h : ((loadSeed crates uris draw path keyPass).run tree).value = .ok keypair) :
    Settled crates uris keyPass tree ((loadSeed crates uris draw path keyPass).run tree).state path
      keypair := by
  have noFile : tree.isFile path = false := FileTree.not_isFile (by simp [absent])
  have ran : (loadSeed crates uris draw path keyPass).run tree =
      ((writeMnemonic crates uris draw path keyPass none true).andThen
        fun written => .done written.2).run tree := by
    rw [loadSeed, Script.branch_run, FileTree.not_present_iff.mpr absent]
    exact loadWallet_noFile noFile
  rw [ran] at h ⊢
  obtain ⟨written, wrote, last, same⟩ := Script.andThen_value_ok h
  obtain rfl : written.2 = keypair := Except.ok.inj last
  obtain ⟨-, key, -, put⟩ := writeMnemonic_ok wrote
  rw [same, Script.done_run]
  exact ⟨fun later => by rw [put.loadSeed_run lawful key later],
    put.filesKept (seedFile_absent absent)⟩

theorem Settled.of_empty_dir (lawful : crates.Lawful) (here : tree.node path = some .dir)
    (absent : tree.node (path ++ [walletSeed]) = none)
    (none_ : draw.listing.find? isV1Name = none)
    (h : ((loadSeed crates uris draw path keyPass).run tree).value = .ok keypair) :
    Settled crates uris keyPass tree ((loadSeed crates uris draw path keyPass).run tree).state path
      keypair := by
  have missing := FileTree.not_present_iff.mpr absent
  have located : locate draw tree path = (path ++ [walletSeed], none) := by
    rw [locate, missing, if_neg Bool.false_ne_true, none_]
  rw [loadSeed_dir here] at h ⊢
  unfold loadDirectory at h ⊢
  obtain ⟨found, same, h, ended⟩ := Script.ask_andThen_ok h
  rw [ended]
  rw [located] at same
  obtain rfl := Except.ok.inj same
  clear same ended
  obtain ⟨_, first, h, ended⟩ := Script.andThen_value_ok h
  rw [ended]
  clear ended
  have ran : (Script.branch (fun tree => tree.present (path ++ [walletSeed])) (.done ())
      ((writeMnemonic crates uris draw (path ++ [walletSeed]) keyPass none true).andThen fun _ =>
        .done ())).run tree = ((writeMnemonic crates uris draw (path ++ [walletSeed]) keyPass none
          true).andThen fun _ => .done ()).run tree := by
    rw [Script.branch_run, missing, if_neg Bool.false_ne_true]
  rw [ran] at first h ⊢
  obtain ⟨written, wrote, -, ended⟩ := Script.andThen_value_ok first
  rw [ended, Script.done_run] at h ⊢
  obtain ⟨-, key, -, put⟩ := writeMnemonic_ok wrote
  rw [seedFile_walletSeed absent] at put
  obtain ⟨content, sealed_, file⟩ := put.content
  have keys : seedKeys crates uris (utf8 content) keyPass = .ok written.2 := by
    rw [seedKeys_encrypted lawful sealed_]
    exact key
  rw [Script.andThen_of_quiet rfl, loadWallet_file file, keys] at h ⊢
  obtain rfl := Except.ok.inj h
  exact ⟨fun later => by rw [loadSeed_walletSeed file, keys], put.filesKept absent⟩

theorem Settled.of_v1 (lawful : crates.Lawful) (fits : ∀ name, name ∈ draw.listing ↔
      tree.present (path ++ [name]) = true)
    (absent : tree.node (path ++ [walletSeed]) = none) {name : String}
    (found : draw.listing.find? isV1Name = some name)
    (h : ((loadSeed crates uris draw path keyPass).run tree).value = .ok keypair) :
    Settled crates uris keyPass tree ((loadSeed crates uris draw path keyPass).run tree).state path
      keypair := by
  have there := (fits name).mp (List.mem_of_find?_eq_some found)
  have loaded : ∃ k, Loads crates uris keyPass tree (path ++ [name]) k := by
    rw [loadSeed_v1 absent found there] at h
    obtain ⟨target, migrated, -, -⟩ := Script.andThen_value_ok h
    exact migrate_ok absent migrated
  obtain ⟨k, v1⟩ := loaded
  rcases loadSeed_migrates lawful absent found v1 with
    ⟨panic, -, ran⟩ | ⟨written, removed, migrated, ran⟩
  · rw [ran] at h
    cases h
  · rw [ran] at h ⊢
    obtain rfl : k = keypair := Except.ok.inj h
    obtain ⟨content, file, keys⟩ := migrated.removedSeed.content draw
    refine ⟨fun later => by rw [loadSeed_walletSeed file, keys], fun other content here => ?_⟩
    by_cases same : other = path ++ [name]
    · exact .inr ⟨name, k, List.find?_some found, same, same ▸ migrated.gone, same ▸ v1,
        migrated.removedSeed⟩
    · refine .inl ?_
      rw [migrated.kept other (FileTree.ne_of_absent here absent) same, here]

end Kept

/-- A `wallet.seed` that is a directory, with room for a seed file in it. -/
def nestedSeed (tree : Disk) (path : TreePath) : Bool :=
  tree.isDir (path ++ [walletSeed]) && !tree.isDir (path ++ [walletSeed] ++ [walletSeed])

theorem nestedSeed_iff : nestedSeed tree path = true ↔
    tree.node (path ++ [walletSeed]) = some .dir ∧
      tree.node (path ++ [walletSeed] ++ [walletSeed]) ≠ some .dir := by
  rw [nestedSeed, Bool.and_eq_true, FileTree.isDir_iff, Bool.not_eq_true', Bool.eq_false_iff, Ne,
    FileTree.isDir_iff]

theorem Settled.of_not_nested (lawful : crates.Lawful) {keypair : K}
    (fits : ∀ name, name ∈ draw.listing ↔ tree.present (path ++ [name]) = true)
    (shape : nestedSeed tree path = false)
    (h : ((loadSeed crates uris draw path keyPass).run tree).value = .ok keypair) :
    Settled crates uris keyPass tree ((loadSeed crates uris draw path keyPass).run tree).state path
      keypair := by
  match here : tree.node path with
  | none => exact .of_absent lawful here h
  | some (.file content) => exact .of_reading (fun draw => loadSeed_file here) h
  | some .dir =>
    match seed : tree.node (path ++ [walletSeed]) with
    | some (.file content) => exact .of_reading (fun draw => loadSeed_walletSeed seed) h
    | some .dir =>
      -- no load returns here: a directory is where the seed file would be written
      exfalso
      rw [nestedSeed, FileTree.isDir_iff.mpr seed, Bool.true_and, Bool.not_eq_false'] at shape
      have noFile : tree.isFile (path ++ [walletSeed]) = false := FileTree.not_isFile (by simp [seed])
      rw [loadSeed_present (FileTree.present_of_node seed), loadWallet_noFile noFile] at h
      obtain ⟨written, wrote, -, -⟩ := Script.andThen_value_ok h
      obtain ⟨-, -, -, put⟩ := writeMnemonic_ok wrote
      apply put.free
      rw [seedFile, FileTree.isDir_iff.mpr seed, Bool.true_or, if_pos rfl]
      exact FileTree.isDir_iff.mp shape
    | none =>
      cases found : draw.listing.find? isV1Name with
      | none => exact .of_empty_dir lawful here seed found h
      | some name => exact .of_v1 lawful fits seed found h

theorem nested_fresh {generated : String → Prop} (generator : Generator crates uris keyPass generated)
    (shape : nestedSeed tree path = true) {mnemonic : String} (new : generated mnemonic) :
    ∃ draw keypair, draw.mnemonic = mnemonic ∧ Fits generated draw tree path ∧
      uris.keypair mnemonic = some keypair ∧
      ((loadSeed crates uris draw path keyPass).run tree).value = .ok keypair ∧
      nestedSeed ((loadSeed crates uris draw path keyPass).run tree).state path = true := by
  obtain ⟨nested, free⟩ := nestedSeed_iff.mp shape
  obtain ⟨listing, names⟩ := tree.exists_listing path
  obtain ⟨keypair, key⟩ := generator.keyed mnemonic new
  let draw : Draw := { plainDraw with mnemonic := mnemonic, listing := listing }
  obtain ⟨content, sealed_⟩ := generator.encrypts draw new
  have keyOf : keypairOf uris mnemonic = .ok keypair := by
    rw [keypairOf, key]
  obtain ⟨after, put, ran⟩ := loadSeed_nested nested free sealed_ keyOf
  refine ⟨draw, keypair, rfl, ⟨new, names⟩, key, by rw [ran], ?_⟩
  rw [ran]
  refine nestedSeed_iff.mpr ⟨?_, ?_⟩
  · rw [FileTree.write_other put ?_, nested]
    exact fun same => absurd (congrArg List.length same) (by simp)
  · rw [FileTree.read_iff.mp (FileTree.read_write put)]
    intro same
    cases same

theorem not_stable_of_nested {generated : String → Prop}
    (generator : Generator crates uris keyPass generated) (shape : nestedSeed tree path = true) :
    ¬ Stable crates uris generated keyPass tree path := by
  intro stable
  obtain ⟨first, second, newFirst, newSecond, apart⟩ := generator.varied
  obtain ⟨draw, keypair, -, fits, key, loaded, still⟩ := nested_fresh generator shape newFirst
  obtain ⟨later, other, -, fits', key', loaded', -⟩ := nested_fresh generator still newSecond
  have again := (stable draw keypair fits loaded).1 later fits'
  rw [loaded'] at again
  obtain rfl := Except.ok.inj again
  exact apart (key.trans key'.symm)

/-- Loading is stable if and only if no directory with room for a seed file
stands where `wallet.seed` is looked for. -/
theorem loadSeed_stable_iff (lawful : crates.Lawful) {generated : String → Prop}
    (generator : Generator crates uris keyPass generated) (tree : Disk) (path : TreePath) :
    Stable crates uris generated keyPass tree path ↔ nestedSeed tree path = false := by
  constructor
  · intro stable
    by_contra shape
    rw [Bool.not_eq_false] at shape
    exact not_stable_of_nested generator shape stable
  · intro shape draw keypair fits h
    obtain ⟨again, kept⟩ := Settled.of_not_nested lawful fits.2 shape h
    exact ⟨fun later _ => again later, kept⟩

def isPhrase (text : String) : Bool := text.toList.all phraseChar

theorem clear_generator (keyPass : String) :
    Generator clearCrates spelledUris keyPass fun text => isPhrase text = true where
  encrypts draw _ := by
    obtain ⟨content, made⟩ :=
      clearCrates_encrypts draw.salt draw.nonce draw.mnemonic keyPass false
    refine ⟨content, ?_⟩
    rw [encrypted, made]
    rfl
  keyed mnemonic phrase := by
    have bare : mnemonic.toList.dropWhile phraseChar = [] :=
      List.dropWhile_eq_nil_iff.mpr fun c inside => List.all_eq_true.mp phrase c inside
    refine ⟨_, if_pos ?_⟩
    rw [shaped, bare]
  varied := ⟨"muscle wing great", "bounce arctic guess", by decide, by decide, by decide⟩

theorem loadSeed_stable_plain : Stable clearCrates spelledUris (fun text => isPhrase text = true)
    "pass" plainDisk [] :=
  (loadSeed_stable_iff clearCrates_lawful (clear_generator "pass") plainDisk []).mpr rfl

/-- A root with an empty directory named `wallet.seed`. -/
def nestedDisk : Disk := (FileTree.empty.createDirAll [walletSeed]).getD FileTree.empty

theorem nested_seed_unstable :
    ¬ Stable clearCrates spelledUris (fun text => isPhrase text = true) "pass" nestedDisk [] :=
  not_stable_of_nested (clear_generator "pass") rfl

end Identity

end WalletDaemon.WalletLoader
