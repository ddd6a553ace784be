import WalletDaemon.WalletLoader

/-! Rewriting a v1 seed file. At each state between two file operations some
file loads to the key pair that the v1 file loaded to. -/

namespace WalletDaemon.WalletLoader

open Crypto

section Trimmed

theorem trimMatches_padded {p : Char → Bool} {before body after : List Char}
    (head : ∀ c, body.head? = some c → p c = false)
    (last : ∀ c, body.getLast? = some c → p c = false) (nonempty : body ≠ [])
    (left : ∀ c ∈ before, p c = true) (right : ∀ c ∈ after, p c = true) :
    trimMatches p (before ++ body ++ after) = body := by
  have front : ∀ rest, (body ++ rest).dropWhile p = body ++ rest := by
    intro rest
    cases body with
    | nil => exact absurd rfl nonempty
    | cons c body =>
      rw [List.cons_append, List.dropWhile_cons_of_neg]
      simp [head c rfl]
  have back : body.reverse.dropWhile p = body.reverse := by
    cases reversed : body.reverse with
    | nil => rfl
    | cons c rest =>
      rw [List.dropWhile_cons_of_neg]
      simp [last c (by rw [← List.head?_reverse, reversed, List.head?_cons])]
  rw [trimMatches, List.append_assoc, List.dropWhile_append_of_pos left, front, List.rdropWhile,
    List.reverse_append, List.dropWhile_append_of_pos, back, List.reverse_reverse]
  intro c inside
  exact right c (List.mem_reverse.mp inside)

theorem isWhitespace_of_jsonSpace {c : Char} (h : jsonSpace c = true) : isWhitespace c = true := by
  simp only [jsonSpace, Bool.or_eq_true, decide_eq_true_eq] at h
  rcases h with ((rfl | rfl) | rfl) | rfl <;> rfl

theorem Bracketed.ends {body : List Char} (h : Bracketed body) {p : Char → Bool}
    (brackets : ['\x7b', '\x7d', '[', ']'].any p = false) :
    (∀ c, body.head? = some c → p c = false) ∧ (∀ c, body.getLast? = some c → p c = false) ∧
      body ≠ [] := by
  have bracket : ∀ c ∈ ['\x7b', '\x7d', '[', ']'], p c = false := fun c inside =>
    Bool.eq_false_iff.mpr (List.any_eq_false.mp brackets c inside)
  rcases h with ⟨first, final⟩ | ⟨first, final⟩
  all_goals
    refine ⟨fun c head => ?_, fun c last => ?_, ?_⟩
    · rw [first] at head
      obtain rfl := Option.some.inj head
      exact bracket _ (by decide)
    · rw [final] at last
      obtain rfl := Option.some.inj last
      exact bracket _ (by decide)
    · rintro rfl
      cases first

theorem strip_json {before body after : List Char} (left : ∀ c ∈ before, jsonSpace c = true)
    (right : ∀ c ∈ after, jsonSpace c = true) (h : Bracketed body) :
    strip (before ++ body ++ after) = body := by
  have bare : ∀ p : Char → Bool, ['\x7b', '\x7d', '[', ']'].any p = false →
      trimMatches p body = body := by
    intro p brackets
    obtain ⟨head, last, nonempty⟩ := Bracketed.ends h brackets
    have trimmed : trimMatches p ([] ++ body ++ []) = body :=
      trimMatches_padded head last nonempty (by simp) (by simp)
    simpa using trimmed
  obtain ⟨head, last, nonempty⟩ := Bracketed.ends h (p := isWhitespace) rfl
  rw [strip, trimMatches_padded head last nonempty
    (fun c inside => isWhitespace_of_jsonSpace (left c inside))
    (fun c inside => isWhitespace_of_jsonSpace (right c inside)), bare _ rfl, bare _ rfl, bare _ rfl]

end Trimmed

section Migration

variable {K : Type} {crates : Crates} {uris : SecretUris K} {draw : Draw} {path : TreePath}
  {keyPass name : String} {tree : Disk}

theorem decryptMnemonic_of_decrypt (lawful : crates.Lawful) {text secret : String}
    (h : decrypt crates text keyPass = .ok (.ok secret)) :
    decryptMnemonic crates text = .error .encryptedSeed := by
  have version := isEncryptedV2_of_decrypt h
  unfold isEncryptedV2 at version
  split at version
  · rename_i encrypted read
    obtain ⟨before, body, after, same, left, right, bracketed, again⟩ :=
      lawful.bracketed text encrypted read
    have stripped : isEncryptedV2 crates (String.ofList (strip text.toList)) = true := by
      rw [same, strip_json left right bracketed, isEncryptedV2, again]
      exact version
    rw [decryptMnemonic]
    exact if_pos stripped
  · cases version

theorem decryptMnemonic_error {text : String} {panic : Panic}
    (h : decryptMnemonic crates text = .error panic) : panic = .encryptedSeed := by
  unfold decryptMnemonic at h
  dsimp only at h
  split at h
  · exact (Except.error.inj h).symm
  · cases h

theorem encrypted_error {mnemonic : String} {imported : Bool} {panic : Panic}
    (h : encrypted crates draw mnemonic keyPass imported = .error panic) :
    ∃ sealing, panic = .crypto sealing := by
  unfold encrypted at h
  cases made : encryptWithImported crates draw.salt draw.nonce mnemonic keyPass imported with
  | error sealing =>
    rw [made] at h
    exact ⟨sealing, (Except.error.inj h).symm⟩
  | ok content =>
    rw [made] at h
    cases h

theorem seedKeys_plain (lawful : crates.Lawful) {content : Bytes} {text mnemonic : String}
    {keypair : K} (read : fromUtf8 content = some text)
    (plain : decryptMnemonic crates text = .ok mnemonic)
    (keys : seedKeys crates uris content keyPass = .ok keypair) :
    keypairOf uris (secretOf mnemonic keyPass true) = .ok keypair := by
  unfold seedKeys at keys
  rw [read] at keys
  dsimp only at keys
  split at keys
  · cases keys
  · rename_i secret decrypted
    -- a v1 name on an encrypted file: the migration panics before it writes
    rw [decryptMnemonic_of_decrypt lawful decrypted] at plain
    cases plain
  · rw [plain] at keys
    exact keys

structure Migrated (crates : Crates) (uris : SecretUris K) (keyPass : String)
    (tree written removed : Disk) (path : TreePath) (name : String) (keypair : K) : Prop where
  writtenSeed : Loads crates uris keyPass written (path ++ [walletSeed]) keypair
  writtenV1 : Loads crates uris keyPass written (path ++ [name]) keypair
  removedSeed : Loads crates uris keyPass removed (path ++ [walletSeed]) keypair
  gone : removed.node (path ++ [name]) = none
  kept : ∀ other, other ≠ path ++ [walletSeed] → other ≠ path ++ [name] →
    removed.node other = tree.node other

theorem Migrated.of_operations {written removed : Disk} {v1 v2 : Bytes} {keypair : K}
    (file : tree.node (path ++ [name]) = some (.file v1))
    (keys : seedKeys crates uris v1 keyPass = .ok keypair)
    (same : seedKeys crates uris v2 keyPass = .ok keypair)
    (apart : path ++ [name] ≠ path ++ [walletSeed])
    (put : tree.write (path ++ [walletSeed]) v2 = some written)
    (delete : written.remove (path ++ [name]) = some removed) :
    Migrated crates uris keyPass tree written removed path name keypair := by
  have new := FileTree.read_iff.mp (FileTree.read_write put)
  have old : written.node (path ++ [name]) = some (.file v1) := by
    rw [FileTree.write_other put apart, file]
  have other : ∀ other, other ≠ path ++ [name] → removed.node other = written.node other := by
    intro other elsewhere
    rw [FileTree.remove_ok delete, Function.update_of_ne elsewhere]
  refine ⟨Loads.of_content new same, Loads.of_content old keys, Loads.of_content ?_ same, ?_, ?_⟩
  · rw [other _ apart.symm, new]
  · rw [FileTree.remove_ok delete, Function.update_self]
  · intro file notSeed notV1
    rw [other file notV1, FileTree.write_other put notSeed]

theorem migrate_cases (lawful : crates.Lawful) {content : Bytes} {keypair : K}
    (absent : tree.node (path ++ [walletSeed]) = none)
    (v1 : tree.node (path ++ [name]) = some (.file content))
    (keys : seedKeys crates uris content keyPass = .ok keypair) :
    (∃ panic, (panic = .encryptedSeed ∨ ∃ sealing, panic = .crypto sealing) ∧
      (migrate crates uris draw (path ++ [name]) keyPass).run tree = ⟨.error panic, tree, []⟩) ∨
    ∃ written removed, Migrated crates uris keyPass tree written removed path name keypair ∧
      (migrate crates uris draw (path ++ [name]) keyPass).run tree =
        ⟨.ok (path ++ [walletSeed]), removed, [written, removed]⟩ := by
  obtain ⟨text, read⟩ : ∃ text, fromUtf8 content = some text := by
    cases read : fromUtf8 content with
    | none =>
      rw [seedKeys, read] at keys
      cases keys
    | some text => exact ⟨text, rfl⟩
  have opened : readV1 tree (path ++ [name]) = .ok text := by
    rw [readV1, FileTree.read_iff.mpr v1, Option.bind_some, read]
  cases plain : decryptMnemonic crates text with
  | error panic =>
    refine .inl ⟨panic, .inl (decryptMnemonic_error plain), ?_⟩
    simp only [migrate, Script.andThen, Script.ask, opened, plain, List.append_nil]
  | ok mnemonic =>
    cases sealed_ : encrypted crates draw mnemonic keyPass true with
    | error panic =>
      refine .inl ⟨panic, .inr (encrypted_error sealed_), ?_⟩
      simp only [migrate, Script.andThen, Script.ask, opened, plain, sealed_, List.append_nil]
    | ok v2 =>
      have same : seedKeys crates uris (utf8 v2) keyPass = .ok keypair := by
        rw [seedKeys_encrypted lawful sealed_, seedKeys_plain lawful read plain keys]
      have above : tree.node (path ++ [walletSeed]).dropLast = some .dir := by
        rw [List.dropLast_concat]
        exact tree.parents path name (by rw [v1]; rfl)
      obtain ⟨written, put⟩ := FileTree.write_isSome (utf8 v2) (by simp [absent]) above
      have apart := FileTree.ne_of_absent v1 absent
      have old : written.node (path ++ [name]) = some (.file content) := by
        rw [FileTree.write_other put apart, v1]
      have new := FileTree.read_iff.mp (FileTree.read_write put)
      obtain ⟨removed, delete⟩ := FileTree.remove_isSome (FileTree.isFile_iff.mpr ⟨content, old⟩)
      have verified : (loadWallet crates uris draw (path ++ [walletSeed]) keyPass).run written =
          ⟨seedKeys crates uris (utf8 v2) keyPass, written, []⟩ := loadWallet_file new
      have again : (loadWallet crates uris draw (path ++ [name]) keyPass).run written =
          ⟨seedKeys crates uris content keyPass, written, []⟩ := loadWallet_file old
      refine .inr ⟨written, removed, .of_operations v1 keys same apart put delete, ?_⟩
      simp only [migrate, Script.andThen, Script.ask, opened, plain, sealed_, Script.change,
        List.dropLast_concat, put, verified, again, same, keys, delete]
      simp

theorem readV1_ok {file : TreePath} {text : String} (h : readV1 tree file = .ok text) :
    ∃ content, tree.node file = some (.file content) := by
  unfold readV1 at h
  cases read : tree.read file with
  | none =>
    rw [read] at h
    cases h
  | some content => exact ⟨content, FileTree.read_iff.mp read⟩

theorem migrate_ok {target : TreePath} (absent : tree.node (path ++ [walletSeed]) = none)
    (h : ((migrate crates uris draw (path ++ [name]) keyPass).run tree).value = .ok target) :
    ∃ keypair, Loads crates uris keyPass tree (path ++ [name]) keypair := by
  unfold migrate at h
  obtain ⟨text, read, h, -⟩ := Script.ask_andThen_ok h
  obtain ⟨content, v1⟩ := readV1_ok read
  obtain ⟨mnemonic, -, h, -⟩ := Script.ask_andThen_ok h
  obtain ⟨v2, -, h, -⟩ := Script.ask_andThen_ok h
  obtain ⟨written, put, h, -⟩ := Script.change_andThen_ok h
  obtain ⟨verified, -, h, -⟩ := Script.andThen_value_ok h
  obtain ⟨keypair, again, -, -⟩ := Script.andThen_value_ok h
  have quiet : (loadWallet crates uris draw ((path ++ [name]).dropLast ++ [walletSeed])
      keyPass).run written = ⟨seedKeys crates uris (utf8 v2) keyPass, written, []⟩ :=
    loadWallet_file (FileTree.read_iff.mp (FileTree.read_write put))
  rw [List.dropLast_concat] at put
  have apart := FileTree.ne_of_absent v1 absent
  have old : written.node (path ++ [name]) = some (.file content) := by
    rw [FileTree.write_other put apart, v1]
  rw [quiet] at again
  have reads : (loadWallet crates uris draw (path ++ [name]) keyPass).run written =
      ⟨seedKeys crates uris content keyPass, written, []⟩ := loadWallet_file old
  rw [reads] at again
  exact ⟨keypair, Loads.of_content v1 again⟩

theorem loadSeed_v1 (absent : tree.node (path ++ [walletSeed]) = none)
    (found : draw.listing.find? isV1Name = some name)
    (v1 : tree.present (path ++ [name]) = true) :
    (loadSeed crates uris draw path keyPass).run tree =
      ((migrate crates uris draw (path ++ [name]) keyPass).andThen fun file =>
        loadWallet crates uris draw file keyPass).run tree := by
  have missing := FileTree.not_present_iff.mpr absent
  have located : locate draw tree path = (path ++ [name], some (path ++ [name])) := by
    rw [locate, missing, if_neg Bool.false_ne_true, found]
  rw [loadSeed_dir (tree.parents path name v1), loadDirectory_present located v1]

theorem loadSeed_migrates (lawful : crates.Lawful) {keypair : K}
    (absent : tree.node (path ++ [walletSeed]) = none)
    (found : draw.listing.find? isV1Name = some name)
    (v1 : Loads crates uris keyPass tree (path ++ [name]) keypair) :
    (∃ panic, (panic = .encryptedSeed ∨ ∃ sealing, panic = .crypto sealing) ∧
      (loadSeed crates uris draw path keyPass).run tree = ⟨.error panic, tree, []⟩) ∨
    ∃ written removed, Migrated crates uris keyPass tree written removed path name keypair ∧
      (loadSeed crates uris draw path keyPass).run tree =
        ⟨.ok keypair, removed, [written, removed]⟩ := by
  obtain ⟨content, file, keys⟩ := v1.content draw
  rw [loadSeed_v1 absent found (FileTree.present_of_node file)]
  rcases migrate_cases lawful absent file keys with
    ⟨panic, kind, ran⟩ | ⟨written, removed, migrated, ran⟩
  · refine .inl ⟨panic, kind, ?_⟩
    rw [Script.andThen_of_error (by rw [ran]), ran]
  · refine .inr ⟨written, removed, migrated, ?_⟩
    rw [Script.andThen_of_ok (by rw [ran]), ran, migrated.removedSeed.2]
    rfl

/-- A migration of a v1 file that loads either panics over its encryption, with
the disk as it was, or ends with `wallet.seed` in its place. Between any two of
its file operations one of the two loads to the key pair of the v1 file. -/
theorem migration_keeps_keypair (lawful : crates.Lawful) {keypair : K}
    (absent : tree.node (path ++ [walletSeed]) = none)
    (found : draw.listing.find? isV1Name = some name)
    (v1 : Loads crates uris keyPass tree (path ++ [name]) keypair) :
    let load := (loadSeed crates uris draw path keyPass).run tree
    (∀ state ∈ tree :: load.trail, Loads crates uris keyPass state (path ++ [name]) keypair ∨
      Loads crates uris keyPass state (path ++ [walletSeed]) keypair) ∧
    (tree :: load.trail).IsChain (fun before after =>
      before.present (path ++ [name]) = true → after.present (path ++ [name]) = false →
        Loads crates uris keyPass before (path ++ [walletSeed]) keypair) ∧
    load.value ≠ .error .publicKeyMismatch ∧
    (∀ panic, load.value = .error panic →
      (panic = .encryptedSeed ∨ ∃ sealing, panic = .crypto sealing) ∧ load.state = tree) ∧
    ∀ loaded, load.value = .ok loaded → loaded = keypair ∧
      Loads crates uris keyPass load.state (path ++ [walletSeed]) keypair ∧
      load.state.present (path ++ [name]) = false := by
  intro load
  rcases loadSeed_migrates lawful absent found v1 with
    ⟨panic, kind, ran⟩ | ⟨written, removed, migrated, ran⟩
  · have same : load = ⟨.error panic, tree, []⟩ := ran
    rw [same]
    refine ⟨?_, by simp, ?_, ?_, ?_⟩
    · simp only [List.mem_singleton, forall_eq]
      exact .inl v1
    · intro mismatch
      rw [Except.error.inj mismatch] at kind
      simp at kind
    · intro other failed
      rw [← Except.error.inj failed]
      exact ⟨kind, rfl⟩
    · intro loaded ended
      cases ended
  · have same : load = ⟨.ok keypair, removed, [written, removed]⟩ := ran
    have still := FileTree.present_of_isFile migrated.writtenV1.1
    rw [same]
    refine ⟨?_, ?_, by simp, by simp, ?_⟩
    · simp only [List.mem_cons, List.not_mem_nil, or_false, forall_eq_or_imp, forall_eq]
      exact ⟨.inl v1, .inl migrated.writtenV1, .inr migrated.removedSeed⟩
    · refine .cons_cons ?_ (.cons_cons (fun _ _ => migrated.writtenSeed) (.singleton removed))
      intro _ gone
      rw [still] at gone
      cases gone
    · intro loaded ended
      exact ⟨(Except.ok.inj ended).symm, migrated.removedSeed,
        FileTree.not_present_iff.mpr migrated.gone⟩

end Migration

section PlainFile

def v1Name : String :=
  "73723235a82a0376985e4bdca417ceebc52499664ac78437e5ae074de72907a1b42b643e"

def plainContent : String := "\"muscle wing great\"\n"

def plainDraw : Draw where
  mnemonic := "bounce arctic guess"
  salt := ⟨List.replicate saltLen 7, List.length_replicate⟩
  nonce := ⟨List.replicate nonceLen 9, List.length_replicate⟩
  listing := [v1Name]

def plainDisk : Disk := FileTree.ofFile v1Name (utf8 plainContent)

theorem plainDisk_loads : Loads clearCrates spelledUris "pass" plainDisk ([] ++ [v1Name])
    "muscle wing great///pass" := by
  have file : plainDisk.node ([] ++ [v1Name]) = some (.file (utf8 plainContent)) := by
    rw [plainDisk, FileTree.ofFile_node, List.nil_append, Function.update_self]
  refine Loads.of_content file ?_
  rw [seedKeys_open clearCrates_lawful (by decide)]
  decide

theorem migration_keeps_keypair_plain :
    let load := (loadSeed clearCrates spelledUris plainDraw [] "pass").run plainDisk
    (∀ state ∈ plainDisk :: load.trail,
      Loads clearCrates spelledUris "pass" state [v1Name] "muscle wing great///pass" ∨
        Loads clearCrates spelledUris "pass" state [walletSeed] "muscle wing great///pass") ∧
    ∀ loaded, load.value = .ok loaded → loaded = "muscle wing great///pass" := by
  have absent : plainDisk.node ([] ++ [walletSeed]) = none := by
    rw [plainDisk, FileTree.ofFile_node, Function.update_of_ne (by decide)]
    rfl
  have found : plainDraw.listing.find? isV1Name = some v1Name := by decide
  have kept := migration_keeps_keypair clearCrates_lawful absent found plainDisk_loads
  exact ⟨kept.1, fun loaded ended => (kept.2.2.2.2 loaded ended).1⟩

end PlainFile

end WalletDaemon.WalletLoader
