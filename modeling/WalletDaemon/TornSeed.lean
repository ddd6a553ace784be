import WalletDaemon.SeedMigration

/-! A seed file of which only the beginning was written. -/

namespace WalletDaemon.WalletLoader

open Crypto

variable {K : Type} {crates : Crates} {uris : SecretUris K} {keyPass : String}

theorem trimMatches_head {p : Char → Bool} {c : Char} (h : p c = false) (rest : List Char) :
    ∃ kept, trimMatches p (c :: rest) = c :: kept := by
  have front : (c :: rest).dropWhile p = c :: rest := by
    rw [List.dropWhile_cons_of_neg]
    simp [h]
  rw [trimMatches, front]
  have part := List.rdropWhile_prefix p (c :: rest)
  cases trimmed : List.rdropWhile p (c :: rest) with
  | nil =>
    have all := List.rdropWhile_eq_nil_iff.mp trimmed c List.mem_cons_self
    rw [h] at all
    cases all
  | cons d kept =>
    rw [trimmed] at part
    exact ⟨kept, by rw [(List.cons_prefix_cons.mp part).1]⟩

theorem strip_brace (rest : List Char) : ∃ kept, strip ('\x7b' :: rest) = '\x7b' :: kept := by
  unfold strip
  obtain ⟨first, blanks⟩ := trimMatches_head (p := isWhitespace) (c := '\x7b') rfl rest
  rw [blanks]
  obtain ⟨second, quotes⟩ := trimMatches_head (p := (· = '"')) (c := '\x7b') rfl first
  rw [quotes]
  obtain ⟨third, lines⟩ := trimMatches_head (p := (· = '\n')) (c := '\x7b') rfl second
  rw [lines]
  exact trimMatches_head rfl third

theorem SecretUris.Grammar.brace (grammar : uris.Grammar) {secret : String} {rest : List Char}
    (h : secret.toList = '\x7b' :: rest) : keypairOf uris secret = .error .invalidUri := by
  have unshaped : shaped secret = false := by
    rw [shaped, h, List.dropWhile_cons_of_neg]
    · rfl
    · decide
  cases found : uris.keypair secret with
  | none => rw [keypairOf, found]
  | some keypair =>
    rw [grammar.phrase secret keypair found] at unshaped
    cases unshaped

variable {salt : Salt} {nonce : SealNonce} {mnemonic content : String} {imported : Bool}
  {torn : Bytes}

theorem encryptWithImported_content
    (h : encryptWithImported crates salt nonce mnemonic keyPass imported = .ok content) :
    ∃ fields, open_ fields = true ∧ content.toList = '\x7b' :: (fields ++ ['\x7d']) := by
  unfold encryptWithImported at h
  split at h
  · cases h
  · cases h
  split at h
  · cases h
  rename_i ciphertext _
  rw [← Except.ok.inj h]
  exact ⟨_, open_fields salt.1 nonce.1 ciphertext imported, String.toList_ofList⟩

/-- The beginning of an envelope, if there is any, loads to no key pair. -/
theorem seedKeys_torn (lawful : crates.Lawful) (grammar : uris.Grammar)
    (h : encryptWithImported crates salt nonce mnemonic keyPass imported = .ok content)
    (part : torn <+: utf8 content) (proper : torn ≠ utf8 content) (some_ : torn ≠ []) :
    ∃ panic, seedKeys crates uris torn keyPass = .error panic := by
  obtain ⟨fields, unclosed, spelled⟩ := encryptWithImported_content h
  cases read : fromUtf8 torn with
  | none => exact ⟨.unableToRead, by rw [seedKeys, read]⟩
  | some text =>
    have bytes := utf8_of_fromUtf8 read
    have within := fromUtf8_part read part
    rw [spelled, ← List.cons_append, List.prefix_concat_iff] at within
    rcases within with whole | within
    · have same : text = content := String.toList_inj.mp (by rw [whole, spelled, List.cons_append])
      exact absurd (by rw [← bytes, same]) proper
    -- what is torn has lost the one closing brace, so nothing reads it as JSON
    have unclosed : open_ text.toList = true :=
      open_of_subset (open_cons rfl unclosed) within.subset
    cases letters : text.toList with
    | nil =>
      have blank : text = "" := String.toList_inj.mp letters
      rw [blank] at bytes
      exact absurd bytes.symm some_
    | cons c rest =>
      rw [letters] at within
      obtain rfl := (List.cons_prefix_cons.mp within).1
      obtain ⟨kept, stripped⟩ := strip_brace rest
      refine ⟨.invalidUri, ?_⟩
      rw [← bytes, seedKeys_open lawful unclosed, letters, stripped]
      apply grammar.brace
      rw [String.toList_append, String.toList_append, String.toList_ofList, List.append_assoc,
        List.cons_append]

/-- An empty seed file loads to the key pair of the development phrase. -/
theorem seedKeys_empty (lawful : crates.Lawful) (grammar : uris.Grammar) :
    seedKeys crates uris [] keyPass = keypairOf uris (devPhrase ++ "///" ++ keyPass) := by
  have plain : seedKeys crates uris (utf8 "") keyPass =
      keypairOf uris (String.ofList (strip "".toList) ++ "///" ++ keyPass) := seedKeys_open lawful rfl
  have missing : keypairOf uris ("///" ++ keyPass) =
      keypairOf uris (devPhrase ++ "///" ++ keyPass) := by
    rw [keypairOf, grammar.missing, keypairOf]
  exact plain.trans missing

/-- What a file holds loads to this secret's key pair, or does not load. -/
def LoadsNoOther (crates : Crates) (uris : SecretUris K) (keyPass : String) (content : Bytes)
    (secret : String) : Prop :=
  ∀ draw tree path keypair, tree.node path = some (.file content) →
    ((loadWallet crates uris draw path keyPass).run tree).value = .ok keypair →
      uris.keypair secret = some keypair

theorem loadsNoOther_iff {secret : String} : LoadsNoOther crates uris keyPass torn secret ↔
    ∀ keypair, seedKeys crates uris torn keyPass = .ok keypair →
      uris.keypair secret = some keypair := by
  constructor
  · intro safe keypair keys
    have file : (FileTree.ofFile walletSeed torn).node [walletSeed] = some (.file torn) := by
      rw [FileTree.ofFile_node, Function.update_self]
    refine safe plainDraw _ _ keypair file ?_
    rw [loadWallet_file file, keys]
  · intro safe draw tree path keypair file loaded
    rw [loadWallet_file file] at loaded
    exact safe keypair loaded

/-- Of the beginnings of a seed file only the empty one may load, and it loads
to the development phrase with the key pass. -/
theorem torn_seed_iff (lawful : crates.Lawful) (grammar : uris.Grammar)
    (h : encryptWithImported crates salt nonce mnemonic keyPass imported = .ok content)
    (part : torn <+: utf8 content) (proper : torn ≠ utf8 content) :
    LoadsNoOther crates uris keyPass torn (secretOf mnemonic keyPass imported) ↔
      torn ≠ [] ∨ uris.keypair (devPhrase ++ "///" ++ keyPass) = none ∨
        uris.keypair (devPhrase ++ "///" ++ keyPass) =
          uris.keypair (secretOf mnemonic keyPass imported) := by
  rw [loadsNoOther_iff]
  by_cases blank : torn = []
  · rw [blank, seedKeys_empty lawful grammar, keypairOf]
    cases uris.keypair (devPhrase ++ "///" ++ keyPass) with
    | none => simp
    | some keypair => simp [eq_comm]
  · obtain ⟨panic, fails⟩ := seedKeys_torn lawful grammar h part proper blank
    simp [fails, blank]

def plainSeal : String :=
  (encryptWithImported clearCrates plainDraw.salt plainDraw.nonce "muscle wing great" "pass"
    false).toOption.getD ""

theorem plainSeal_made : encryptWithImported clearCrates plainDraw.salt plainDraw.nonce
    "muscle wing great" "pass" false = .ok plainSeal := rfl

theorem torn_seed_iff_brace : LoadsNoOther clearCrates spelledUris "pass" (utf8 "\x7b")
    (secretOf "muscle wing great" "pass" false) := by
  obtain ⟨fields, -, spelled⟩ := encryptWithImported_content plainSeal_made
  have split : plainSeal = "\x7b" ++ String.ofList (fields ++ ['\x7d']) := by
    apply String.toList_inj.mp
    rw [spelled, String.toList_append, @String.toList_ofList (fields ++ _)]
    rfl
  have part : utf8 "\x7b" <+: utf8 plainSeal := by
    rw [split, utf8_append]
    exact List.prefix_append _ _
  have proper : utf8 "\x7b" ≠ utf8 plainSeal := by
    intro same
    rw [← utf8_inj same] at spelled
    simpa using congrArg List.length spelled
  exact (torn_seed_iff clearCrates_lawful spelledUris_grammar plainSeal_made part proper).mpr
    (.inl (by decide))

/-- A seed file that was truncated and not written is another wallet. -/
theorem empty_seed_is_development :
    encryptWithImported clearCrates plainDraw.salt plainDraw.nonce "muscle wing great" "pass" false =
        .ok plainSeal ∧ [] <+: utf8 plainSeal ∧ [] ≠ utf8 plainSeal ∧
      ¬ LoadsNoOther clearCrates spelledUris "pass" [] (secretOf "muscle wing great" "pass" false) := by
  refine ⟨plainSeal_made, List.nil_prefix, ?_, ?_⟩
  · intro same
    obtain ⟨fields, -, spelled⟩ := encryptWithImported_content plainSeal_made
    have blank : utf8 "" = utf8 plainSeal := same
    rw [← utf8_inj blank] at spelled
    cases spelled
  · rw [loadsNoOther_iff, seedKeys_empty clearCrates_lawful spelledUris_grammar]
    intro safe
    have other := safe (devPhrase ++ "///" ++ "pass") (by decide)
    revert other
    decide

end WalletDaemon.WalletLoader
