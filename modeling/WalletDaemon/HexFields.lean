import WalletDaemon.ChainInfo

/-! Which texts the hex fields are read from. A field is meant to be `0x` and
hex digits; the reader takes what stands between the first two `x`s. Of the bytes
of a metadata field it takes what they begin with. -/

namespace WalletDaemon

open Platform

/-- Two digits a byte, in either case. -/
inductive DigitsOf : List Char → Bytes → Prop
  | nil : DigitsOf [] []
  | cons {high low : Char} {h l : Nat} {digits : List Char} {bytes : Bytes}
      (first : hexValue high = some h) (second : hexValue low = some l)
      (rest : DigitsOf digits bytes) :
      DigitsOf (high :: low :: digits) (UInt8.ofNat (16 * h + l) :: bytes)

/-- The text is exactly `0x` and the digits of the bytes. -/
def IsField (text : String) (bytes : Bytes) : Prop :=
  ∃ digits, text.toList = '0' :: 'x' :: digits ∧ DigitsOf digits bytes

/-- Digits of the bytes stand between the first `x` and the next or the end, and
the text has more than `0` before them or goes on after them. -/
def Misread (text : String) (bytes : Bytes) : Prop :=
  ∃ before digits after, text.toList = before ++ 'x' :: (digits ++ after) ∧ 'x' ∉ before ∧
    (after = [] ∨ after.head? = some 'x') ∧ DigitsOf digits bytes ∧ ¬(before = ['0'] ∧ after = [])

section Digits

theorem DigitsOf.even {digits : List Char} {bytes : Bytes} (h : DigitsOf digits bytes) :
    digits.length % 2 = 0 := by
  induction h with
  | nil => rfl
  | cons _ _ _ ih =>
    simp only [List.length_cons]
    omega

theorem DigitsOf.not_x {digits : List Char} {bytes : Bytes} (h : DigitsOf digits bytes) :
    'x' ∉ digits := by
  have none : hexValue 'x' = none := by decide
  induction h with
  | nil => simp
  | @cons high low _ _ _ _ first second _ ih =>
    have left : 'x' ≠ high := by
      rintro rfl
      simp [none] at first
    have right : 'x' ≠ low := by
      rintro rfl
      simp [none] at second
    simp [left, right, ih]

theorem hexPairs_of_digitsOf {digits : List Char} {bytes : Bytes} (h : DigitsOf digits bytes)
    (index : Nat) : hexPairs index digits = .ok bytes := by
  induction h generalizing index with
  | nil => rfl
  | cons first second _ ih => simp [hexPairs, first, second, ih, Except.map]

theorem digitsOf_of_hexPairs {index : Nat} {digits : List Char} {bytes : Bytes}
    (even : digits.length % 2 = 0) (h : hexPairs index digits = .ok bytes) :
    DigitsOf digits bytes := by
  fun_induction hexPairs index digits generalizing bytes with
  | case1 index high low rest h' l second first ih =>
    cases read : hexPairs (index + 2) rest with
    | error e => simp [read, Except.map] at h
    | ok tail =>
      simp only [read, Except.map, Except.ok.injEq] at h
      rw [← h]
      refine .cons first second (ih ?_ read)
      simpa [Nat.add_assoc] using even
  | case2 => cases h
  | case3 => cases h
  | case4 rest index short =>
    cases rest with
    | nil =>
      rw [← Except.ok.inj h]
      exact .nil
    | cons high rest =>
      cases rest with
      | nil => simp at even
      | cons low rest => exact (short high low rest rfl).elim

theorem DigitsOf.ascii {digits : List Char} {bytes : Bytes} (h : DigitsOf digits bytes) :
    ∀ c ∈ digits, c.toNat < 128 := by
  induction h with
  | nil => exact nofun
  | cons first second _ ih =>
    exact List.forall_mem_cons.mpr ⟨hexValue_ascii first,
      List.forall_mem_cons.mpr ⟨hexValue_ascii second, ih⟩⟩

theorem hexDecode_ok_iff {digits : List Char} {bytes : Bytes} :
    hexDecode digits = .ok bytes ↔ DigitsOf digits bytes := by
  unfold hexDecode
  constructor
  · intro h
    dsimp only at h
    split at h
    · cases h
    · have read := digitsOf_of_hexPairs (by omega) h
      rwa [latin_digits (ascii_of_latin read.ascii)] at read
  · intro h
    dsimp only
    rw [latin_digits h.ascii, if_neg (by simp [h.even]), hexPairs_of_digitsOf h]

end Digits

section Field

theorem afterX_eq_some_iff {text : String} {digits : List Char} :
    afterX text = some digits ↔ ∃ before after, text.toList = before ++ 'x' :: (digits ++ after) ∧
      'x' ∉ before ∧ 'x' ∉ digits ∧ (after = [] ∨ after.head? = some 'x') := by
  unfold afterX
  constructor
  · intro h
    split at h
    · cases h
    rename_i c rest found
    have first : c = 'x' := by
      have head := List.head?_dropWhile_not (fun c => decide (c ≠ 'x')) text.toList
      rw [found] at head
      simpa using head
    refine ⟨text.toList.takeWhile (· ≠ 'x'), rest.dropWhile (· ≠ 'x'), ?_, ?_, ?_, ?_⟩
    · rw [← Option.some.inj h, List.takeWhile_append_dropWhile]
      conv_lhs => rw [← List.takeWhile_append_dropWhile (p := fun c => decide (c ≠ 'x'))
        (l := text.toList), found, first]
    · intro inside
      simpa using List.mem_takeWhile_imp inside
    · intro inside
      rw [← Option.some.inj h] at inside
      simpa using List.mem_takeWhile_imp inside
    · cases left : rest.dropWhile (· ≠ 'x') with
      | nil => exact .inl rfl
      | cons next later =>
        have head := List.head?_dropWhile_not (fun c => decide (c ≠ 'x')) rest
        rw [left] at head
        exact .inr (by simpa using head)
  · rintro ⟨before, after, same, clear, digitsClear, next⟩
    have skip : ∀ c ∈ before, decide (c ≠ 'x') = true := fun c inside =>
      decide_eq_true fun equal => clear (equal ▸ inside)
    have keep : ∀ c ∈ digits, decide (c ≠ 'x') = true := fun c inside =>
      decide_eq_true fun equal => digitsClear (equal ▸ inside)
    rw [same, List.dropWhile_append_of_pos skip, List.dropWhile_cons_of_neg (by simp)]
    dsimp only
    rw [List.takeWhile_append_of_pos keep]
    cases after with
    | nil => simp
    | cons c later =>
      have first : c = 'x' := by simpa using next
      simp [first]

/-- The reader takes a field, and takes a text it misreads for one. -/
theorem prefixedBytes_ok_iff {missing text : String} {bytes : Bytes} :
    prefixedBytes missing text = .ok bytes ↔ IsField text bytes ∨ Misread text bytes := by
  have read : prefixedBytes missing text = .ok bytes ↔
      ∃ digits, afterX text = some digits ∧ DigitsOf digits bytes := by
    unfold prefixedBytes
    cases afterX text with
    | none => simp
    | some digits =>
      simp only [Option.some.injEq, exists_eq_left', ← hexDecode_ok_iff]
      cases hexDecode digits <;> simp [Except.mapError]
  rw [read]
  constructor
  · rintro ⟨digits, between, spelled⟩
    obtain ⟨before, after, same, clear, -, next⟩ := afterX_eq_some_iff.mp between
    by_cases exact_ : before = ['0'] ∧ after = []
    · obtain ⟨rfl, rfl⟩ := exact_
      exact .inl ⟨digits, by simpa using same, spelled⟩
    · exact .inr ⟨before, digits, after, same, clear, next, spelled, exact_⟩
  · rintro (⟨digits, same, spelled⟩ | ⟨before, digits, after, same, clear, next, spelled, -⟩)
    · exact ⟨digits, afterX_eq_some_iff.mpr
        ⟨['0'], [], by simpa using same, by decide, spelled.not_x, .inl rfl⟩, spelled⟩
    · exact ⟨digits, afterX_eq_some_iff.mpr ⟨before, after, same, clear, spelled.not_x, next⟩,
        spelled⟩

theorem Misread.not_isField {text : String} {bytes other : Bytes} (h : Misread text bytes) :
    ¬ IsField text other := by
  rintro ⟨digits, field, spelled⟩
  obtain ⟨before, digits', after, same, clear, next, -, more⟩ := h
  rw [field] at same
  apply more
  cases before with
  | nil => simp at same
  | cons c before =>
    simp only [List.cons_append, List.cons.injEq] at same
    obtain ⟨rfl, same⟩ := same
    cases before with
    | nil =>
      simp only [List.nil_append, List.cons.injEq, true_and] at same
      refine ⟨rfl, ?_⟩
      rcases next with rfl | next
      · rfl
      · have inside : 'x' ∈ digits := by
          rw [same]
          exact List.mem_append_right _ (List.mem_of_head? next)
        exact absurd inside spelled.not_x
    | cons c before =>
      simp only [List.cons_append, List.cons.injEq] at same
      exact absurd (by simp [← same.1]) clear

end Field

section Sites

/-- The payload is what all of the row's field spells. -/
def RequestWhole (data : PendingTransaction) : Prop :=
  ∀ request, TransactionRequest.tryFrom data = .ok request →
    IsField data.encodedData request.payload

/-- The hash is what all of the reply's field spells. -/
def BlockHashWhole (send : Send (Option CurrentBlock)) (block : CurrentBlock) : Prop :=
  executeQuery send none = .ok (some block) →
    ∀ info, ChainInfo.getBlockAndSpecVersion send = .ok (.ok info) →
      IsField block.currentBlockHash info.blockHash

/-- The metadata that the bytes of a field begin with. -/
def Accepted (subxt : Subxt) (bytes : Bytes) (metadata : Metadata) : Prop :=
  ∃ encoded rest, ChainInfo.optionBytes bytes = .ok (some encoded, rest) ∧
    subxt.decodeMetadata encoded = .ok metadata

/-- The metadata that all the bytes of a field stand for. -/
def MetadataOf (subxt : Subxt) (bytes : Bytes) (metadata : Metadata) : Prop :=
  ∃ encoded, ChainInfo.optionBytes bytes = .ok (some encoded, []) ∧
    subxt.decodeMetadata encoded = .ok metadata ∧
    ∀ n < encoded.length, subxt.decodeMetadata (encoded.take n) ≠ .ok metadata

/-- The bytes go on behind the optional bytes they begin with, or those behind
their metadata. -/
def Overlong (subxt : Subxt) (bytes : Bytes) : Prop :=
  ∃ encoded rest metadata, ChainInfo.optionBytes bytes = .ok (some encoded, rest) ∧
    subxt.decodeMetadata encoded = .ok metadata ∧
    (rest ≠ [] ∨ ∃ n < encoded.length, subxt.decodeMetadata (encoded.take n) = .ok metadata)

/-- The metadata is decoded from what all of the reply's field spells. -/
def MetadataWhole (subxt : Subxt) (key : ChainKey) (send : Send (Option ChainInfo))
    (chain : ChainInfo) : Prop :=
  executeQuery send none = .ok (some chain) →
    ∀ info, ChainInfo.updateMetadataAndSubstrateClient subxt key send = .ok info →
      ∃ bytes, IsField chain.metadata bytes ∧ MetadataOf subxt bytes info.client.metadata

theorem TransactionRequest.tryFrom_payload {data : PendingTransaction}
    {request : TransactionRequest} (h : tryFrom data = .ok request) :
    prefixedBytes "missing 0x" data.encodedData = .ok request.payload ∧
      (∃ network, data.network = .known network) ∧ ∃ chain, data.chain = .known chain := by
  unfold tryFrom at h
  split at h
  · cases h
  rename_i network known
  split at h
  · cases h
  rename_i chain known'
  split at h
  · cases h
  rename_i payload read
  rw [← Except.ok.inj h]
  refine ⟨read, ?_, ?_⟩
  · cases given : data.network with
    | known network => exact ⟨network, rfl⟩
    | other name => simp [given, Enumerated.tryInto] at known
  · cases given : data.chain with
    | known chain => exact ⟨chain, rfl⟩
    | other name => simp [given, Enumerated.tryInto] at known'

theorem requestWhole_iff (data : PendingTransaction) :
    RequestWhole data ↔ ∀ network chain, data.network = .known network →
      data.chain = .known chain → ∀ bytes, ¬ Misread data.encodedData bytes := by
  constructor
  · intro whole network chain known known' bytes misread
    have read : prefixedBytes "missing 0x" data.encodedData = .ok bytes :=
      prefixedBytes_ok_iff.mpr (.inr misread)
    refine misread.not_isField (whole ?_ ?_)
    rotate_left
    · unfold TransactionRequest.tryFrom
      rw [known, known', read]
      rfl
  · intro clear request made
    obtain ⟨read, ⟨network, known⟩, chain, known'⟩ := TransactionRequest.tryFrom_payload made
    rcases prefixedBytes_ok_iff.mp read with field | misread
    · exact field
    · exact absurd misread (clear network chain known known' _)

theorem ChainInfo.getBlockAndSpecVersion_hash {send : Send (Option CurrentBlock)}
    {block : CurrentBlock} {info : BlockInfo} (reply : executeQuery send none = .ok (some block))
    (h : getBlockAndSpecVersion send = .ok (.ok info)) :
    prefixedBytes "decode block hash failed" block.currentBlockHash = .ok info.blockHash := by
  unfold getBlockAndSpecVersion at h
  rw [reply] at h
  dsimp only at h
  split at h
  · cases h
  rename_i blockHash read
  split at h
  · rw [← Except.ok.inj (Except.ok.inj h)]
    exact read
  · cases h

theorem blockHashWhole_iff {send : Send (Option CurrentBlock)} {block : CurrentBlock}
    (reply : executeQuery send none = .ok (some block)) :
    BlockHashWhole send block ↔ ∀ bytes, Misread block.currentBlockHash bytes →
      bytes.length ≠ 32 := by
  constructor
  · intro whole bytes misread length
    have read : prefixedBytes "decode block hash failed" block.currentBlockHash = .ok bytes :=
      prefixedBytes_ok_iff.mpr (.inr misread)
    refine misread.not_isField (whole reply ?_ ?_)
    rotate_left
    · unfold ChainInfo.getBlockAndSpecVersion
      rw [reply]
      dsimp only
      rw [read]
      exact if_pos length
  · intro clear _ info got
    have length := (ChainInfo.getBlockAndSpecVersion_ok got).1
    rcases prefixedBytes_ok_iff.mp (ChainInfo.getBlockAndSpecVersion_hash reply got) with
      field | misread
    · exact field
    · exact absurd length (clear _ misread)

theorem ChainInfo.updateMetadata_ok_iff (subxt : Subxt) (key : ChainKey)
    {send : Send (Option ChainInfo)} {chain : ChainInfo}
    (reply : executeQuery send none = .ok (some chain)) (metadata : Metadata) :
    (∃ info, updateMetadataAndSubstrateClient subxt key send = .ok info ∧
      info.client.metadata = metadata) ↔
      chain.metadataVersion ≤ 16 ∧ ∃ bytes,
        prefixedBytes "missing 0x" chain.metadata = .ok bytes ∧ Accepted subxt bytes metadata := by
  unfold updateMetadataAndSubstrateClient Accepted
  rw [reply]
  dsimp only
  by_cases late : chain.metadataVersion > 16
  · simp [late, Int.not_le.mpr late]
  rw [if_neg late]
  simp only [Int.not_lt.mp late, true_and]
  cases prefixedBytes "missing 0x" chain.metadata with
  | error e => simp
  | ok bytes =>
    cases read : optionBytes bytes with
    | error e => simp [read]
    | ok result =>
      obtain ⟨_ | encoded, rest⟩ := result
      · simp [read]
      · cases decoded : subxt.decodeMetadata encoded <;> simp [read, decoded]

theorem IsField.unique {text : String} {bytes other : Bytes} (h : IsField text bytes)
    (h' : IsField text other) : bytes = other := by
  obtain ⟨digits, same, spelled⟩ := h
  obtain ⟨digits', same', spelled'⟩ := h'
  obtain rfl : digits = digits' := by simpa using same.symm.trans same'
  exact Except.ok.inj ((hexDecode_ok_iff.mpr spelled).symm.trans (hexDecode_ok_iff.mpr spelled'))

theorem MetadataOf.not_overlong {subxt : Subxt} {bytes : Bytes} {metadata : Metadata}
    (h : MetadataOf subxt bytes metadata) : ¬ Overlong subxt bytes := by
  obtain ⟨encoded, read, decoded, all⟩ := h
  rintro ⟨encoded', rest, metadata', read', decoded', spare⟩
  obtain ⟨same, rfl⟩ := Prod.mk.inj (Except.ok.inj (read.symm.trans read'))
  obtain rfl := Option.some.inj same
  obtain rfl := Except.ok.inj (decoded.symm.trans decoded')
  rcases spare with rest | ⟨n, shorter, early⟩
  · exact rest rfl
  · exact all n shorter early

theorem Accepted.whole {subxt : Subxt} {bytes : Bytes} {metadata : Metadata}
    (h : Accepted subxt bytes metadata) (exactly : ¬ Overlong subxt bytes) :
    MetadataOf subxt bytes metadata := by
  obtain ⟨encoded, rest, read, decoded⟩ := h
  have nothing : rest = [] := by
    by_contra more
    exact exactly ⟨encoded, rest, metadata, read, decoded, .inl more⟩
  subst nothing
  exact ⟨encoded, read, decoded, fun n shorter early =>
    exactly ⟨encoded, [], metadata, read, decoded, .inr ⟨n, shorter, early⟩⟩⟩

theorem metadataWhole_iff (subxt : Subxt) (key : ChainKey) {send : Send (Option ChainInfo)}
    {chain : ChainInfo} (reply : executeQuery send none = .ok (some chain)) :
    MetadataWhole subxt key send chain ↔ (chain.metadataVersion ≤ 16 → ∀ bytes,
      (Misread chain.metadata bytes → ∀ metadata, ¬ Accepted subxt bytes metadata) ∧
        (IsField chain.metadata bytes → ¬ Overlong subxt bytes)) := by
  constructor
  · intro whole early bytes
    have made (metadata : Metadata) (read : prefixedBytes "missing 0x" chain.metadata = .ok bytes)
        (stands : Accepted subxt bytes metadata) :=
      (ChainInfo.updateMetadata_ok_iff subxt key reply metadata).mpr ⟨early, bytes, read, stands⟩
    constructor
    · intro misread metadata stands
      obtain ⟨info, ran, -⟩ := made metadata (prefixedBytes_ok_iff.mpr (.inr misread)) stands
      obtain ⟨_, field, -⟩ := whole reply info ran
      exact misread.not_isField field
    · rintro field ⟨encoded, rest, metadata, read, decoded, spare⟩
      obtain ⟨info, ran, -⟩ := made metadata (prefixedBytes_ok_iff.mpr (.inl field))
        ⟨encoded, rest, read, decoded⟩
      obtain ⟨other, field', all⟩ := whole reply info ran
      obtain rfl := field.unique field'
      exact all.not_overlong ⟨encoded, rest, metadata, read, decoded, spare⟩
  · intro clear _ info made
    obtain ⟨early, bytes, read, stands⟩ :=
      (ChainInfo.updateMetadata_ok_iff subxt key reply info.client.metadata).mp ⟨info, made, rfl⟩
    obtain ⟨refused, exactly⟩ := clear early bytes
    rcases prefixedBytes_ok_iff.mp read with field | misread
    · exact ⟨bytes, field, stands.whole (exactly field)⟩
    · exact absurd stands (refused misread _)

end Sites

/-- A field is read whole or refused exactly when it is no misread text, and no metadata
field with bytes to spare, that the rest of the reply would be accepted with. -/
theorem hexFields_whole_iff (data : PendingTransaction) (blockSend : Send (Option CurrentBlock))
    (block : CurrentBlock) (subxt : Subxt) (key : ChainKey) (infoSend : Send (Option ChainInfo))
    (info : ChainInfo) :
    (RequestWhole data ↔ ∀ network chain, data.network = .known network →
      data.chain = .known chain → ∀ bytes, ¬ Misread data.encodedData bytes) ∧
    (BlockHashWhole blockSend block ↔ (executeQuery blockSend none = .ok (some block) →
      ∀ bytes, Misread block.currentBlockHash bytes → bytes.length ≠ 32)) ∧
    (MetadataWhole subxt key infoSend info ↔ (executeQuery infoSend none = .ok (some info) →
      info.metadataVersion ≤ 16 → ∀ bytes,
        (Misread info.metadata bytes → ∀ metadata, ¬ Accepted subxt bytes metadata) ∧
          (IsField info.metadata bytes → ¬ Overlong subxt bytes))) := by
  refine ⟨requestWhole_iff data, ?_, ?_⟩
  · by_cases reply : executeQuery blockSend none = .ok (some block)
    · rw [blockHashWhole_iff reply]
      simp only [reply, forall_const]
    · simp [BlockHashWhole, reply]
  · by_cases reply : executeQuery infoSend none = .ok (some info)
    · rw [metadataWhole_iff subxt key reply]
      simp only [reply, forall_const]
    · simp [MetadataWhole, reply]

/-- What follows a second `x` is dropped. -/
theorem request_cut_short :
    ¬ RequestWhole ⟨"1", "0x0000x01", none, .known .enjin, .known .matrix, false, none⟩ := by
  intro whole
  have made : TransactionRequest.tryFrom
      ⟨"1", "0x0000x01", none, .known .enjin, .known .matrix, false, none⟩ =
        .ok ⟨"1", none, .enjin, .matrix, [0, 0], none⟩ := by rfl
  obtain ⟨digits, same, spelled⟩ := whole _ made
  have digits_eq : digits = "0000x01".toList := by simpa using same.symm
  exact spelled.not_x (by rw [digits_eq]; decide)

end WalletDaemon
