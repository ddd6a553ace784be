import WalletDaemon.FuelTankReading

/-! Signing a dispatch that is signed already.
Where the arguments end is said both ways round: a cut of the transaction into
arguments that nest no deeper than the visitor allows is the one it finds, and
there is no other. -/

namespace WalletDaemon.Measure

open Scale Reader

section Shallow

theorem visitItems_shallow {visit : Item → Bytes → Measured} {read : Item → Decoding Value}
    {skip : Item → Bytes → Except Stop Bytes} {skips : Bool} {start : Bytes} {n : Nat}
    (one : ∀ a input rest v, read a input = .ok (v, rest) → v.depth + 1 ≤ n →
      visit a input = some (.ok (), rest))
    {as : List Item} {input rest : Bytes} {vs : List Value}
    (values : each read as input = .ok (vs, rest)) (shallow : unnamedDepth vs ≤ n) :
    visitItems visit skip skips start as input = some (.ok (), rest) := by
  induction as generalizing input vs with
  | nil =>
    simp only [each, done, Except.ok.injEq, Prod.mk.injEq] at values
    rw [← values.2]
    rfl
  | cons a as ih =>
    obtain ⟨v, middle, vs', head, tail, rfl⟩ := each_cons_ok.mp values
    obtain ⟨here, later⟩ := Nat.max_le.mp shallow
    unfold visitItems
    rw [one a input middle v head here]
    exact ih tail later

theorem measureItem_shallow (registry : PortableRegistry) {stack depth : Nat} {a : Item}
    {input rest : Bytes} {v : Value} (value : readItem registry stack a input = .ok (v, rest))
    (shallow : depth + v.depth ≤ maxNesting) :
    measureItem registry stack depth a input = some (.ok (), rest) := by
  induction stack generalizing depth a input rest v with
  | zero => simp [readItem, decode, fail] at value
  | succ stack ih =>
    have nested := readItem_ok value
    have allowed : ¬ depth > maxNesting := by omega
    rw [measureItem_succ, if_neg allowed]
    cases found : contents registry a input with
    | leaf result left =>
      rw [found] at nested
      cases result with
      | error e => simp [Except.map] at nested
      | ok read =>
        obtain rfl : read.2 = rest := Except.ok.inj nested.1
        rfl
    | inner b =>
      rw [found] at nested
      exact ih nested shallow
    | items skips as build left =>
      rw [found] at nested
      obtain ⟨vs, values, depthEq⟩ := nested
      exact visitItems_shallow (n := maxNesting - depth)
        (fun b input rest w head below => ih head (by omega)) values (by omega)

end Shallow

end WalletDaemon.Measure

namespace WalletDaemon.FuelTank

open Scale Reader WalletDaemon.Measure

section Cuts

variable (scale : ScaleLibrary) (metadata : Metadata)

/-- `part` is one argument of type `ty` that the visitor reads to its end. -/
def Ends (ty : TypeId) (part : Bytes) : Prop :=
  ∃ v, decode metadata.types anyBytes scale.stack false ty part = .ok (v, []) ∧
    v.depth ≤ maxNesting

variable {scale metadata}

theorem Ends.measured {ty : TypeId} {part : Bytes} (ends : Ends scale metadata ty part) :
    Measured scale metadata ty part := by
  obtain ⟨v, read, -⟩ := ends
  exact ⟨v, read⟩

theorem Measured.extends {ty : TypeId} {part : Bytes} {v : Value}
    (read : decode metadata.types anyBytes scale.stack false ty part = .ok (v, []))
    (tail : Bytes) :
    decode metadata.types anyBytes scale.stack false ty (part ++ tail) = .ok (v, tail) := by
  obtain ⟨used, cut, anyTail⟩ := decode_local _ _ _ _ _ _ _ _ read
  rw [List.append_nil] at cut
  rw [cut]
  exact anyTail tail

theorem Ends.measure {ty : TypeId} {part : Bytes} (ends : Ends scale metadata ty part)
    (tail : Bytes) :
    measure metadata.types scale.stack 0 false ty (part ++ tail) = some (.ok (), tail) := by
  obtain ⟨v, read, shallow⟩ := ends
  refine measureItem_shallow metadata.types (a := (false, ty)) (v := v) ?_ (by omega)
  exact Measured.extends read tail

theorem ends_of_measure {ty : TypeId} {input rest : Bytes}
    (h : Measure.measure metadata.types scale.stack 0 false ty input = some (.ok (), rest)) :
    ∃ part, input = part ++ rest ∧ Ends scale metadata ty part := by
  obtain ⟨v, read⟩ := measure_ok metadata.types h
  have shallow := depth_le metadata.types (a := (false, ty)) h read
  obtain ⟨part, cut, anyTail⟩ := decode_local _ _ _ _ _ _ _ _ read
  exact ⟨part, cut, v, by simpa using anyTail [], by omega⟩

theorem cut_unique {args : List CallArg} {parts parts' : List Bytes}
    (first : List.Forall₂ (fun arg part => Measured scale metadata arg.ty part) args parts)
    (second : List.Forall₂ (fun arg part => Measured scale metadata arg.ty part) args parts')
    (same : parts.flatten = parts'.flatten) : parts = parts' := by
  induction first generalizing parts' with
  | nil =>
    cases second
    rfl
  | @cons _ part _ parts here _ ih =>
    cases second with
    | @cons _ part' _ parts' here' later =>
      obtain ⟨v, read⟩ := here
      obtain ⟨v', read'⟩ := here'
      rw [List.flatten_cons, List.flatten_cons] at same
      have one := Measured.extends read parts.flatten
      rw [same, Measured.extends read' parts'.flatten] at one
      have rest : parts'.flatten = parts.flatten := (Prod.mk.inj (Except.ok.inj one)).2
      rw [rest] at same
      rw [List.append_cancel_right same, ih later rest.symm]

theorem measureArg_of_ends (tx : Bytes) {part tail : Bytes} {layout : Layout} {field : CallArg}
    (ends : Ends scale metadata field.ty part) (ahead : layout.remaining = part ++ tail) :
    ∃ next, measureArg scale metadata tx layout field = .ok next ∧ next.remaining = tail ∧
      next.call.isSome = (layout.call.isSome || field.name = "call") ∧
      next.settings.isSome = (layout.settings.isSome || field.name = "settings") := by
  unfold measureArg
  dsimp only
  rw [ahead, ends.measure tail]
  dsimp only
  by_cases isCall : field.name = "call"
  · have other : field.name ≠ "settings" := by simp [isCall]
    exact ⟨_, rfl, by simp [isCall], by simp [isCall], by simp [isCall]⟩
  · by_cases isSettings : field.name = "settings"
    · exact ⟨_, rfl, by simp [isSettings], by simp [isSettings], by simp [isSettings]⟩
    · exact ⟨_, rfl, by simp [isCall, isSettings], by simp [isCall, isSettings],
        by simp [isCall, isSettings]⟩

theorem measureArgs_of_ends (tx : Bytes) (layout : Layout) {fields : List CallArg}
    {parts : List Bytes}
    (ends : List.Forall₂ (fun arg part => Ends scale metadata arg.ty part) fields parts)
    (ahead : layout.remaining = parts.flatten) :
    ∃ last, measureArgs scale metadata tx fields layout = .ok last ∧ last.remaining = [] ∧
      last.call.isSome = (layout.call.isSome || fields.any (·.name = "call")) ∧
      last.settings.isSome = (layout.settings.isSome || fields.any (·.name = "settings")) := by
  induction ends generalizing layout with
  | nil => exact ⟨layout, rfl, ahead, by simp, by simp⟩
  | @cons field part fields parts here _ ih =>
    obtain ⟨next, step, rest, call, settings⟩ := measureArg_of_ends tx here ahead
    obtain ⟨last, steps, ended, lastCall, lastSettings⟩ := ih next rest
    refine ⟨last, ?_, ended, ?_, ?_⟩
    · rw [measureArgs, step]
      exact steps
    · rw [lastCall, call, List.any_cons, Bool.or_assoc]
    · rw [lastSettings, settings, List.any_cons, Bool.or_assoc]

theorem measureArgs_ends {tx : Bytes} {fields : List CallArg} {layout last : Layout}
    (steps : measureArgs scale metadata tx fields layout = .ok last) :
    ∃ parts, List.Forall₂ (fun arg part => Ends scale metadata arg.ty part) fields parts ∧
      layout.remaining = parts.flatten ++ last.remaining := by
  induction fields generalizing layout with
  | nil =>
    obtain rfl := Except.ok.inj steps
    exact ⟨[], .nil, rfl⟩
  | cons field fields ih =>
    unfold measureArgs at steps
    split at steps
    · cases steps
    rename_i next step
    obtain ⟨parts, ends, rest⟩ := ih steps
    unfold measureArg at step
    dsimp only at step
    split at step
    · cases step
    · cases step
    rename_i left read
    obtain ⟨part, cut, here⟩ := ends_of_measure read
    have kept : next.remaining = left := by
      rw [← Except.ok.inj step]
      split
      · rfl
      · split <;> rfl
    refine ⟨part :: parts, .cons here ends, ?_⟩
    rw [cut, ← kept, rest, List.flatten_cons, List.append_assoc]

theorem LastNamed.unique {args : List CallArg} {name : String} {arg arg' : CallArg} {i i' : Nat}
    (h : LastNamed args name arg i) (h' : LastNamed args name arg' i') : arg = arg' ∧ i = i' := by
  obtain ⟨at_, named, last⟩ := h
  obtain ⟨at_', named', last'⟩ := h'
  have same : i = i' := by
    rcases Nat.lt_trichotomy i i' with before | same | after
    · exact absurd named' (last i' arg' before at_')
    · exact same
    · exact absurd named (last' i arg after at_)
  subst same
  exact ⟨Option.some.inj (at_.symm.trans at_'), rfl⟩

theorem LastNamed.any {args : List CallArg} {name : String} {arg : CallArg} {i : Nat}
    (h : LastNamed args name arg i) : args.any (·.name = name) = true :=
  List.any_eq_true.mpr ⟨arg, List.mem_of_getElem? h.1, by simpa using h.2.1⟩

/-- The call `info` of a fuel tank, with arguments that the visitor reads. -/
structure Dispatch (scale : ScaleLibrary) (metadata : Metadata) (p c : UInt8) (info : CallInfo)
    (parts : List Bytes) (callArg settingsArg : CallArg) (callAt settingsAt : Nat) : Prop where
  fuelTank : info.palletName = "FuelTanks" ∧
    (info.callName = "dispatch" ∨ info.callName = "dispatch_and_touch")
  found : metadata.extrinsicCallInfoByIndex p c = .ok info
  ends : List.Forall₂ (fun arg part => Ends scale metadata arg.ty part) info.args parts
  call : LastNamed info.args "call" callArg callAt
  settings : LastNamed info.args "settings" settingsArg settingsAt

theorem Dispatch.located {p c : UInt8} {info : CallInfo} {parts : List Bytes}
    {callArg settingsArg : CallArg} {callAt settingsAt : Nat}
    (h : Dispatch scale metadata p c info parts callArg settingsArg callAt settingsAt) :
    locate scale (p :: c :: parts.flatten) metadata =
      .ok (partRange parts callAt, partRange parts settingsAt, settingsArg.ty) := by
  obtain ⟨last, steps, ended, call, settings⟩ := measureArgs_of_ends (p :: c :: parts.flatten)
    ⟨parts.flatten, none, none⟩ h.ends rfl
  rw [h.call.any, Bool.or_true] at call
  rw [h.settings.any, Bool.or_true] at settings
  obtain ⟨callRange, isCall⟩ := Option.isSome_iff_exists.mp call
  obtain ⟨⟨settingsRange, ty⟩, isSettings⟩ := Option.isSome_iff_exists.mp settings
  have located : locate scale (p :: c :: parts.flatten) metadata =
      .ok (callRange, settingsRange, ty) := by
    have names : ¬ (info.palletName ≠ "FuelTanks" ∨
        ¬ (info.callName = "dispatch" ∨ info.callName = "dispatch_and_touch")) :=
      not_or.mpr ⟨not_not.mpr h.fuelTank.1, not_not.mpr h.fuelTank.2⟩
    simp only [locate, h.found, if_neg names, steps, ended, isCall, isSettings,
      List.isEmpty_nil, not_true_eq_false, if_false]
  obtain ⟨p', c', info', parts', callArg', callAt', settingsArg', settingsAt', -, found, same,
    measured, call', rfl, settings', rfl, rfl⟩ := locate_ok scale metadata located
  simp only [List.cons.injEq] at same
  obtain ⟨rfl, rfl, same⟩ := same
  obtain rfl := Except.ok.inj (h.found.symm.trans found)
  obtain rfl := cut_unique (h.ends.imp fun _ _ => Ends.measured) measured same
  obtain ⟨rfl, rfl⟩ := h.call.unique call'
  obtain ⟨rfl, rfl⟩ := h.settings.unique settings'
  exact located

theorem locate_dispatch {tx : Bytes} {call settings : Range} {ty : TypeId}
    (h : locate scale tx metadata = .ok (call, settings, ty)) :
    ∃ p c info parts callArg settingsArg callAt settingsAt,
      Dispatch scale metadata p c info parts callArg settingsArg callAt settingsAt ∧
      tx = p :: c :: parts.flatten ∧ call = partRange parts callAt ∧
      settings = partRange parts settingsAt ∧ ty = settingsArg.ty := by
  obtain ⟨p, c, info, parts, callArg, callAt, settingsArg, settingsAt, names, found, rfl,
    measured, callLast, rfl, settingsLast, rfl, rfl⟩ := locate_ok scale metadata h
  refine ⟨p, c, info, parts, callArg, settingsArg, callAt, settingsAt,
    ⟨names, found, ?_, callLast, settingsLast⟩, rfl, rfl, rfl, rfl⟩
  unfold locate at h
  simp only [found] at h
  split at h
  · cases h
  split at h
  · cases h
  rename_i layout steps
  split at h
  · cases h
  rename_i nothingLeft
  obtain ⟨parts', ends, whole⟩ := measureArgs_ends steps
  have empty : layout.remaining = [] := by simpa using nothingLeft
  rw [empty, List.append_nil] at whole
  obtain rfl := cut_unique measured (ends.imp fun _ _ => Ends.measured) whole
  exact ends

end Cuts

section SignedSettings

theorem namedDepth_le_iff {fields : List (String × Value)} {n : Nat} :
    namedDepth fields ≤ n ↔ ∀ f ∈ fields, f.2.depth + 1 ≤ n := by
  induction fields with
  | nil => simp [namedDepth]
  | cons f fields ih =>
    rw [namedDepth, Nat.max_le, ih, List.forall_mem_cons]

theorem fromBytes_depth (bytes : Bytes) : (fromBytes bytes).depth ≤ 1 := by
  unfold fromBytes
  rw [Value.depth, Composite.depth]
  induction bytes with
  | nil => exact Nat.zero_le 1
  | cons b bytes ih =>
    rw [List.map_cons, unnamedDepth, Nat.max_le]
    exact ⟨Nat.le_refl 1, ih⟩

theorem signatureValue_depth (signature : Signature) (expirationBlock : Nat) :
    (signatureValue signature expirationBlock).depth ≤ 3 := by
  have bytes := fromBytes_depth signature.1
  simp only [signatureValue, someVariant, Value.depth, Composite.depth, unnamedDepth, namedDepth]
  omega

theorem signedFields_getElem? (fields : List (String × Value)) (k : Nat) (signature : Signature)
    (expirationBlock j : Nat) :
    (signedFields fields k signature expirationBlock)[j]? =
      (fields[j]?).map fun f =>
        if k = j then (f.1, signatureValue signature expirationBlock) else f := by
  rw [signedFields, List.getElem?_modify]
  rfl

theorem settingsValue_depth (fields : List (String × Value)) (k : Nat) (signature : Signature)
    (expirationBlock : Nat) :
    (settingsValue fields k signature expirationBlock).depth ≤ maxNesting ↔
      ∀ j f, fields[j]? = some f → j ≠ k → f.2.depth + 2 ≤ maxNesting := by
  have inside : (settingsValue fields k signature expirationBlock).depth =
      namedDepth (signedFields fields k signature expirationBlock) + 1 := by
    simp [settingsValue, someVariant, Value.depth, Composite.depth, unnamedDepth]
  have bound : namedDepth (signedFields fields k signature expirationBlock) + 1 ≤ maxNesting ↔
      namedDepth (signedFields fields k signature expirationBlock) ≤ maxNesting - 1 := by
    have positive : 0 < maxNesting := by decide
    omega
  rw [inside, bound, namedDepth_le_iff]
  constructor
  · intro shallow j f at_ other
    have here : f ∈ signedFields fields k signature expirationBlock := by
      refine List.mem_of_getElem? (i := j) ?_
      rw [signedFields_getElem?, at_, Option.map_some, if_neg (Ne.symm other)]
    have deep := shallow f here
    omega
  · intro shallow f member
    obtain ⟨j, at_⟩ := List.mem_iff_getElem?.mp member
    rw [signedFields_getElem?, Option.map_eq_some_iff] at at_
    obtain ⟨sent, at_, rfl⟩ := at_
    split
    · have signed := signatureValue_depth signature expirationBlock
      have bound : 4 ≤ maxNesting - 1 := by decide
      exact (Nat.add_le_add_right signed 1).trans bound
    · rename_i other
      have deep := shallow j sent at_ (Ne.symm other)
      omega

theorem signedFields_names (fields : List (String × Value)) (k : Nat) (signature : Signature)
    (expirationBlock : Nat) :
    (signedFields fields k signature expirationBlock).map Prod.fst = fields.map Prod.fst := by
  refine List.ext_getElem? fun j => ?_
  rw [List.getElem?_map, List.getElem?_map, signedFields_getElem?, Option.map_map]
  congr 1
  funext f
  by_cases here : k = j
  · simp [here]
  · simp [here]

theorem signatureField_congr {fields fields' : List (String × Value)}
    (names : fields.map Prod.fst = fields'.map Prod.fst) :
    signatureField fields = signatureField fields' := by
  have index (fields : List (String × Value)) : (fields.findIdx? fun f => f.1 = "signature") =
      (fields.map Prod.fst).findIdx? fun name => name = "signature" := by
    rw [List.findIdx?_map]
    rfl
  rw [signatureField, index, names, ← index, ← signatureField]

theorem settingsValue_again (fields : List (String × Value)) (k : Nat)
    (signature signature' : Signature) (expirationBlock expirationBlock' : Nat) :
    settingsValue (signedFields fields k signature expirationBlock) k signature' expirationBlock' =
      settingsValue fields k signature' expirationBlock' := by
  rw [settingsValue, signedFields, signedFields, List.modify_modify_eq]
  rfl

theorem encodeSettings_again (scale : ScaleLibrary) (metadata : Metadata) (ty : TypeId)
    (fields : List (String × Value)) (k : Nat) (signature : Signature)
    (expirationBlock expirationBlock' : Nat) :
    encodeSettings scale metadata ty (signedFields fields k signature expirationBlock) k
        expirationBlock' =
      encodeSettings scale metadata ty fields k expirationBlock' := by
  funext signature'
  rw [encodeSettings, settingsValue_again, ← encodeSettings]

theorem dispatchSettings_signed {scale : ScaleLibrary} {metadata : Metadata} {ty : TypeId}
    {encoded : Bytes} {fields : List (String × Value)} {k : Nat} {signature : Signature}
    {expirationBlock : Nat}
    (read : scale.decodeAsType metadata.types ty encoded =
      .ok (settingsValue fields k signature expirationBlock, [])) :
    dispatchSettings scale encoded ty metadata =
      .ok (signedFields fields k signature expirationBlock) := by
  have none_ : ∀ fs : List (String × Value),
      (fs.find? fun f => (false && decide (f.1 ≠ "signature")) && !isZero f.2) = none :=
    fun fs => List.find?_eq_none.mpr fun f _ => by simp
  have sent : isNone (settingsValue fields k signature expirationBlock) = false := rfl
  have inside : someFields (settingsValue fields k signature expirationBlock) =
      some (signedFields fields k signature expirationBlock) := rfl
  simp only [dispatchSettings, read, Except.map, sent, inside, none_, Bool.false_eq_true, if_false]

end SignedSettings

section Again

variable {scale : ScaleLibrary} {metadata : Metadata}

/-- Settings that were left out, whose default has a second signature field that
nests too deep. -/
def SpareSignature (scale : ScaleLibrary) (metadata : Metadata) (tx : Bytes) : Prop :=
  ∃ call settings ty fields k j f,
    locate scale tx metadata = .ok (call, settings, ty) ∧
    (∃ sent, Decodes metadata.types validUtf8 ty (settings.slice tx) sent ∧ isNone sent = true) ∧
    dispatchSettings scale (settings.slice tx) ty metadata = .ok fields ∧
    signatureField fields = .ok k ∧ fields[j]? = some f ∧ j ≠ k ∧ f.1 = "signature" ∧
    maxNesting < f.2.depth + 2

theorem Decodes.unique {ty : TypeId} {part : Bytes} {v w : Value} {utf8 : Bytes → Bool}
    (decodes : Decodes metadata.types utf8 ty part v)
    (read : decode metadata.types anyBytes scale.stack false ty part = .ok (w, [])) : v = w := by
  obtain ⟨stack, read'⟩ := decodes
  have one : decode metadata.types anyBytes (scale.stack + stack) false ty part = .ok (w, []) :=
    decode_refines metadata.types (fun _ _ => rfl) scale.stack stack false ty _ _ _ read
  have other : decode metadata.types anyBytes (stack + scale.stack) false ty part = .ok (v, []) :=
    decode_refines metadata.types (fun _ _ => rfl) stack scale.stack false ty _ _ _ read'
  rw [Nat.add_comm, one] at other
  exact (Prod.mk.inj (Except.ok.inj other)).1.symm

theorem Ends.depth {ty : TypeId} {part : Bytes} (ends : Ends scale metadata ty part) {v : Value}
    {utf8 : Bytes → Bool} (decodes : Decodes metadata.types utf8 ty part v) :
    v.depth ≤ maxNesting := by
  obtain ⟨w, read, shallow⟩ := ends
  rwa [Decodes.unique decodes read]

theorem isZero_depth {v : Value} (zero : isZero v = true) : v.depth = 0 := by
  unfold isZero at zero
  split at zero
  · rfl
  · rename_i name values
    have empty : values.isEmpty = true := (Bool.and_eq_true_iff.mp zero).2
    cases values with
    | named fields =>
      obtain rfl := List.isEmpty_iff.mp empty
      rfl
    | unnamed vs =>
      obtain rfl := List.isEmpty_iff.mp empty
      rfl
  · cases zero

theorem someFields_eq {v : Value} {fields : List (String × Value)}
    (h : someFields v = some fields) : v.depth = namedDepth fields + 1 := by
  unfold someFields at h
  split at h
  · split at h
    · obtain rfl := Option.some.inj h
      simp [Value.depth, Composite.depth, unnamedDepth]
    · cases h
  · cases h

theorem sent_shallow {ty : TypeId} {part : Bytes} {fields : List (String × Value)} {k : Nat}
    {signature : Signature} {expirationBlock : Nat} (ends : Ends scale metadata ty part)
    (sent : SentFields scale metadata.types ty part fields)
    (single : ∀ v, Decodes metadata.types validUtf8 ty part v → isNone v = true →
      ∀ j f, fields[j]? = some f → j ≠ k → f.1 = "signature" → f.2.depth + 2 ≤ maxNesting) :
    (settingsValue fields k signature expirationBlock).depth ≤ maxNesting := by
  refine (settingsValue_depth _ _ _ _).mpr fun j f at_ other => ?_
  obtain ⟨v, decodes, ⟨-, inside⟩ | ⟨none_, -, zero⟩⟩ := sent
  · have deep := ends.depth decodes
    have whole := someFields_eq inside
    have here := namedDepth_le_iff.mp (Nat.le_refl _) f (List.mem_of_getElem? at_)
    omega
  · by_cases named : f.1 = "signature"
    · exact single v decodes none_ j f at_ other named
    · rw [isZero_depth (zero f (List.mem_of_getElem? at_) named)]
      decide

variable {p c : UInt8} {info : CallInfo} {parts : List Bytes} {callArg settingsArg : CallArg}
  {callAt settingsAt : Nat}

theorem Dispatch.part (h : Dispatch scale metadata p c info parts callArg settingsArg callAt
    settingsAt) {name : String} {arg : CallArg} {i : Nat} (last : LastNamed info.args name arg i) :
    ∃ part, parts[i]? = some part ∧ Ends scale metadata arg.ty part := by
  obtain ⟨bound, at_⟩ := List.getElem?_eq_some_iff.mp last.1
  have length := h.ends.length_eq
  have each := (List.forall₂_iff_get.mp h.ends).2 i bound (by omega)
  refine ⟨parts[i], List.getElem?_eq_getElem (by omega), ?_⟩
  simpa [at_] using each

theorem Dispatch.other (h : Dispatch scale metadata p c info parts callArg settingsArg callAt
    settingsAt) : settingsAt ≠ callAt := by
  rintro rfl
  obtain ⟨at_, named, -⟩ := h.call
  obtain ⟨at_', named', -⟩ := h.settings
  obtain rfl := Option.some.inj (at_.symm.trans at_')
  rw [named] at named'
  exact absurd named' (by decide)

theorem forall₂_set {R : CallArg → Bytes → Prop} {args : List CallArg} {parts : List Bytes}
    (each : List.Forall₂ R args parts) {i : Nat} {arg : CallArg} {part : Bytes}
    (at_ : args[i]? = some arg) (here : R arg part) : List.Forall₂ R args (parts.set i part) := by
  have length := each.length_eq
  refine List.forall₂_iff_get.mpr ⟨by rw [List.length_set, length], fun j bound bound' => ?_⟩
  by_cases same : j = i
  · subst same
    have arg_ : args[j] = arg := (List.getElem?_eq_some_iff.mp at_).2
    simpa [arg_] using here
  · have old := (List.forall₂_iff_get.mp each).2 j bound (by omega)
    simpa [List.getElem_set, Ne.symm same] using old

/-- A dispatch that is signed can be found again just when its settings are shallow. -/
theorem Dispatch.found_again (h : Dispatch scale metadata p c info parts callArg settingsArg callAt
    settingsAt) {encoded : Bytes} {v : Value}
    (read : scale.decodeAsType metadata.types settingsArg.ty encoded = .ok (v, [])) :
    (v.depth ≤ maxNesting →
      Dispatch scale metadata p c info (parts.set settingsAt encoded) callArg settingsArg callAt
        settingsAt) ∧
    ∀ found, locate scale (p :: c :: (parts.set settingsAt encoded).flatten) metadata = .ok found →
      v.depth ≤ maxNesting := by
  have lax := decode_anyBytes metadata.types validUtf8 scale.stack false settingsArg.ty _ _ _ read
  refine ⟨fun shallow => ⟨h.fuelTank, h.found, ?_, h.call, h.settings⟩, fun found located => ?_⟩
  · exact forall₂_set h.ends h.settings.1 ⟨v, lax, shallow⟩
  · obtain ⟨call, settings, ty⟩ := found
    obtain ⟨p', c', info', parts', _, _, _, _, h', same, -⟩ := locate_dispatch located
    simp only [List.cons.injEq] at same
    obtain ⟨rfl, rfl, same⟩ := same
    obtain rfl := Except.ok.inj (h.found.symm.trans h'.found)
    have measured : List.Forall₂ (fun arg part => Measured scale metadata arg.ty part) info.args
        (parts.set settingsAt encoded) :=
      forall₂_set (h.ends.imp fun _ _ => Ends.measured) h.settings.1 ⟨v, lax⟩
    obtain rfl := cut_unique measured (h'.ends.imp fun _ _ => Ends.measured) same
    obtain ⟨part, at_, ends⟩ := h'.part h.settings
    obtain ⟨_, old, -⟩ := h.part h.settings
    rw [List.getElem?_set_self (List.getElem?_eq_some_iff.mp old).1] at at_
    obtain rfl := Option.some.inj at_
    exact ends.depth ⟨scale.stack, lax⟩

/-- Signing a signed dispatch gives what signing the unsigned one would: the last signature
stands alone, and the same one again changes nothing. Only a default that nests too deep
in a second signature field is refused then, before anything is signed; past the error that
its depth is, the library's skipping may itself run out of stack. -/
theorem signing_again_replaces {scale : ScaleLibrary} (roundTrips : scale.RoundTrips)
    {metadata : Metadata} {tx publicKey out : Bytes} {expirationBlock : Nat}
    {sign : Bytes → Signature} {log : List Bytes}
    (first : signDispatch scale tx metadata publicKey expirationBlock sign [] = (.ok out, log)) :
    (¬ SpareSignature scale metadata tx → ∀ publicKey' expirationBlock' sign',
      signDispatch scale out metadata publicKey' expirationBlock' sign' [] =
        signDispatch scale tx metadata publicKey' expirationBlock' sign' []) ∧
    (SpareSignature scale metadata tx → ∀ publicKey' expirationBlock' sign', ∃ e,
      signDispatch scale out metadata publicKey' expirationBlock' sign' [] = (.error e, []) ∧
        (WithinStack scale metadata out publicKey' expirationBlock' sign' →
          ∃ text, e = .refused text)) := by
  obtain ⟨call, settings, ty, fields, k, encoded, located, read, field, real, rfl, -⟩ :=
    signDispatch_ok first
  obtain ⟨p, c, info, parts, callArg, settingsArg, callAt, settingsAt, dispatch, rfl, rfl, rfl,
    rfl⟩ := locate_dispatch located
  obtain ⟨settings, settingsPart, ends⟩ := dispatch.part dispatch.settings
  obtain ⟨callPart, inner, -⟩ := dispatch.part dispatch.call
  rw [partRange_splice settingsPart encoded]
  have slice := partRange_slice (p := p) (c := c) settingsPart
  have decoded : scale.decodeAsType metadata.types settingsArg.ty encoded =
      .ok (settingsValue fields k (sign (dispatchMessage ((partRange parts callAt).slice
        (p :: c :: parts.flatten)) publicKey expirationBlock)) expirationBlock, []) := by
    unfold encodeSettings at real
    split at real
    · cases real
    · cases real
    · rename_i bytes done_
      obtain rfl := Except.ok.inj real
      exact roundTrips _ _ _ _ done_
  obtain ⟨again, shallow⟩ := dispatch.found_again decoded
  constructor
  · intro plain publicKey' expirationBlock' sign'
    have dispatch' := again <| sent_shallow ends
      (dispatchSettings_ok scale metadata ends.measured (slice ▸ read))
      fun v decodes none_ j f at_ other named => Nat.not_lt.mp fun deep =>
        plain ⟨_, _, _, fields, k, j, f, located, ⟨v, by rwa [slice], none_⟩, read, field, at_,
          other, named, deep⟩
    have settingsPart' : (parts.set settingsAt encoded)[settingsAt]? = some encoded :=
      List.getElem?_set_self (List.getElem?_eq_some_iff.mp settingsPart).1
    have inner' : (parts.set settingsAt encoded)[callAt]? = some callPart := by
      rw [List.getElem?_set_ne dispatch.other, inner]
    have read' := dispatchSettings_signed decoded
    rw [← partRange_slice (p := p) (c := c) settingsPart'] at read'
    have field' (signature : Signature) :
        signatureField (signedFields fields k signature expirationBlock) = .ok k :=
      (signatureField_congr (signedFields_names fields k signature expirationBlock)).trans field
    rw [signDispatch_found located read field,
      signDispatch_found dispatch'.located read' (field' _),
      encodeSettings_again, partRange_slice inner, partRange_slice inner']
    simp only [partRange_splice settingsPart, partRange_splice settingsPart', List.set_set]
  · rintro ⟨call, settings, ty, fields', k', j, f, located', -, read', field', at_, other, -, deep⟩
      publicKey' expirationBlock' sign'
    cases lost : locate scale (p :: c :: (parts.set settingsAt encoded).flatten) metadata with
    | error e =>
      have refused := @signDispatch_lost _ _ _ publicKey' expirationBlock' sign' _ lost
      refine ⟨e, refused, fun within => ?_⟩
      cases e with
      | refused text => exact ⟨text, rfl⟩
      | stackOverflow =>
        exact absurd within (signDispatch_overflow_iff.mp (congrArg Prod.fst refused))
    | ok found =>
      obtain ⟨rfl, rfl, rfl⟩ : partRange parts callAt = call ∧
          partRange parts settingsAt = settings ∧ settingsArg.ty = ty := by
        simpa using located.symm.trans located'
      obtain rfl := Except.ok.inj (read.symm.trans read')
      obtain rfl := Except.ok.inj (field.symm.trans field')
      have bound := (settingsValue_depth _ _ _ _).mp (shallow found lost) j f at_ other
      omega

end Again

section Signed

/-- The nines and the threes leave nothing behind. -/
theorem signing_again_replaces_signed :
    signDispatch strict (remarkDispatch (signedSettings 3 [232, 3, 0, 0])) tankMetadata
        (List.replicate 32 6) 2000 (fun _ => ⟨List.replicate 64 5, rfl⟩) [] =
      signDispatch strict (remarkDispatch (signedSettings 9 [1, 0, 0, 0])) tankMetadata
        (List.replicate 32 6) 2000 (fun _ => ⟨List.replicate 64 5, rfl⟩) [] := by
  have first : signDispatch strict (remarkDispatch (signedSettings 9 [1, 0, 0, 0])) tankMetadata
      (List.replicate 32 8) 1000 (fun _ => ⟨List.replicate 64 3, rfl⟩) [] =
        (.ok (remarkDispatch (signedSettings 3 [232, 3, 0, 0])),
          [[0, 0, 4, 42] ++ List.replicate 32 8 ++ [232, 3, 0, 0]]) := by rfl
  refine (signing_again_replaces strict_roundTrips first).1 ?_ _ _ _
  rintro ⟨call, settings, ty, -, -, -, -, located, ⟨sent, decodes, none_⟩, -⟩
  have here : locate strict (remarkDispatch (signedSettings 9 [1, 0, 0, 0])) tankMetadata =
      .ok (⟨35, 39⟩, ⟨39, 112⟩, 7) := by rfl
  obtain ⟨rfl, rfl, rfl⟩ : (⟨35, 39⟩ : Range) = call ∧ (⟨39, 112⟩ : Range) = settings ∧ 7 = ty := by
    simpa using here.symm.trans located
  obtain ⟨w, read, given⟩ : ∃ w, decode tankTypes anyBytes 8 false 7
      (signedSettings 9 [1, 0, 0, 0]) = .ok (w, []) ∧ isNone w = false := ⟨_, by rfl, by rfl⟩
  obtain rfl := @Decodes.unique strict tankMetadata _ _ _ _ _ decodes read
  rw [given] at none_
  cases none_

end Signed

end WalletDaemon.FuelTank
