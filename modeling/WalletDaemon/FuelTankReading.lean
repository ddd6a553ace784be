import WalletDaemon.FuelTankRewriting
import WalletDaemon.NestingBound

/-! When the library has stack enough to sign a fuel tank dispatch. The visitor reads
the arguments in order and stops at the first that is refused; the settings are decoded
only once they are measured, so theirs is a reading that fits. -/

namespace WalletDaemon.FuelTank

open Scale Reader WalletDaemon.Measure

variable (scale : ScaleLibrary) (metadata : Metadata)

/-- Each argument, up to the first that is refused, can be read on the stack. -/
def ArgsFit : List CallArg → Bytes → Prop
  | [], _ => True
  | field :: fields, input =>
    measureFits metadata.types scale.stack scale.stack 0 (false, field.ty) input = true ∧
      ∀ rest, measure metadata.types scale.stack 0 false field.ty input = some (.ok (), rest) →
        ArgsFit fields rest

/-- The settings can be written with the placeholder, and if they are, with the
signature. -/
def Written (ty : TypeId) (fields : List (String × Value)) (signatureIndex expirationBlock : Nat)
    (signature : Signature) : Prop :=
  let encode := encodeSettings scale metadata ty fields signatureIndex expirationBlock
  encode placeholder ≠ .error .stackOverflow ∧
    ∀ encoded, encode placeholder = .ok encoded → encode signature ≠ .error .stackOverflow

/-- The library has stack enough for a dispatch: to read its arguments, to read the
default settings where none are sent, and to write the settings with a signature. -/
structure WithinStack (tx publicKey : Bytes) (expirationBlock : Nat)
    (sign : Bytes → Signature) : Prop where
  arguments : ∀ p c input info, tx = p :: c :: input →
    metadata.extrinsicCallInfoByIndex p c = .ok info → info.palletName = "FuelTanks" →
    info.callName = "dispatch" ∨ info.callName = "dispatch_and_touch" →
    ArgsFit scale metadata info.args input
  defaults : ∀ call settings ty sent rest, locate scale tx metadata = .ok (call, settings, ty) →
    scale.decodeAsType metadata.types ty (settings.slice tx) = .ok (sent, rest) →
    isNone sent = true →
    scale.decodeAsType metadata.types ty defaultSettings ≠ .error .stackOverflow
  written : ∀ call settings ty fields k, locate scale tx metadata = .ok (call, settings, ty) →
    dispatchSettings scale (settings.slice tx) ty metadata = .ok fields →
    signatureField fields = .ok k →
    Written scale metadata ty fields k expirationBlock
      (sign (dispatchMessage (call.slice tx) publicKey expirationBlock))

variable {scale metadata}

theorem measureArgs_overflow_iff {tx : Bytes} {fields : List CallArg} {layout : Layout} :
    measureArgs scale metadata tx fields layout = .error .stackOverflow ↔
      ¬ ArgsFit scale metadata fields layout.remaining := by
  induction fields generalizing layout with
  | nil => simp [measureArgs, ArgsFit]
  | cons field fields ih =>
    have fit : (measure metadata.types scale.stack 0 false field.ty layout.remaining).isSome =
        measureFits metadata.types scale.stack scale.stack 0 (false, field.ty) layout.remaining :=
      measureItem_isSome metadata.types le_rfl (false, field.ty) layout.remaining
    unfold measureArgs measureArg ArgsFit
    dsimp only
    rw [← fit]
    rcases measure metadata.types scale.stack 0 false field.ty layout.remaining with
      _ | ⟨_ | _, rest⟩
    · simp
    · simp
    · simp only [Option.isSome_some, true_and]
      rw [ih]
      have kept : ∀ next : Layout, next.remaining = rest → (¬ ArgsFit scale metadata fields
          next.remaining ↔ ¬ ∀ left, some (Except.ok (ε := MeasureError) (), rest) =
            some (.ok (), left) → ArgsFit scale metadata fields left) := by
        rintro next rfl
        simp
      refine kept _ ?_
      split
      · rfl
      · split <;> rfl

theorem locate_overflow_iff {tx : Bytes} :
    locate scale tx metadata = .error .stackOverflow ↔
      ∃ p c input info, tx = p :: c :: input ∧ metadata.extrinsicCallInfoByIndex p c = .ok info ∧
        info.palletName = "FuelTanks" ∧
        (info.callName = "dispatch" ∨ info.callName = "dispatch_and_touch") ∧
        ¬ ArgsFit scale metadata info.args input := by
  unfold locate
  constructor
  · intro h
    split at h
    · rename_i p c input
      split at h
      · cases h
      rename_i info found
      split at h
      · cases h
      rename_i names
      rw [not_or, not_not, not_not] at names
      split at h
      · rename_i failure measured
        obtain rfl := Except.error.inj h
        exact ⟨p, c, input, info, rfl, found, names.1, names.2, measureArgs_overflow_iff.mp measured⟩
      · split at h
        · cases h
        · split at h <;> cases h
    · cases h
  · rintro ⟨p, c, input, info, rfl, found, pallet, call, unfit⟩
    have names : ¬ (info.palletName ≠ "FuelTanks" ∨
        ¬ (info.callName = "dispatch" ∨ info.callName = "dispatch_and_touch")) :=
      not_or.mpr ⟨not_not.mpr pallet, not_not.mpr call⟩
    have measured : measureArgs scale metadata (p :: c :: input) info.args ⟨input, none, none⟩ =
        .error .stackOverflow := measureArgs_overflow_iff.mpr unfit
    simp only [found, if_neg names, measured]

theorem Measured.decodes {ty : TypeId} {part : Bytes} (measured : Measured scale metadata ty part) :
    scale.decodeAsType metadata.types ty part ≠ .error .stackOverflow := by
  intro overflow
  obtain ⟨v, read⟩ := measured
  have lax : decode metadata.types anyBytes scale.stack false ty part = .error .stackOverflow :=
    decode_stops metadata.types (fun _ _ => rfl) scale.stack false ty part overflow
  rw [read] at lax
  cases lax

theorem failure_eq {context : String} {stop : Stop} :
    scale.failure context stop = .stackOverflow ↔ stop = .stackOverflow := by
  cases stop <;> simp [ScaleLibrary.failure]

theorem dispatchSettings_overflow_iff {encoded : Bytes} {ty : TypeId}
    (measured : Measured scale metadata ty encoded) :
    dispatchSettings scale encoded ty metadata = .error .stackOverflow ↔
      ∃ sent rest, scale.decodeAsType metadata.types ty encoded = .ok (sent, rest) ∧
        isNone sent = true ∧
        scale.decodeAsType metadata.types ty defaultSettings = .error .stackOverflow := by
  have runs := measured.decodes
  unfold dispatchSettings
  dsimp only
  cases read : scale.decodeAsType metadata.types ty encoded with
  | error stop =>
    rw [read] at runs
    have other : stop ≠ .stackOverflow := fun same => runs (congrArg Except.error same)
    simp [Except.map, failure_eq, other]
  | ok sent =>
    obtain ⟨sent, left⟩ := sent
    simp only [Except.map]
    cases none_ : isNone sent with
    | false =>
      refine iff_of_false (fun h => ?_) ?_
      · simp only [Bool.false_eq_true, if_false] at h
        split at h
        · cases h
        · split at h <;> cases h
      · rintro ⟨sent', rest, same, none', -⟩
        obtain ⟨rfl, rfl⟩ := Prod.mk.inj (Except.ok.inj same)
        rw [none'] at none_
        cases none_
    | true =>
      simp only [if_true]
      cases scale.decodeAsType metadata.types ty defaultSettings with
      | error stop => simp [failure_eq, none_]
      | ok zero =>
        refine iff_of_false (fun h => ?_) (by simp)
        dsimp only at h
        split at h
        · cases h
        · split at h <;> cases h

theorem signatureField_settles {fields : List (String × Value)} {e : Failure}
    (h : signatureField fields = .error e) : e ≠ .stackOverflow := by
  unfold signatureField at h
  split at h
  · cases h
  · obtain rfl := Except.error.inj h
    simp

theorem locate_measured {tx : Bytes} {call settings : Range} {ty : TypeId}
    (h : locate scale tx metadata = .ok (call, settings, ty)) :
    Measured scale metadata ty (settings.slice tx) := by
  obtain ⟨p, c, info, parts, callArg, callAt, settingsArg, settingsAt, -, -, rfl, args, -, -,
    last, rfl, rfl⟩ := locate_ok scale metadata h
  have length := args.length_eq
  obtain ⟨bound, at_⟩ := List.getElem?_eq_some_iff.mp last.1
  have each := (List.forall₂_iff_get.mp args).2 settingsAt bound (by omega)
  rw [partRange_slice (List.getElem?_eq_getElem (by omega))]
  simpa [at_] using each

theorem signDispatch_lost {tx publicKey : Bytes} {expirationBlock : Nat}
    {sign : Bytes → Signature} {e : Failure} (lost : locate scale tx metadata = .error e) :
    signDispatch scale tx metadata publicKey expirationBlock sign [] = (.error e, []) := by
  rw [signDispatch, Signing.lift_andThen, lost]

theorem signDispatch_found {tx publicKey : Bytes} {expirationBlock : Nat}
    {sign : Bytes → Signature} {call settings : Range} {ty : TypeId}
    {fields : List (String × Value)} {k : Nat}
    (located : locate scale tx metadata = .ok (call, settings, ty))
    (read : dispatchSettings scale (settings.slice tx) ty metadata = .ok fields)
    (field : signatureField fields = .ok k) :
    signDispatch scale tx metadata publicKey expirationBlock sign [] =
      ((Signing.lift (encodeSettings scale metadata ty fields k expirationBlock placeholder)).andThen
        fun _ =>
      (Signing.invoke sign (dispatchMessage (call.slice tx) publicKey expirationBlock)).andThen
        fun signature =>
      (Signing.lift (encodeSettings scale metadata ty fields k expirationBlock signature)).andThen
        fun encoded =>
      Signing.lift (.ok (tx.take settings.start ++ encoded ++ tx.drop settings.stop))) [] := by
  rw [signDispatch, Signing.lift_andThen, located]
  dsimp only
  rw [Signing.lift_andThen, read]
  dsimp only
  rw [Signing.lift_andThen, field]

theorem signDispatch_unread {tx publicKey : Bytes} {expirationBlock : Nat}
    {sign : Bytes → Signature} {e : Failure} {call settings : Range} {ty : TypeId}
    (located : locate scale tx metadata = .ok (call, settings, ty))
    (unread : dispatchSettings scale (settings.slice tx) ty metadata = .error e ∨
      ∃ fields, dispatchSettings scale (settings.slice tx) ty metadata = .ok fields ∧
        signatureField fields = .error e) :
    signDispatch scale tx metadata publicKey expirationBlock sign [] = (.error e, []) := by
  rw [signDispatch, Signing.lift_andThen, located]
  dsimp only
  rw [Signing.lift_andThen]
  rcases unread with unread | ⟨fields, read, noField⟩
  · rw [unread]
  · rw [read]
    dsimp only
    rw [Signing.lift_andThen, noField]

theorem signDispatch_written_iff {tx publicKey : Bytes} {expirationBlock : Nat}
    {sign : Bytes → Signature} {call settings : Range} {ty : TypeId}
    {fields : List (String × Value)} {k : Nat}
    (located : locate scale tx metadata = .ok (call, settings, ty))
    (read : dispatchSettings scale (settings.slice tx) ty metadata = .ok fields)
    (field : signatureField fields = .ok k) :
    (signDispatch scale tx metadata publicKey expirationBlock sign []).1 ≠
        .error .stackOverflow ↔
      Written scale metadata ty fields k expirationBlock
        (sign (dispatchMessage (call.slice tx) publicKey expirationBlock)) := by
  rw [signDispatch_found located read field, Signing.lift_andThen, Written]
  cases encodeSettings scale metadata ty fields k expirationBlock placeholder with
  | error e => simp
  | ok encoded =>
    simp only [Signing.andThen, Signing.invoke, Signing.lift]
    cases encodeSettings scale metadata ty fields k expirationBlock
      (sign (dispatchMessage (call.slice tx) publicKey expirationBlock)) <;> simp

/-- Signing ends the process just where the library is short of stack. -/
theorem signDispatch_overflow_iff {tx publicKey : Bytes} {expirationBlock : Nat}
    {sign : Bytes → Signature} :
    (signDispatch scale tx metadata publicKey expirationBlock sign []).1 =
        .error .stackOverflow ↔
      ¬ WithinStack scale metadata tx publicKey expirationBlock sign := by
  constructor
  · intro overflow within
    cases located : locate scale tx metadata with
    | error e =>
      rw [signDispatch_lost located] at overflow
      obtain rfl := Except.error.inj overflow
      obtain ⟨p, c, input, info, cut, found, pallet, call, unfit⟩ := locate_overflow_iff.mp located
      exact unfit (within.arguments p c input info cut found pallet call)
    | ok found =>
      obtain ⟨call, settings, ty⟩ := found
      cases read : dispatchSettings scale (settings.slice tx) ty metadata with
      | error e =>
        rw [signDispatch_unread located (.inl read)] at overflow
        obtain rfl := Except.error.inj overflow
        obtain ⟨sent, rest, decoded, none_, short⟩ :=
          (dispatchSettings_overflow_iff (locate_measured located)).mp read
        exact within.defaults call settings ty sent rest located decoded none_ short
      | ok fields =>
        cases field : signatureField fields with
        | error e =>
          rw [signDispatch_unread located (.inr ⟨fields, read, field⟩)] at overflow
          exact signatureField_settles field (Except.error.inj overflow)
        | ok k =>
          exact (signDispatch_written_iff located read field).mpr
            (within.written call settings ty fields k located read field) overflow
  · intro short
    by_contra runs
    refine short ⟨fun p c input info cut found pallet call => ?_,
      fun call settings ty sent rest located decoded none_ overflow => ?_,
      fun call settings ty fields k located read field =>
        (signDispatch_written_iff located read field).mp runs⟩
    · by_contra unfit
      have lost : locate scale tx metadata = .error .stackOverflow :=
        locate_overflow_iff.mpr ⟨p, c, input, info, cut, found, pallet, call, unfit⟩
      exact runs (by rw [signDispatch_lost lost])
    · have unread := (dispatchSettings_overflow_iff (locate_measured located)).mpr
        ⟨sent, rest, decoded, none_, overflow⟩
      exact runs (by rw [signDispatch_unread located (.inl unread)])

end WalletDaemon.FuelTank
