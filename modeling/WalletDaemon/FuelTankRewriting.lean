import WalletDaemon.FuelTank
import WalletDaemon.ScaleEncode

/-! What a fuel tank dispatch becomes, and when anything is signed.
The argument loop is followed by an invariant that cuts the bytes read so far
into the arguments' encodings; the result splices one of them. -/

namespace WalletDaemon.FuelTank

open Scale Reader WalletDaemon.Measure

/-- `tx` is the call `info` with the encodings `parts` of its arguments and
nothing after them. -/
def IsCall (metadata : Metadata) (utf8 : Bytes → Bool) (tx : Bytes) (info : CallInfo)
    (parts : List Bytes) : Prop :=
  ∃ palletIndex callIndex, tx = palletIndex :: callIndex :: parts.flatten ∧
    metadata.extrinsicCallInfoByIndex palletIndex callIndex = .ok info ∧
    List.Forall₂ (fun arg part => ∃ v, Decodes metadata.types utf8 arg.ty part v) info.args parts

/-- The last argument called `name`. -/
def LastNamed (args : List CallArg) (name : String) (arg : CallArg) (i : Nat) : Prop :=
  args[i]? = some arg ∧ arg.name = name ∧
    ∀ j other, i < j → args[j]? = some other → other.name ≠ name

/-- The fields of the settings `encoded` holds: its own, or the default ones. -/
def SentFields (scale : ScaleLibrary) (registry : PortableRegistry) (ty : TypeId)
    (encoded : Bytes) (fields : List (String × Value)) : Prop :=
  ∃ sent, Decodes registry validUtf8 ty encoded sent ∧
    ((isNone sent = false ∧ someFields sent = some fields) ∨
      (isNone sent = true ∧
        (∃ zero rest, scale.decodeAsType registry ty defaultSettings = .ok (zero, rest) ∧
          someFields zero = some fields) ∧
        ∀ f ∈ fields, f.1 ≠ "signature" → isZero f.2 = true))

/-- `out` is the call of `tx` with its settings signed, and `log` what was
signed for that. The measuring visitor lets through strings that are not UTF-8;
where `tx` has none of those, `out` has none. -/
structure Rewrites (scale : ScaleLibrary) (metadata : Metadata) (publicKey : Bytes)
    (expirationBlock : Nat) (sign : Bytes → Signature) (tx out : Bytes) (log : List Bytes)
    (info : CallInfo) (parts : List Bytes) (settingsArg callArg : CallArg)
    (settingsAt callAt : Nat) (call : Bytes) (settings : Bytes)
    (fields : List (String × Value)) (signatureAt : Nat) : Prop where
  fuelTank : info.palletName = "FuelTanks" ∧
    (info.callName = "dispatch" ∨ info.callName = "dispatch_and_touch")
  input : IsCall metadata anyBytes tx info parts
  settings_last : LastNamed info.args "settings" settingsArg settingsAt
  call_last : LastNamed info.args "call" callArg callAt
  call_part : parts[callAt]? = some call
  signed : log = [dispatchMessage call publicKey expirationBlock]
  kept : ∃ encoded, parts[settingsAt]? = some encoded ∧
    SentFields scale metadata.types settingsArg.ty encoded fields
  signature_field : fields.findIdx? (fun f => f.1 = "signature") = some signatureAt
  rewritten : Decodes metadata.types validUtf8 settingsArg.ty settings
    (settingsValue fields signatureAt
      (sign (dispatchMessage call publicKey expirationBlock)) expirationBlock)
  output : IsCall metadata anyBytes out info (parts.set settingsAt settings)
  output_text : IsCall metadata validUtf8 tx info parts →
    IsCall metadata validUtf8 out info (parts.set settingsAt settings)

section Layout

def partRange (parts : List Bytes) (i : Nat) : Range :=
  ⟨2 + (parts.take i).flatten.length, 2 + (parts.take (i + 1)).flatten.length⟩

theorem slice_append (before part after : Bytes) :
    (⟨before.length, before.length + part.length⟩ : Range).slice (before ++ part ++ after) =
      part := by
  have stop : before.length + part.length = (before ++ part).length := by simp
  rw [Range.slice, stop, List.take_left', List.drop_left'] <;> rfl

theorem flatten_split {parts : List Bytes} {i : Nat} {part : Bytes} (h : parts[i]? = some part) :
    parts.flatten = (parts.take i).flatten ++ part ++ (parts.drop (i + 1)).flatten := by
  obtain ⟨bound, rfl⟩ := List.getElem?_eq_some_iff.mp h
  have cut := List.take_append_drop i parts
  rw [List.drop_eq_getElem_cons bound] at cut
  calc parts.flatten = (parts.take i ++ parts[i] :: parts.drop (i + 1)).flatten := by rw [cut]
    _ = _ := by simp only [List.flatten_append, List.flatten_cons, List.append_assoc]

theorem partRange_eq {parts : List Bytes} {i : Nat} {part : Bytes} (h : parts[i]? = some part) :
    partRange parts i =
      ⟨2 + (parts.take i).flatten.length, 2 + (parts.take i).flatten.length + part.length⟩ := by
  obtain ⟨bound, rfl⟩ := List.getElem?_eq_some_iff.mp h
  have next : (parts.take (i + 1)).flatten = (parts.take i).flatten ++ parts[i] := by
    rw [← List.take_append_getElem bound, List.flatten_append]
    simp
  rw [partRange, next, List.length_append, Nat.add_assoc]

theorem partRange_append {parts : List Bytes} {i : Nat} (h : i < parts.length) (part : Bytes) :
    partRange (parts ++ [part]) i = partRange parts i := by
  have first : i - parts.length = 0 := by omega
  have next : i + 1 - parts.length = 0 := by omega
  simp [partRange, List.take_append, first, next]

theorem around {p c : UInt8} {parts : List Bytes} {i : Nat} {part : Bytes}
    (h : parts[i]? = some part) :
    p :: c :: parts.flatten =
      (p :: c :: (parts.take i).flatten) ++ part ++ (parts.drop (i + 1)).flatten := by
  rw [flatten_split h]
  simp

theorem partRange_slice {p c : UInt8} {parts : List Bytes} {i : Nat} {part : Bytes}
    (h : parts[i]? = some part) :
    (partRange parts i).slice (p :: c :: parts.flatten) = part := by
  have length : 2 + (parts.take i).flatten.length =
      (p :: c :: (parts.take i).flatten).length := by
    simp only [List.length_cons]
    omega
  rw [partRange_eq h, around h, length]
  exact slice_append _ _ _

theorem partRange_splice {p c : UInt8} {parts : List Bytes} {i : Nat} {part : Bytes}
    (h : parts[i]? = some part) (settings : Bytes) :
    (p :: c :: parts.flatten).take (partRange parts i).start ++ settings ++
        (p :: c :: parts.flatten).drop (partRange parts i).stop =
      p :: c :: (parts.set i settings).flatten := by
  obtain ⟨bound, -⟩ := List.getElem?_eq_some_iff.mp h
  have length : 2 + (parts.take i).flatten.length =
      (p :: c :: (parts.take i).flatten).length := by
    simp only [List.length_cons]
    omega
  have stop : (p :: c :: (parts.take i).flatten).length + part.length =
      ((p :: c :: (parts.take i).flatten) ++ part).length := by rw [List.length_append]
  rw [partRange_eq h, around h, length, stop]
  dsimp only
  rw [List.drop_left' rfl, List.append_assoc, List.append_assoc, List.take_left' rfl,
    List.set_eq_take_append_cons_drop, if_pos bound]
  simp

theorem LastNamed.append_other {args : List CallArg} {name : String} {arg new : CallArg} {i : Nat}
    (h : LastNamed args name arg i) (other : new.name ≠ name) :
    LastNamed (args ++ [new]) name arg i := by
  obtain ⟨at_, named, last⟩ := h
  have bound : i < args.length := (List.getElem?_eq_some_iff.mp at_).1
  refine ⟨by rw [List.getElem?_append_left bound, at_], named, ?_⟩
  intro j later after found
  rw [List.getElem?_append] at found
  split at found
  · exact last j later after found
  · have new_eq : later = new := by
      have := List.mem_of_getElem? found
      simpa using this
    rw [new_eq]
    exact other

theorem LastNamed.append_self (args : List CallArg) (new : CallArg) :
    LastNamed (args ++ [new]) new.name new args.length := by
  refine ⟨by simp, rfl, ?_⟩
  intro j other after found
  have bound : j < (args ++ [new]).length := (List.getElem?_eq_some_iff.mp found).1
  simp only [List.length_append, List.length_singleton] at bound
  omega

end Layout

section ArgumentLoop

variable (scale : ScaleLibrary) (metadata : Metadata)

/-- `part` is one argument of type `ty`, as the measuring visitor found it. -/
def Measured (ty : TypeId) (part : Bytes) : Prop :=
  ∃ v, decode metadata.types anyBytes scale.stack false ty part = .ok (v, [])

/-- The state of the loop once the arguments `seen` are read. -/
structure Reading (p c : UInt8) (tx : Bytes) (seen : List CallArg) (parts : List Bytes)
    (layout : Layout) : Prop where
  split : tx = p :: c :: (parts.flatten ++ layout.remaining)
  args : List.Forall₂ (fun arg part => Measured scale metadata arg.ty part) seen parts
  call : ∀ range, layout.call = some range →
    ∃ arg i, LastNamed seen "call" arg i ∧ range = partRange parts i
  settings : ∀ range ty, layout.settings = some (range, ty) →
    ∃ arg i, LastNamed seen "settings" arg i ∧ range = partRange parts i ∧ ty = arg.ty

theorem Reading.length {p c : UInt8} {tx : Bytes} {seen : List CallArg} {parts : List Bytes}
    {layout : Layout} (h : Reading scale metadata p c tx seen parts layout) :
    parts.length = seen.length := h.args.length_eq.symm

theorem measured_of_measure {ty : TypeId} {input rest : Bytes}
    (h : measure metadata.types scale.stack 0 false ty input = some (.ok (), rest)) :
    ∃ part, input = part ++ rest ∧ Measured scale metadata ty part := by
  obtain ⟨v, read⟩ := measure_ok metadata.types h
  obtain ⟨part, cut, anyTail⟩ := decode_local _ _ _ _ _ _ _ _ read
  exact ⟨part, cut, v, by simpa using anyTail []⟩

theorem measureArg_reading {p c : UInt8} {tx : Bytes} {seen : List CallArg} {parts : List Bytes}
    {layout next : Layout} {field : CallArg}
    (before : Reading scale metadata p c tx seen parts layout)
    (step : measureArg scale metadata tx layout field = .ok next) :
    ∃ part, Reading scale metadata p c tx (seen ++ [field]) (parts ++ [part]) next := by
  unfold measureArg at step
  dsimp only at step
  split at step
  · cases step
  · cases step
  rename_i rest read
  obtain ⟨part, cut, measured⟩ := measured_of_measure scale metadata read
  have length := before.length
  have whole : tx = p :: c :: ((parts ++ [part]).flatten ++ rest) := by
    rw [before.split, cut]
    simp
  have range : (⟨tx.length - layout.remaining.length, tx.length - rest.length⟩ : Range) =
      partRange (parts ++ [part]) seen.length := by
    have here : (parts ++ [part])[seen.length]? = some part := by
      rw [← length]
      simp
    have before_ : (parts ++ [part]).take seen.length = parts := by
      rw [← length]
      simp
    rw [partRange_eq here, before_, before.split, cut]
    simp only [List.length_cons, List.length_append, Range.mk.injEq]
    omega
  have args := List.rel_append before.args (List.Forall₂.cons measured .nil)
  have oldRange : ∀ name arg i, LastNamed seen name arg i →
      partRange (parts ++ [part]) i = partRange parts i := by
    intro name arg i last
    have bound := (List.getElem?_eq_some_iff.mp last.1).1
    exact partRange_append (by omega) part
  refine ⟨part, ?_⟩
  simp only [Except.ok.injEq] at step
  by_cases isCall : field.name = "call"
  · rw [if_pos isCall] at step
    subst step
    refine ⟨whole, args, ?_, ?_⟩
    · rintro _ ⟨⟩
      refine ⟨field, seen.length, isCall ▸ LastNamed.append_self seen field, range⟩
    · intro old ty sent
      obtain ⟨arg, i, last, rfl, typed⟩ := before.settings old ty sent
      have other : field.name ≠ "settings" := by simp [isCall]
      exact ⟨arg, i, last.append_other other, (oldRange _ _ _ last).symm, typed⟩
  · rw [if_neg isCall] at step
    have keepCall : ∀ old, layout.call = some old →
        ∃ arg i, LastNamed (seen ++ [field]) "call" arg i ∧
          old = partRange (parts ++ [part]) i := by
      intro old found
      obtain ⟨arg, i, last, rfl⟩ := before.call old found
      exact ⟨arg, i, last.append_other isCall, (oldRange _ _ _ last).symm⟩
    by_cases isSettings : field.name = "settings"
    · rw [if_pos isSettings] at step
      subst step
      refine ⟨whole, args, keepCall, ?_⟩
      rintro _ _ ⟨⟩
      exact ⟨field, seen.length, isSettings ▸ LastNamed.append_self seen field, range, rfl⟩
    · rw [if_neg isSettings] at step
      subst step
      refine ⟨whole, args, keepCall, ?_⟩
      intro old ty sent
      obtain ⟨arg, i, last, rfl, typed⟩ := before.settings old ty sent
      exact ⟨arg, i, last.append_other isSettings, (oldRange _ _ _ last).symm, typed⟩

theorem measureArgs_reading {p c : UInt8} {tx : Bytes} {seen fields : List CallArg}
    {parts : List Bytes} {layout last : Layout}
    (before : Reading scale metadata p c tx seen parts layout)
    (steps : measureArgs scale metadata tx fields layout = .ok last) :
    ∃ parts, Reading scale metadata p c tx (seen ++ fields) parts last := by
  induction fields generalizing seen parts layout with
  | nil =>
    simp only [measureArgs, Except.ok.injEq] at steps
    subst steps
    exact ⟨parts, by simpa using before⟩
  | cons field fields ih =>
    unfold measureArgs at steps
    split at steps
    · cases steps
    rename_i next step
    obtain ⟨part, after⟩ := measureArg_reading scale metadata before step
    obtain ⟨parts, final⟩ := ih after steps
    exact ⟨parts, by simpa using final⟩

theorem locate_ok {tx : Bytes} {call settings : Range} {ty : TypeId}
    (h : locate scale tx metadata = .ok (call, settings, ty)) :
    ∃ p c info parts callArg callAt settingsArg settingsAt,
      (info.palletName = "FuelTanks" ∧
        (info.callName = "dispatch" ∨ info.callName = "dispatch_and_touch")) ∧
      metadata.extrinsicCallInfoByIndex p c = .ok info ∧
      tx = p :: c :: parts.flatten ∧
      List.Forall₂ (fun arg part => Measured scale metadata arg.ty part) info.args parts ∧
      LastNamed info.args "call" callArg callAt ∧ call = partRange parts callAt ∧
      LastNamed info.args "settings" settingsArg settingsAt ∧
      settings = partRange parts settingsAt ∧ ty = settingsArg.ty := by
  unfold locate at h
  split at h
  · rename_i p c arguments
    split at h
    · cases h
    rename_i info found
    split at h
    · cases h
    rename_i names
    split at h
    · cases h
    rename_i layout steps
    split at h
    · cases h
    rename_i nothingLeft
    have start : Reading scale metadata p c (p :: c :: arguments) [] []
        ⟨arguments, none, none⟩ :=
      ⟨by simp, .nil, by simp, by simp⟩
    obtain ⟨parts, final⟩ := measureArgs_reading scale metadata start steps
    have empty : layout.remaining = [] := by simpa using nothingLeft
    split at h
    · cases h
    · cases h
    rename_i foundCall foundSettings
    simp only [Except.ok.injEq, Prod.mk.injEq] at h
    obtain ⟨rfl, rfl, rfl⟩ := h
    obtain ⟨callArg, callAt, callLast, callRange⟩ := final.call _ foundCall
    obtain ⟨settingsArg, settingsAt, settingsLast, settingsRange, typed⟩ :=
      final.settings _ _ foundSettings
    have whole := final.split
    rw [empty, List.append_nil] at whole
    refine ⟨p, c, info, parts, callArg, callAt, settingsArg, settingsAt, ?_, found, whole,
      final.args, callLast, callRange, settingsLast, settingsRange, typed⟩
    rw [not_or, not_not, not_not] at names
    exact names
  · cases h

theorem dispatchSettings_ok {encoded : Bytes} {ty : TypeId} {fields : List (String × Value)}
    (measured : Measured scale metadata ty encoded)
    (h : dispatchSettings scale encoded ty metadata = .ok fields) :
    SentFields scale metadata.types ty encoded fields := by
  unfold dispatchSettings at h
  dsimp only at h
  split at h
  · cases h
  rename_i sent read
  split at h
  · cases h
  rename_i settings chosen
  split at h
  · cases h
  rename_i named shape
  split at h
  · cases h
  rename_i allZero
  simp only [Except.ok.injEq] at h
  subst h
  have sentDecodes : Decodes metadata.types validUtf8 ty encoded sent := by
    obtain ⟨v, plain⟩ := measured
    match decoded : scale.decodeAsType metadata.types ty encoded with
    | .error e => simp [decoded, Except.map] at read
    | .ok (w, rest) =>
      have lax := decode_anyBytes metadata.types validUtf8 scale.stack false ty _ _ _ decoded
      rw [plain] at lax
      simp only [Except.ok.injEq, Prod.mk.injEq] at lax
      simp only [decoded, Except.map, Except.ok.injEq] at read
      rw [← lax.2, read] at decoded
      exact ⟨scale.stack, decoded⟩
  refine ⟨sent, sentDecodes, ?_⟩
  cases isDefault : isNone sent with
  | false =>
    simp only [isDefault, Bool.false_eq_true, if_false, Except.ok.injEq] at chosen
    exact .inl ⟨rfl, by rw [chosen, shape]⟩
  | true =>
    refine .inr ⟨rfl, ?_, ?_⟩
    · simp only [isDefault, if_true] at chosen
      match decoded : scale.decodeAsType metadata.types ty defaultSettings with
      | .error e => simp [decoded, Except.map] at chosen
      | .ok (zero, rest) =>
        simp only [decoded, Except.map, Except.ok.injEq] at chosen
        exact ⟨zero, rest, rfl, by rw [chosen, shape]⟩
    · intro f member other
      have zero := List.find?_eq_none.mp allZero f member
      simpa [isDefault, other] using zero

end ArgumentLoop

theorem Signing.lift_ok {α : Type} {result : Except Failure α} {before log : List Bytes} {a : α} :
    Signing.lift result before = (.ok a, log) ↔ result = .ok a ∧ log = before := by
  simp [Signing.lift, eq_comm]

theorem Signing.invoke_ok {sign : Bytes → Signature} {message : Bytes} {before log : List Bytes}
    {signature : Signature} :
    Signing.invoke sign message before = (.ok signature, log) ↔
      signature = sign message ∧ log = before ++ [message] := by
  simp [Signing.invoke, eq_comm]

theorem Signing.andThen_ok {α β : Type} {m : Signing α} {f : α → Signing β}
    {before log : List Bytes} {b : β} :
    m.andThen f before = (.ok b, log) ↔
      ∃ a middle, m before = (.ok a, middle) ∧ f a middle = (.ok b, log) := by
  unfold Signing.andThen
  split <;> rename_i h <;> simp [h]

/-- Everything a successful signing went through, in order. -/
theorem signDispatch_ok {scale : ScaleLibrary} {metadata : Metadata} {tx publicKey out : Bytes}
    {expirationBlock : Nat} {sign : Bytes → Signature} {before log : List Bytes}
    (h : signDispatch scale tx metadata publicKey expirationBlock sign before = (.ok out, log)) :
    ∃ call settings ty fields signatureAt encoded,
      locate scale tx metadata = .ok (call, settings, ty) ∧
      dispatchSettings scale (settings.slice tx) ty metadata = .ok fields ∧
      signatureField fields = .ok signatureAt ∧
      encodeSettings scale metadata ty fields signatureAt expirationBlock
        (sign (dispatchMessage (call.slice tx) publicKey expirationBlock)) = .ok encoded ∧
      out = tx.take settings.start ++ encoded ++ tx.drop settings.stop ∧
      log = before ++ [dispatchMessage (call.slice tx) publicKey expirationBlock] := by
  obtain ⟨⟨call, settings, ty⟩, _, first, located_⟩ := Signing.andThen_ok.mp h
  obtain ⟨located, rfl⟩ := Signing.lift_ok.mp first
  obtain ⟨fields, _, first, read_⟩ := Signing.andThen_ok.mp located_
  obtain ⟨read, rfl⟩ := Signing.lift_ok.mp first
  obtain ⟨signatureAt, _, first, field_⟩ := Signing.andThen_ok.mp read_
  obtain ⟨field, rfl⟩ := Signing.lift_ok.mp first
  obtain ⟨_, _, first, checked_⟩ := Signing.andThen_ok.mp field_
  obtain ⟨-, rfl⟩ := Signing.lift_ok.mp first
  obtain ⟨signature, _, signed, signed_⟩ := Signing.andThen_ok.mp checked_
  obtain ⟨rfl, rfl⟩ := Signing.invoke_ok.mp signed
  obtain ⟨encoded, _, first, encoded_⟩ := Signing.andThen_ok.mp signed_
  obtain ⟨real, rfl⟩ := Signing.lift_ok.mp first
  obtain ⟨spliced, rfl⟩ := Signing.lift_ok.mp encoded_
  exact ⟨call, settings, ty, fields, signatureAt, encoded, located, read, field, real,
    (Except.ok.inj spliced).symm, rfl⟩

theorem encodeSettings_decodes {scale : ScaleLibrary} (roundTrips : scale.RoundTrips)
    {metadata : Metadata} {ty : TypeId} {fields : List (String × Value)}
    {signatureAt expirationBlock : Nat} {signature : Signature} {encoded : Bytes}
    (h : encodeSettings scale metadata ty fields signatureAt expirationBlock signature =
      .ok encoded) :
    Decodes metadata.types validUtf8 ty encoded
      (settingsValue fields signatureAt signature expirationBlock) := by
  unfold encodeSettings at h
  split at h
  · cases h
  · cases h
  rename_i bytes done_
  simp only [Except.ok.injEq] at h
  subst h
  exact ⟨scale.stack, roundTrips _ _ _ _ done_⟩

theorem IsCall.set {metadata : Metadata} {utf8 : Bytes → Bool} {p c : UInt8} {info : CallInfo}
    {parts : List Bytes} (h : IsCall metadata utf8 (p :: c :: parts.flatten) info parts)
    {i : Nat} {arg : CallArg} (at_ : info.args[i]? = some arg) {part : Bytes} {v : Value}
    (decodes : Decodes metadata.types utf8 arg.ty part v) :
    IsCall metadata utf8 (p :: c :: (parts.set i part).flatten) info (parts.set i part) := by
  obtain ⟨p', c', same, found, args⟩ := h
  simp only [List.cons.injEq] at same
  obtain ⟨rfl, rfl, -⟩ := same
  refine ⟨p, c, rfl, found, List.forall₂_iff_get.mpr ⟨?_, fun j bound bound' => ?_⟩⟩
  · rw [List.length_set]
    exact args.length_eq
  · by_cases same : j = i
    · subst same
      have arg_ : info.args[j] = arg := (List.getElem?_eq_some_iff.mp at_).2
      exact ⟨v, by simpa [arg_] using decodes⟩
    · have length := args.length_eq
      have each := (List.forall₂_iff_get.mp args).2 j bound (by omega)
      simpa [List.getElem_set, Ne.symm same] using each

/-- A signed dispatch is the dispatch that was sent, with its settings signed
and nothing else changed. -/
theorem signDispatch_rewrites (scale : ScaleLibrary) (roundTrips : scale.RoundTrips)
    (metadata : Metadata) (tx publicKey : Bytes) (expirationBlock : Nat)
    (sign : Bytes → Signature) (out : Bytes) (log : List Bytes)
    (h : signDispatch scale tx metadata publicKey expirationBlock sign [] = (.ok out, log)) :
    ∃ info parts settingsArg callArg settingsAt callAt call settings fields signatureAt,
      Rewrites scale metadata publicKey expirationBlock sign tx out log info parts
        settingsArg callArg settingsAt callAt call settings fields signatureAt := by
  obtain ⟨callRange, settingsRange, ty, fields, signatureAt, encoded, located, read, field, real,
    rfl, rfl⟩ := signDispatch_ok h
  obtain ⟨p, c, info, parts, callArg, callAt, settingsArg, settingsAt, names, found, rfl, args,
    callLast, rfl, settingsLast, rfl, rfl⟩ := locate_ok scale metadata located
  have length := args.length_eq
  have callBound := (List.getElem?_eq_some_iff.mp callLast.1).1
  have settingsBound := (List.getElem?_eq_some_iff.mp settingsLast.1).1
  have callPart : parts[callAt]? = some parts[callAt] := List.getElem?_eq_getElem (by omega)
  have settingsPart : parts[settingsAt]? = some parts[settingsAt] :=
    List.getElem?_eq_getElem (by omega)
  have input : IsCall metadata anyBytes (p :: c :: parts.flatten) info parts :=
    ⟨p, c, rfl, found, args.imp fun _ _ ⟨v, plain⟩ => ⟨v, _, plain⟩⟩
  rw [partRange_slice callPart] at real ⊢
  rw [partRange_slice settingsPart] at read
  rw [partRange_splice settingsPart encoded]
  have measured : Measured scale metadata settingsArg.ty parts[settingsAt] := by
    have each := (List.forall₂_iff_get.mp args).2 settingsAt settingsBound (by omega)
    have arg : info.args[settingsAt] = settingsArg :=
      (List.getElem?_eq_some_iff.mp settingsLast.1).2
    simpa [arg] using each
  have rewritten := encodeSettings_decodes roundTrips real
  have index : fields.findIdx? (fun f => f.1 = "signature") = some signatureAt := by
    unfold signatureField at field
    split at field
    · rename_i first
      rw [first, Except.ok.inj field]
    · cases field
  exact ⟨info, parts, settingsArg, callArg, settingsAt, callAt, parts[callAt], encoded, fields,
    signatureAt, {
      fuelTank := names
      input := input
      settings_last := settingsLast
      call_last := callLast
      call_part := callPart
      signed := rfl
      kept := ⟨_, settingsPart, dispatchSettings_ok scale metadata measured read⟩
      signature_field := index
      rewritten := rewritten
      output := input.set settingsLast.1 (rewritten.weaken fun _ _ => rfl)
      output_text := fun strictly => strictly.set settingsLast.1 rewritten }⟩

section Strict

/-- The library with the strict encoder, on a stack of eight levels. -/
def strict : ScaleLibrary where
  stack := 8
  encodeAsType registry ty value :=
    match encode registry 8 ty value with
    | some bytes => .ok bytes
    | none => .error (.refused "the value does not have the shape of the type")
  decodeErrorText _ := "the bytes are not a value of the type"

theorem strict_roundTrips : strict.RoundTrips := by
  intro registry ty value bytes h
  simp only [strict] at h
  split at h
  · rename_i encoded read
    have same : encoded = bytes := Except.ok.inj h
    have back := encode_decode registry validUtf8 read []
    rw [List.append_nil, same] at back
    exact back
  · cases h

/-- Types of a fuel tank's `dispatch`: its tank, its inner call, and settings
whose signature stands before the last flag. -/
def tankTypes : PortableRegistry where
  types := [
    .primitive (.uint .w8), .array 64 0, .primitive (.uint .w32),
    .composite [⟨some "signature", 1⟩, ⟨some "expiry_block", 2⟩],
    .variant [⟨"None", 0, []⟩, ⟨"Some", 1, [⟨none, 3⟩]⟩],
    .primitive .bool,
    .composite [⟨some "use_none_origin", 5⟩, ⟨some "pays_remaining_fee", 5⟩,
      ⟨some "signature", 4⟩, ⟨some "create_account", 5⟩],
    .variant [⟨"None", 0, []⟩, ⟨"Some", 1, [⟨none, 6⟩]⟩],
    .variant [⟨"System", 0, [⟨none, 9⟩]⟩], .variant [⟨"remark", 0, [⟨some "remark", 10⟩]⟩],
    .sequence 0, .variant [⟨"Id", 0, [⟨none, 12⟩]⟩], .array 32 0]

def tankMetadata : Metadata where
  pallets := [⟨"FuelTanks", 54, [⟨"dispatch", 5, [⟨"tank_id", 11⟩, ⟨"call", 8⟩, ⟨"settings", 7⟩]⟩]⟩]
  types := tankTypes

def remarkDispatch (settings : Bytes) : Bytes :=
  [54, 5, 0] ++ List.replicate 32 7 ++ [0, 0, 4, 42] ++ settings

def signedSettings (byte : UInt8) (expiry : Bytes) : Bytes :=
  [1, 0, 1, 1] ++ List.replicate 64 byte ++ expiry ++ [1]

end Strict

/-- An old signature is replaced. -/
theorem signDispatch_rewrites_signed :
    ∃ info parts settingsArg callArg settingsAt callAt call settings fields signatureAt,
      Rewrites strict tankMetadata (List.replicate 32 8) 1000 (fun _ => ⟨List.replicate 64 3, rfl⟩)
        (remarkDispatch (signedSettings 9 [1, 0, 0, 0]))
        (remarkDispatch (signedSettings 3 [232, 3, 0, 0]))
        [[0, 0, 4, 42] ++ List.replicate 32 8 ++ [232, 3, 0, 0]]
        info parts settingsArg callArg settingsAt callAt call settings fields signatureAt :=
  signDispatch_rewrites strict strict_roundTrips tankMetadata _ _ _ _ _ _ (by rfl)

/-- Whether a signature can be encoded does not depend on its 64 bytes. -/
def ScaleLibrary.SignatureBlind (scale : ScaleLibrary) : Prop :=
  ∀ registry ty fields signatureAt expirationBlock signature signature',
    (scale.encodeAsType registry ty
      (settingsValue fields signatureAt signature expirationBlock)).isOk =
    (scale.encodeAsType registry ty
      (settingsValue fields signatureAt signature' expirationBlock)).isOk

theorem encodeSettings_isOk {scale : ScaleLibrary} (metadata : Metadata) (ty : TypeId)
    (fields : List (String × Value)) (signatureAt expirationBlock : Nat) (signature : Signature) :
    (encodeSettings scale metadata ty fields signatureAt expirationBlock signature).isOk =
      (scale.encodeAsType metadata.types ty
        (settingsValue fields signatureAt signature expirationBlock)).isOk := by
  unfold encodeSettings
  rcases scale.encodeAsType metadata.types ty
    (settingsValue fields signatureAt signature expirationBlock) with (_ | _) | _ <;> rfl

theorem Signing.lift_andThen {α β : Type} (result : Except Failure α) (f : α → Signing β)
    (log : List Bytes) :
    (Signing.lift result).andThen f log =
      match result with
      | .ok a => f a log
      | .error e => (.error e, log) := by
  cases result <;> rfl

/-- One message was signed for a success, and none for a refusal. -/
structure SignedOnce (result : Except Failure Bytes × List Bytes) : Prop where
  ok : ∀ out, result.1 = .ok out → result.2.length = 1
  error : ∀ e, result.1 = .error e → result.2 = []

theorem SignedOnce.of_error (e : Failure) : SignedOnce (.error e, []) :=
  ⟨nofun, fun _ _ => rfl⟩

theorem SignedOnce.of_ok (out : Bytes) {log : List Bytes} (one : log.length = 1) :
    SignedOnce (.ok out, log) :=
  ⟨fun _ _ => one, nofun⟩

/-- The signing function is invoked once by a success and never by a refusal. -/
theorem signDispatch_signs_once (scale : ScaleLibrary) (blind : scale.SignatureBlind)
    (metadata : Metadata) (tx publicKey : Bytes) (expirationBlock : Nat)
    (sign : Bytes → Signature) :
    SignedOnce (signDispatch scale tx metadata publicKey expirationBlock sign []) := by
  rw [signDispatch, Signing.lift_andThen]
  cases locate scale tx metadata with
  | error e => exact .of_error e
  | ok found =>
    obtain ⟨call, settings, ty⟩ := found
    dsimp only
    rw [Signing.lift_andThen]
    cases dispatchSettings scale (settings.slice tx) ty metadata with
    | error e => exact .of_error e
    | ok fields =>
      dsimp only
      rw [Signing.lift_andThen]
      cases signatureField fields with
      | error e => exact .of_error e
      | ok signatureAt =>
        dsimp only
        rw [Signing.lift_andThen]
        have same := blind metadata.types ty fields signatureAt expirationBlock placeholder
          (sign (dispatchMessage (call.slice tx) publicKey expirationBlock))
        rw [← encodeSettings_isOk, ← encodeSettings_isOk] at same
        cases first : encodeSettings scale metadata ty fields signatureAt expirationBlock
            placeholder with
        | error e => exact .of_error e
        | ok encoded =>
          dsimp only
          rw [Signing.andThen, Signing.invoke]
          dsimp only
          rw [Signing.lift_andThen]
          cases real : encodeSettings scale metadata ty fields signatureAt expirationBlock
              (sign (dispatchMessage (call.slice tx) publicKey expirationBlock)) with
          | error e =>
            rw [first, real] at same
            cases same
          | ok encoded => exact .of_ok _ rfl

theorem fromBytes_alike {registry : PortableRegistry} {bytes bytes' : Bytes}
    (length : bytes.length = bytes'.length) :
    Alike registry (fromBytes bytes) (fromBytes bytes') := by
  refine Alike.composite (.unnamed ?_)
  rw [List.forall₂_map_left_iff, List.forall₂_map_right_iff]
  exact List.forall₂_iff_get.mpr ⟨length, fun i _ _ => Alike.byte _ _⟩

theorem settingsValue_alike (registry : PortableRegistry) (fields : List (String × Value))
    (signatureAt expirationBlock : Nat) (signature signature' : Signature) :
    Alike registry (settingsValue fields signatureAt signature expirationBlock)
      (settingsValue fields signatureAt signature' expirationBlock) := by
  have bytes : Alike registry (fromBytes signature.1) (fromBytes signature'.1) :=
    fromBytes_alike (signature.2.trans signature'.2.symm)
  have expirable : Alike registry (signatureValue signature expirationBlock)
      (signatureValue signature' expirationBlock) :=
    .variant _ (.unnamed (.cons (.composite (.named
      (.cons ⟨rfl, bytes⟩ (.cons ⟨rfl, .refl _⟩ .nil)))) .nil))
  refine .variant _ (.unnamed (.cons (.composite (.named ?_)) .nil))
  refine List.forall₂_iff_get.mpr ⟨by simp [signedFields], fun i _ _ => ?_⟩
  simp only [signedFields, List.get_eq_getElem, List.getElem_modify]
  split
  · exact ⟨rfl, expirable⟩
  · exact ⟨rfl, .refl _⟩

theorem strict_signatureBlind : strict.SignatureBlind := by
  intro registry ty fields signatureAt expirationBlock signature signature'
  have same := settingsValue_alike registry fields signatureAt expirationBlock
    signature signature' 8 ty
  have isOk : ∀ value, (strict.encodeAsType registry ty value).isOk =
      (encode registry 8 ty value).isSome := by
    intro value
    simp only [strict]
    cases encode registry 8 ty value <;> rfl
  rw [isOk, isOk, same]

/-- Settings that are not sent are filled in and signed once. -/
theorem signDispatch_signs_once_none :
    SignedOnce (signDispatch strict (remarkDispatch [0]) tankMetadata (List.replicate 32 8) 1000
      (fun _ => ⟨List.replicate 64 3, rfl⟩) []) :=
  signDispatch_signs_once strict strict_signatureBlind tankMetadata _ _ _ _

end WalletDaemon.FuelTank
