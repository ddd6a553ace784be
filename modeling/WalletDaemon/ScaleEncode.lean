import WalletDaemon.Scale

/-! A strict encoder for the values a fuel tank call is made of: composites,
tuples, variants, arrays, bools and integers of at most 128 bits. What it
encodes decodes to the same value, so the assumption made of the library's
encoder has a model. -/

namespace WalletDaemon.Scale

open Reader

/-- The values of a composite laid out as `fields` are. -/
def fieldValues (fields : List Field) : Composite → Option (List Value)
  | .unnamed values =>
    if fields.isEmpty || fields.any (fun f => f.name.isNone) then some values else none
  | .named values =>
    if fields.isEmpty || fields.any (fun f => f.name.isNone) then none
    else if values.map Prod.fst = fields.map fun f => f.name.getD "" then
      some (values.map Prod.snd)
    else none

def encodeEach {α : Type} (enc : α → Value → Option Bytes) : List α → List Value → Option Bytes
  | [], [] => some []
  | a :: as, v :: vs => (enc a v).bind fun first => (encodeEach enc as vs).map (first ++ ·)
  | _, _ => none

def encode (registry : PortableRegistry) : (stack : Nat) → TypeId → Value → Option Bytes
  | 0, _, _ => none
  | stack + 1, ty, value =>
    match registry.resolve ty, value with
    | some (.composite fields), .composite values =>
      (fieldValues fields values).bind
        (encodeEach (fun f : Field => encode registry stack f.ty) fields)
    | some (.tuple ids), .composite (.unnamed values) =>
      encodeEach (encode registry stack) ids values
    | some (.variant variants), .variant name values =>
      match variants.find? fun v => v.name = name with
      | none => none
      | some v =>
        if variants.find? (fun w => w.index = v.index) = some v then
          (fieldValues v.fields values).bind fun values =>
            (encodeEach (fun f : Field => encode registry stack f.ty) v.fields values).map
              (v.index :: ·)
        else none
    | some (.array len item), .composite (.unnamed values) =>
      encodeEach (fun _ => encode registry stack item) (List.replicate len ()) values
    | some (.primitive .bool), .primitive (.bool flag) => some [if flag then 1 else 0]
    | some (.primitive (.uint width)), .primitive (.u128 n) =>
      if width ≠ .w256 ∧ n < 256 ^ width.bytes then some (leBytes width.bytes n) else none
    | _, _ => none

theorem leBytes_length (width n : Nat) : (leBytes width n).length = width := by
  induction width generalizing n with
  | zero => rfl
  | succ width ih => simp [leBytes, ih]

theorem leNat_leBytes {width n : Nat} (bound : n < 256 ^ width) :
    leNat (leBytes width n) = n := by
  induction width generalizing n with
  | zero =>
    simp only [Nat.pow_zero, Nat.lt_one_iff] at bound
    simp [leBytes, leNat, bound]
  | succ width ih =>
    have rest : n / 256 < 256 ^ width := by
      rw [Nat.pow_succ] at bound
      exact Nat.div_lt_of_lt_mul (by omega)
    have low : (UInt8.ofNat (n % 256)).toNat = n % 256 := by
      rw [UInt8.toNat_ofNat']
      omega
    rw [leBytes, leNat, ih rest, low]
    omega

theorem leNat_append (front back : Bytes) :
    leNat (front ++ back) = leNat front + 256 ^ front.length * leNat back := by
  induction front with
  | nil => simp [leNat]
  | cons b front ih =>
    rw [List.cons_append, leNat, leNat, ih, List.length_cons, Nat.pow_succ', Nat.mul_assoc,
      Nat.mul_add, Nat.add_assoc]

theorem leNat_zeros (n : Nat) : leNat (List.replicate n 0) = 0 := by
  induction n with
  | zero => rfl
  | succ n ih => simp [List.replicate_succ, leNat, ih]

theorem leNat_inj {front back : Bytes} (length : front.length = back.length)
    (h : leNat front = leNat back) : front = back := by
  induction front generalizing back with
  | nil => exact (List.length_eq_zero_iff.mp length.symm).symm
  | cons b front ih =>
    cases back with
    | nil => cases length
    | cons c back =>
      simp only [leNat] at h
      have low := b.toNat_lt
      have low' := c.toNat_lt
      have first : b.toNat = c.toNat := by omega
      have later : front = back := ih (by simpa using length) (by omega)
      rw [UInt8.toNat_inj.mp first, later]

theorem fieldValues_ofFields {fields : List Field} {given : Composite} {values : List Value}
    (h : fieldValues fields given = some values) :
    Composite.ofFields fields values = given := by
  unfold fieldValues at h
  unfold Composite.ofFields
  split at h
  · split at h
    · rename_i layout
      have same := Option.some.inj h
      rw [if_pos layout, same]
    · cases h
  · rename_i named
    split at h
    · cases h
    rename_i layout
    split at h
    · rename_i names
      have same := Option.some.inj h
      have zipped : (named.map Prod.fst).zip (named.map Prod.snd) = named := by
        simp [List.zip_map']
      rw [if_neg layout, ← names, ← same, zipped]
    · cases h

theorem encodeEach_each {α : Type} {enc : α → Value → Option Bytes} {r : α → Decoding Value}
    (agree : ∀ a v bytes tail, enc a v = some bytes → r a (bytes ++ tail) = .ok (v, tail))
    {as : List α} {values : List Value} {bytes : Bytes}
    (h : encodeEach enc as values = some bytes) (tail : Bytes) :
    each r as (bytes ++ tail) = .ok (values, tail) := by
  induction as generalizing values bytes with
  | nil =>
    cases values with
    | nil =>
      have empty := Option.some.inj h
      rw [← empty]
      rfl
    | cons v vs => cases h
  | cons a as ih =>
    cases values with
    | nil => cases h
    | cons v vs =>
      obtain ⟨first, head, h⟩ := Option.bind_eq_some_iff.mp h
      obtain ⟨rest, others, joined⟩ := Option.map_eq_some_iff.mp h
      rw [← joined, List.append_assoc]
      exact each_cons_of_ok (agree a v first _ head) (ih others)

theorem times_eq_each {r : Decoding Value} (n : Nat) :
    times r n = each (fun _ : Unit => r) (List.replicate n ()) := by
  induction n with
  | zero => rfl
  | succ n ih => rw [times, ih, List.replicate_succ, each]

theorem readByte_cons (b : UInt8) (tail : Bytes) : readByte (b :: tail) = .ok (b, tail) := by
  simp [readByte, takeBytes, Reader.map, Reader.andThen, Reader.take, Reader.done]

theorem decodePrimitive_bool (utf8 : Bytes → Bool) (flag : Bool) (tail : Bytes) :
    decodePrimitive utf8 false .bool ((if flag then 1 else 0) :: tail) =
      .ok (.bool flag, tail) := by
  unfold decodePrimitive
  refine andThen_ok.mpr ⟨_, tail, readByte_cons _ _, ?_⟩
  cases flag <;> rfl

theorem decodePrimitive_uint (utf8 : Bytes → Bool) {width : IntWidth} {n : Nat}
    (narrow : width ≠ .w256) (bound : n < 256 ^ width.bytes) (tail : Bytes) :
    decodePrimitive utf8 false (.uint width) (leBytes width.bytes n ++ tail) =
      .ok (.u128 n, tail) := by
  have plain : decodePrimitive utf8 false (.uint width) =
      (takeBytes width.bytes).map fun bytes => .u128 (leNat bytes) := by
    cases width <;> first | rfl | exact absurd rfl narrow
  have taken : takeBytes width.bytes (leBytes width.bytes n ++ tail) =
      .ok (leBytes width.bytes n, tail) := take_ok.mpr ⟨rfl, leBytes_length _ _⟩
  rw [plain, map_of_ok _ taken, leNat_leBytes bound]

theorem encode_decode (registry : PortableRegistry) (utf8 : Bytes → Bool) {stack : Nat}
    {ty : TypeId} {value : Value} {bytes : Bytes}
    (h : encode registry stack ty value = some bytes) (tail : Bytes) :
    decode registry utf8 stack false ty (bytes ++ tail) = .ok (value, tail) := by
  induction stack generalizing ty value bytes tail with
  | zero => cases h
  | succ stack ih =>
    unfold encode at h
    unfold decode
    split at h
    · rename_i fields values shape
      obtain ⟨each_, layout, h⟩ := Option.bind_eq_some_iff.mp h
      have read := encodeEach_each
        (r := fun f : Field => decode registry utf8 stack false f.ty)
        (fun _ _ _ tail one => ih one tail) h tail
      rw [shape]
      simp only [Bool.false_eq_true, false_and, if_false]
      rw [map_of_ok _ read, fieldValues_ofFields layout]
    · rename_i ids values shape
      have read := encodeEach_each (r := decode registry utf8 stack false)
        (fun _ _ _ tail one => ih one tail) h tail
      rw [shape]
      simp only [Bool.false_eq_true, false_and, if_false]
      rw [map_of_ok _ read]
    · rename_i variants name values shape
      split at h
      · cases h
      rename_i v found
      split at h
      · rename_i unique
        obtain ⟨each_, layout, h⟩ := Option.bind_eq_some_iff.mp h
        obtain ⟨rest, encoded, joined⟩ := Option.map_eq_some_iff.mp h
        have read := encodeEach_each
          (r := fun f : Field => decode registry utf8 stack false f.ty)
          (fun _ _ _ tail one => ih one tail) encoded tail
        have named : v.name = name := by simpa using List.find?_some found
        rw [shape, ← joined]
        simp only [Bool.false_eq_true, if_false]
        refine andThen_ok.mpr ⟨v.index, rest ++ tail, mapError_ok.mpr (readByte_cons _ _), ?_⟩
        rw [unique]
        dsimp only
        rw [map_of_ok _ read, fieldValues_ofFields layout, named]
      · cases h
    · rename_i len item values shape
      have read := encodeEach_each (r := fun _ : Unit => decode registry utf8 stack false item)
        (fun _ _ _ tail one => ih one tail) h tail
      rw [shape]
      simp only [Bool.false_eq_true, if_false]
      rw [times_eq_each, map_of_ok _ read]
    · rename_i flag shape
      have one := Option.some.inj h
      rw [shape, ← one]
      exact map_of_ok _ (mapError_ok.mpr (decodePrimitive_bool utf8 flag tail))
    · rename_i width n shape
      split at h
      · rename_i fits
        have coded := Option.some.inj h
        rw [shape, ← coded]
        exact map_of_ok _ (mapError_ok.mpr (decodePrimitive_uint utf8 fits.1 fits.2 tail))
      · cases h
    · cases h

section Alike

def Alike (registry : PortableRegistry) (v w : Value) : Prop :=
  ∀ stack ty, (encode registry stack ty v).isSome = (encode registry stack ty w).isSome

/-- Composites of one shape whose values are alike, pairwise. -/
inductive AlikeFields (registry : PortableRegistry) : Composite → Composite → Prop
  | named {fs gs : List (String × Value)} :
      List.Forall₂ (fun f g => f.1 = g.1 ∧ Alike registry f.2 g.2) fs gs →
      AlikeFields registry (.named fs) (.named gs)
  | unnamed {vs ws : List Value} :
      List.Forall₂ (Alike registry) vs ws → AlikeFields registry (.unnamed vs) (.unnamed ws)

variable {registry : PortableRegistry}

theorem Alike.refl (v : Value) : Alike registry v v := fun _ _ => rfl

theorem isSome_bind_congr {α : Type} {x y : Option α} {f g : α → Option Bytes}
    (none_ : x.isSome = y.isSome)
    (some_ : ∀ a b, x = some a → y = some b → (f a).isSome = (g b).isSome) :
    (x.bind f).isSome = (y.bind g).isSome := by
  cases x with
  | none =>
    cases y with
    | none => rfl
    | some b => cases none_
  | some a =>
    cases y with
    | none => cases none_
    | some b => exact some_ a b rfl rfl

theorem encodeEach_alike {α : Type} (enc : α → Value → Option Bytes) (as : List α)
    {vs ws : List Value}
    (alike : List.Forall₂ (fun v w => ∀ a, (enc a v).isSome = (enc a w).isSome) vs ws) :
    (encodeEach enc as vs).isSome = (encodeEach enc as ws).isSome := by
  induction alike generalizing as with
  | nil => cases as <;> rfl
  | cons head _ ih =>
    cases as with
    | nil => rfl
    | cons a as =>
      refine isSome_bind_congr (head a) fun _ _ _ _ => ?_
      rw [Option.isSome_map, Option.isSome_map]
      exact ih as

theorem encodeEach_each_alike {α : Type} (type : α → TypeId) (stack : Nat) (as : List α)
    {vs ws : List Value} (alike : List.Forall₂ (Alike registry) vs ws) :
    (encodeEach (fun a => encode registry stack (type a)) as vs).isSome =
      (encodeEach (fun a => encode registry stack (type a)) as ws).isSome :=
  encodeEach_alike _ as (alike.imp fun _ _ one a => one stack (type a))

theorem fieldValues_alike (fields : List Field) {c d : Composite}
    (alike : AlikeFields registry c d) :
    (fieldValues fields c).isSome = (fieldValues fields d).isSome ∧
      ∀ vs ws, fieldValues fields c = some vs → fieldValues fields d = some ws →
        List.Forall₂ (Alike registry) vs ws := by
  cases alike with
  | named each_ =>
    rename_i fs gs
    have names : fs.map Prod.fst = gs.map Prod.fst := by
      induction each_ with
      | nil => rfl
      | cons head _ ih => rw [List.map_cons, List.map_cons, head.1, ih]
    have values : List.Forall₂ (Alike registry) (fs.map Prod.snd) (gs.map Prod.snd) := by
      rw [List.forall₂_map_left_iff, List.forall₂_map_right_iff]
      exact each_.imp fun _ _ one => one.2
    simp only [fieldValues, names]
    split
    · simp
    split
    · refine ⟨rfl, ?_⟩
      rintro _ _ ⟨⟩ ⟨⟩
      exact values
    · simp
  | unnamed each_ =>
    simp only [fieldValues]
    split
    · refine ⟨rfl, ?_⟩
      rintro _ _ ⟨⟩ ⟨⟩
      exact each_
    · simp

theorem Alike.byte (b c : UInt8) :
    Alike registry (.primitive (.u128 b.toNat)) (.primitive (.u128 c.toNat)) := by
  intro stack ty
  cases stack with
  | zero => rfl
  | succ stack =>
    have fits : ∀ (width : IntWidth) (b : UInt8), b.toNat < 256 ^ width.bytes := by
      intro width b
      have one : b.toNat < 256 := b.toNat_lt
      cases width <;> simp only [IntWidth.bytes] <;> omega
    unfold encode
    cases registry.resolve ty with
    | none => rfl
    | some shape =>
      cases shape with
      | primitive p =>
        cases p with
        | uint width =>
          simp only [fits, and_true]
          split <;> rfl
        | _ => rfl
      | _ => rfl

theorem Alike.composite {c d : Composite} (alike : AlikeFields registry c d) :
    Alike registry (.composite c) (.composite d) := by
  intro stack ty
  cases stack with
  | zero => rfl
  | succ stack =>
    unfold encode
    cases registry.resolve ty with
    | none => rfl
    | some shape =>
      cases shape with
      | composite fields =>
        have layout := fieldValues_alike fields alike
        exact isSome_bind_congr layout.1 fun vs ws first second =>
          encodeEach_each_alike Field.ty stack fields (layout.2 vs ws first second)
      | tuple ids =>
        cases alike with
        | named _ => rfl
        | unnamed each_ => exact encodeEach_each_alike id stack ids each_
      | array len item =>
        cases alike with
        | named _ => rfl
        | unnamed each_ => exact encodeEach_each_alike (fun _ => item) stack _ each_
      | primitive p => cases p <;> rfl
      | _ => rfl

theorem Alike.variant (name : String) {c d : Composite} (alike : AlikeFields registry c d) :
    Alike registry (.variant name c) (.variant name d) := by
  intro stack ty
  cases stack with
  | zero => rfl
  | succ stack =>
    unfold encode
    cases registry.resolve ty with
    | none => rfl
    | some shape =>
      cases shape with
      | variant variants =>
        dsimp only
        cases variants.find? fun v => v.name = name with
        | none => rfl
        | some v =>
          dsimp only
          split
          · have layout := fieldValues_alike v.fields alike
            refine isSome_bind_congr layout.1 fun vs ws first second => ?_
            rw [Option.isSome_map, Option.isSome_map]
            exact encodeEach_each_alike Field.ty stack v.fields (layout.2 vs ws first second)
          · rfl
      | primitive p => cases p <;> rfl
      | _ => rfl

end Alike

end WalletDaemon.Scale
