import WalletDaemon.Platform
import WalletDaemon.Reader
import Mathlib.Algebra.Group.Nat.Defs
import Mathlib.Algebra.Group.Int.Defs

/-! SCALE over a portable type registry.
A registry may be recursive, and the library's decoder has no bound of its own
on nesting. `stack` is the number of levels the caller's stack holds; to need
more of them is no error of the library's but the end of the process. What is
proved holds for every `stack`. Values carry no type context. -/

namespace WalletDaemon.Scale

open Reader

abbrev TypeId := Nat

inductive IntWidth
  | w8
  | w16
  | w32
  | w64
  | w128
  | w256
deriving DecidableEq, Repr

def IntWidth.bytes : IntWidth → Nat
  | .w8 => 1
  | .w16 => 2
  | .w32 => 4
  | .w64 => 8
  | .w128 => 16
  | .w256 => 32

inductive PrimitiveType
  | bool
  | char
  | str
  | uint (width : IntWidth)
  | int (width : IntWidth)
deriving DecidableEq, Repr

structure Field where
  name : Option String
  ty : TypeId
deriving DecidableEq, Repr

structure Variant where
  name : String
  index : UInt8
  fields : List Field
deriving DecidableEq, Repr

inductive TypeDef
  | composite (fields : List Field)
  | variant (variants : List Variant)
  | sequence (ty : TypeId)
  | array (len : Nat) (ty : TypeId)
  | tuple (fields : List TypeId)
  | primitive (p : PrimitiveType)
  | compact (ty : TypeId)
  | bitSequence (msb : Bool) (store : Nat)
deriving DecidableEq, Repr

structure PortableRegistry where
  types : List TypeDef
deriving DecidableEq, Repr

def PortableRegistry.resolve (registry : PortableRegistry) (ty : TypeId) : Option TypeDef :=
  registry.types[ty]?

inductive Primitive
  | bool (flag : Bool)
  | char (c : Char)
  | string (bytes : Bytes)
  | u128 (n : Nat)
  | i128 (n : Int)
  | u256 (bytes : Bytes)
  | i256 (bytes : Bytes)
deriving DecidableEq, Repr

mutual

inductive Value
  | primitive (p : Primitive)
  | composite (values : Composite)
  | variant (name : String) (values : Composite)
  | bitSequence (bits : List Bool)

inductive Composite
  | named (fields : List (String × Value))
  | unnamed (values : List Value)

end

def Composite.isEmpty : Composite → Bool
  | .named fields => fields.isEmpty
  | .unnamed values => values.isEmpty

/-- Fields are named only when there are some and all of them are. -/
def Composite.ofFields (fields : List Field) (values : List Value) : Composite :=
  if fields.isEmpty || fields.any (fun f => f.name.isNone) then .unnamed values
  else .named ((fields.map fun f => f.name.getD "").zip values)

inductive DecodeError
  | notEnoughInput
  | typeIdNotFound (ty : TypeId)
  | variantNotFound (index : UInt8)
  | invalidBool (byte : UInt8)
  | invalidChar (code : Nat)
  | invalidStr
  | invalidCompact
  | cannotDecodeCompactIntoType
deriving DecidableEq, Repr

/-- What a reading comes to in place of a value. -/
inductive Stop
  | error (error : DecodeError)
  | stackOverflow
deriving DecidableEq, Repr

abbrev Decoder := Reader UInt8 DecodeError

abbrev Decoding := Reader UInt8 Stop

def refuse {α : Type} (error : DecodeError) : Decoding α := fail (.error error)

/-- What nests nothing needs no more of the stack. -/
def shallow {α : Type} (r : Decoder α) : Decoding α := r.mapError .error

def leNat : Bytes → Nat
  | [] => 0
  | b :: rest => b.toNat + 256 * leNat rest

def leBytes : (width : Nat) → Nat → Bytes
  | 0, _ => []
  | width + 1, n => UInt8.ofNat (n % 256) :: leBytes width (n / 256)

def takeBytes (n : Nat) : Decoder Bytes := take .notEnoughInput n

def readByte : Decoder UInt8 := (takeBytes 1).map fun bytes => bytes.headD 0

/-- Each length of a compact integer admits only values no shorter form holds. -/
def canonical (width least n : Nat) : Decoder Nat :=
  if least ≤ n ∧ n < 256 ^ width then done n else fail .invalidCompact

def compactUint (width : Nat) : Decoder Nat :=
  readByte.andThen fun first =>
    let high := first.toNat / 4
    match first.toNat % 4 with
    | 0 => done high
    | 1 => (takeBytes 1).andThen fun more => canonical width (2 ^ 6) (high + 2 ^ 6 * leNat more)
    | 2 => (takeBytes 3).andThen fun more => canonical width (2 ^ 14) (high + 2 ^ 6 * leNat more)
    | _ =>
      if high + 4 ≤ width then
        (takeBytes (high + 4)).andThen fun more =>
          canonical width (if high = 0 then 2 ^ 30 else 256 ^ (high + 3)) (leNat more)
      else fail .invalidCompact

def leInt (bytes : Bytes) : Int :=
  let n := leNat bytes
  if 2 * n < 256 ^ bytes.length then n else (n : Int) - 256 ^ bytes.length

/-- `utf8` says which contents a string may have. -/
def decodePrimitive (utf8 : Bytes → Bool) (compact : Bool) (p : PrimitiveType) :
    Decoder Primitive :=
  match p, compact with
  | .uint .w256, false => (takeBytes 32).map .u256
  | .uint width, false => (takeBytes width.bytes).map fun bytes => .u128 (leNat bytes)
  | .uint .w256, true => fail .cannotDecodeCompactIntoType
  | .uint width, true => (compactUint width.bytes).map .u128
  | _, true => fail .cannotDecodeCompactIntoType
  | .int .w256, false => (takeBytes 32).map .i256
  | .int width, false => (takeBytes width.bytes).map fun bytes => .i128 (leInt bytes)
  | .bool, false => readByte.andThen fun byte =>
      if byte = 0 then done (.bool false) else if byte = 1 then done (.bool true)
      else fail (.invalidBool byte)
  | .char, false => (takeBytes 4).andThen fun bytes =>
      if (leNat bytes).isValidChar then done (.char (Char.ofNat (leNat bytes)))
      else fail (.invalidChar (leNat bytes))
  | .str, false => (compactUint 8).andThen fun len => (takeBytes len).andThen fun bytes =>
      if utf8 bytes then done (.string bytes) else fail .invalidStr

def wordBits (msb : Bool) (word : Bytes) : List Bool :=
  let bits := (List.range (8 * word.length)).map (leNat word).testBit
  if msb then bits.reverse else bits

def decodeBits (msb : Bool) (store : Nat) : Decoder (List Bool) :=
  (compactUint 4).andThen fun len =>
    (times (takeBytes store) ((len + 8 * store - 1) / (8 * store))).map fun words =>
      (words.flatMap (wordBits msb)).take len

/-- The library's decoder into a `Value`. -/
def decode (registry : PortableRegistry) (utf8 : Bytes → Bool) :
    (stack : Nat) → (compact : Bool) → TypeId → Decoding Value
  | 0, _, _ => fail .stackOverflow
  | stack + 1, compact, ty =>
    match registry.resolve ty with
    | none => refuse (.typeIdNotFound ty)
    | some (.composite fields) =>
      if compact ∧ fields.length ≠ 1 then refuse .cannotDecodeCompactIntoType
      else (each (fun f : Field => decode registry utf8 stack compact f.ty) fields).map
        fun values => .composite (.ofFields fields values)
    | some (.tuple ids) =>
      if compact ∧ ids.length ≠ 1 then refuse .cannotDecodeCompactIntoType
      else (each (decode registry utf8 stack compact) ids).map
        fun values => .composite (.unnamed values)
    | some (.variant variants) =>
      if compact then refuse .cannotDecodeCompactIntoType
      else (shallow readByte).andThen fun index =>
        match variants.find? fun v => v.index = index with
        | none => refuse (.variantNotFound index)
        | some v => (each (fun f : Field => decode registry utf8 stack false f.ty) v.fields).map
            fun values => .variant v.name (.ofFields v.fields values)
    | some (.sequence item) =>
      if compact then refuse .cannotDecodeCompactIntoType
      else (shallow (compactUint 8)).andThen fun len =>
        (times (decode registry utf8 stack false item) len).map
          fun values => .composite (.unnamed values)
    | some (.array len item) =>
      if compact then refuse .cannotDecodeCompactIntoType
      else (times (decode registry utf8 stack false item) len).map
        fun values => .composite (.unnamed values)
    | some (.primitive p) => (shallow (decodePrimitive utf8 compact p)).map .primitive
    | some (.compact inner) => decode registry utf8 stack true inner
    | some (.bitSequence msb store) =>
      if compact then refuse .cannotDecodeCompactIntoType
      else (shallow (decodeBits msb store)).map .bitSequence

/-- Rust strings hold UTF-8. -/
def validUtf8 (bytes : Bytes) : Bool := ByteArray.validateUTF8 ⟨bytes.toArray⟩

/-- The contents of a string are only looked at when it becomes a `String`. -/
def anyBytes (_ : Bytes) : Bool := true

/-- `bytes` is one value of type `ty`, read without a bound on nesting. -/
def Decodes (registry : PortableRegistry) (utf8 : Bytes → Bool) (ty : TypeId) (bytes : Bytes)
    (value : Value) : Prop :=
  ∃ stack, decode registry utf8 stack false ty bytes = .ok (value, [])

theorem readByte_local : Local readByte := (Local.take _ _).map _

theorem canonical_local (width least n : Nat) : Local (canonical width least n) :=
  (Local.done _).ite (Local.fail _)

theorem compactUint_local (width : Nat) : Local (compactUint width) := by
  refine readByte_local.andThen fun first => ?_
  dsimp only
  split
  · exact Local.done _
  · exact (Local.take _ _).andThen fun _ => canonical_local _ _ _
  · exact (Local.take _ _).andThen fun _ => canonical_local _ _ _
  · exact ((Local.take _ _).andThen fun _ => canonical_local _ _ _).ite (Local.fail _)

theorem decodePrimitive_local (utf8 : Bytes → Bool) (compact : Bool) (p : PrimitiveType) :
    Local (decodePrimitive utf8 compact p) := by
  unfold decodePrimitive
  split
  · exact (Local.take _ _).map _
  · exact (Local.take _ _).map _
  · exact Local.fail _
  · exact (compactUint_local _).map _
  · exact Local.fail _
  · exact (Local.take _ _).map _
  · exact (Local.take _ _).map _
  · exact readByte_local.andThen fun _ =>
      (Local.done _).ite ((Local.done _).ite (Local.fail _))
  · exact (Local.take _ _).andThen fun _ => (Local.done _).ite (Local.fail _)
  · exact (compactUint_local _).andThen fun _ =>
      (Local.take _ _).andThen fun _ => (Local.done _).ite (Local.fail _)

theorem decodeBits_local (msb : Bool) (store : Nat) : Local (decodeBits msb store) :=
  (compactUint_local _).andThen fun _ => ((Local.take _ _).times _).map _

theorem decode_local (registry : PortableRegistry) (utf8 : Bytes → Bool) (stack : Nat)
    (compact : Bool) (ty : TypeId) : Local (decode registry utf8 stack compact ty) := by
  induction stack generalizing compact ty with
  | zero => exact Local.fail _
  | succ stack ih =>
    unfold decode
    split
    · exact Local.fail _
    · exact (Local.fail _).ite ((Local.each (fun f => ih _ _) _).map _)
    · exact (Local.fail _).ite ((Local.each (fun t => ih _ _) _).map _)
    · refine (Local.fail _).ite ((readByte_local.mapError _).andThen fun index => ?_)
      split
      · exact Local.fail _
      · exact (Local.each (fun f => ih _ _) _).map _
    · exact (Local.fail _).ite
        (((compactUint_local _).mapError _).andThen fun _ => ((ih _ _).times _).map _)
    · exact (Local.fail _).ite (((ih _ _).times _).map _)
    · exact ((decodePrimitive_local _ _ _).mapError _).map _
    · exact ih _ _
    · exact (Local.fail _).ite (((decodeBits_local _ _).mapError _).map _)

theorem decodePrimitive_refines {utf8 utf8' : Bytes → Bool}
    (weaker : ∀ bytes, utf8 bytes = true → utf8' bytes = true) (compact : Bool)
    (p : PrimitiveType) :
    Refines (decodePrimitive utf8 compact p) (decodePrimitive utf8' compact p) := by
  by_cases text : p = .str ∧ compact = false
  · obtain ⟨rfl, rfl⟩ := text
    refine (Refines.refl _).andThen fun len => (Refines.refl _).andThen fun bytes => ?_
    by_cases valid : utf8 bytes = true
    · rw [if_pos valid, if_pos (weaker bytes valid)]
      exact Refines.refl _
    · rw [if_neg valid]
      exact Refines.fail _ _
  · have same : decodePrimitive utf8 compact p = decodePrimitive utf8' compact p := by
      unfold decodePrimitive
      split <;> first | rfl | simp at text
    rw [same]
    exact Refines.refl _

/-- More stack and a laxer reading of strings keep every success. -/
theorem decode_refines (registry : PortableRegistry) {utf8 utf8' : Bytes → Bool}
    (weaker : ∀ bytes, utf8 bytes = true → utf8' bytes = true) (stack extra : Nat)
    (compact : Bool) (ty : TypeId) :
    Refines (decode registry utf8 stack compact ty)
      (decode registry utf8' (stack + extra) compact ty) := by
  induction stack generalizing compact ty with
  | zero => exact Refines.fail _ _
  | succ stack ih =>
    rw [Nat.succ_add]
    unfold decode
    cases registry.resolve ty with
    | none => exact Refines.refl _
    | some def_ =>
      cases def_ with
      | composite fields =>
        exact (Refines.refl _).ite ((Refines.each (fun f => ih _ _) _).map _)
      | tuple ids => exact (Refines.refl _).ite ((Refines.each (fun t => ih _ _) _).map _)
      | variant variants =>
        refine (Refines.refl _).ite ((Refines.refl _).andThen fun index => ?_)
        split
        · exact Refines.refl _
        · exact (Refines.each (fun f => ih _ _) _).map _
      | sequence item =>
        exact (Refines.refl _).ite ((Refines.refl _).andThen fun _ => ((ih _ _).times _).map _)
      | array len item => exact (Refines.refl _).ite (((ih _ _).times _).map _)
      | primitive p => exact ((decodePrimitive_refines weaker _ _).mapError _).map _
      | compact inner => exact ih _ _
      | bitSequence msb store => exact Refines.refl _

theorem shallow_stops {α : Type} (r : Decoder α) (s : Decoding α) :
    Stops .stackOverflow (shallow r) s := by
  intro input h
  obtain ⟨d, -, same⟩ := mapError_error.mp h
  cases same

theorem decode_stops (registry : PortableRegistry) {utf8 utf8' : Bytes → Bool}
    (weaker : ∀ bytes, utf8 bytes = true → utf8' bytes = true) (stack : Nat)
    (compact : Bool) (ty : TypeId) :
    Stops .stackOverflow (decode registry utf8 stack compact ty)
      (decode registry utf8' stack compact ty) := by
  induction stack generalizing compact ty with
  | zero => exact Stops.refl _ _
  | succ stack ih =>
    have reads : ∀ compact ty, Refines (decode registry utf8 stack compact ty)
        (decode registry utf8' stack compact ty) := decode_refines registry weaker stack 0
    unfold decode
    cases registry.resolve ty with
    | none => exact Stops.refl _ _
    | some def_ =>
      cases def_ with
      | composite fields =>
        exact (Stops.refl _ _).ite ((Stops.each (fun f => ih _ _) (fun f => reads _ _) _).map _
          (Refines.each (fun f => reads _ _) _))
      | tuple ids =>
        exact (Stops.refl _ _).ite ((Stops.each (fun t => ih _ _) (fun t => reads _ _) _).map _
          (Refines.each (fun t => reads _ _) _))
      | variant variants =>
        refine (Stops.refl _ _).ite ((Stops.refl _ _).andThen (Refines.refl _) fun index => ?_)
        split
        · exact Stops.refl _ _
        · exact (Stops.each (fun f => ih _ _) (fun f => reads _ _) _).map _
            (Refines.each (fun f => reads _ _) _)
      | sequence item =>
        exact (Stops.refl _ _).ite ((Stops.refl _ _).andThen (Refines.refl _) fun _ =>
          ((ih _ _).times (reads _ _) _).map _ ((reads _ _).times _))
      | array len item =>
        exact (Stops.refl _ _).ite (((ih _ _).times (reads _ _) _).map _ ((reads _ _).times _))
      | primitive p =>
        exact (shallow_stops _ _).map _ ((decodePrimitive_refines weaker _ _).mapError _)
      | compact inner => exact ih _ _
      | bitSequence msb store => exact Stops.refl _ _

theorem Decodes.weaken {registry : PortableRegistry} {utf8 utf8' : Bytes → Bool}
    (weaker : ∀ bytes, utf8 bytes = true → utf8' bytes = true) {ty : TypeId} {bytes : Bytes}
    {value : Value} (h : Decodes registry utf8 ty bytes value) :
    Decodes registry utf8' ty bytes value := by
  obtain ⟨stack, read⟩ := h
  exact ⟨stack, decode_refines registry weaker stack 0 false ty _ _ _ read⟩

theorem decode_anyBytes (registry : PortableRegistry) (utf8 : Bytes → Bool) (stack : Nat)
    (compact : Bool) (ty : TypeId) :
    Refines (decode registry utf8 stack compact ty) (decode registry anyBytes stack compact ty) :=
  decode_refines registry (fun _ _ => rfl) stack 0 compact ty

end WalletDaemon.Scale
