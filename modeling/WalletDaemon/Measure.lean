import WalletDaemon.Scale

/-! The visitor that finds where a value ends without building it.
The library calls the visitor once for each nested value. After an error it
gives up a composite, a tuple or a variant, at the start of the field that
failed. A sequence or an array goes on behind the item that failed, and skips
the items left with no bound of its own on nesting. When that skip fails too, its
error is the one reported and the input is as it was at the sequence's start. -/

namespace WalletDaemon.Measure

open Scale Reader

/-- The deepest nesting of types accepted in a fuel tank call. -/
def maxNesting : Nat := 128

inductive MeasureError
  | decode (error : DecodeError)
  | tooDeep
deriving DecidableEq, Repr

/-- What the visitor reports, and the input it leaves; nothing when the stack
overflows. -/
abbrev Measured := Option (Except MeasureError Unit × Bytes)

/-- An integer is read off the input whole or not at all. -/
def takeWhole (n : Nat) (input : Bytes) : Bytes := if n ≤ input.length then input.drop n else input

/-- What is left of the input by a compact integer that does not decode. Lengths that
are no integer's are read byte by byte. -/
def compactLeft (width : Nat) : Bytes → Bytes
  | [] => []
  | first :: rest =>
    let needed := first.toNat / 4 + 4
    match first.toNat % 4 with
    | 0 => rest
    | 1 => takeWhole 1 rest
    | 2 => if width = 1 then rest else takeWhole 3 rest
    | _ =>
      if needed > width then rest
      else if needed = 4 ∨ needed = 8 ∨ needed = 16 then takeWhole needed rest
      else rest.drop needed

/-- What is left of the input by a primitive that does not decode. A bool and a char
are read before they are looked at. -/
def primitiveLeft (compact : Bool) (p : PrimitiveType) (input : Bytes) : Bytes :=
  match p, compact with
  | .bool, false => input.drop 1
  | .char, false => takeWhole 4 input
  | .uint .w256, true => input
  | .uint width, true => compactLeft width.bytes input
  | _, _ => input

def leaf {α : Type} (r : Decoder α) (left : Bytes → Bytes) (input : Bytes) : Measured :=
  match r input with
  | .ok (_, rest) => some (.ok (), rest)
  | .error e => some (.error (.decode e), left input)

/-- The visitor's error, once the items left are skipped. -/
def skipRest {α : Type} (skip : Decoding α) (start : Bytes) (e : MeasureError) (left : Bytes) :
    Measured :=
  match skip left with
  | .ok (_, rest) => some (.error e, rest)
  | .error (.error d) => some (.error (.decode d), start)
  | .error .stackOverflow => none

/-- Visit the fields of a composite, a tuple or a variant. -/
def visitEach {α : Type} (item : α → Bytes → Measured) : List α → Bytes → Measured
  | [], input => some (.ok (), input)
  | a :: as, input =>
    match item a input with
    | some (.ok _, rest) => visitEach item as rest
    | some (.error e, _) => some (.error e, input)
    | none => none

/-- Visit the items of a sequence or an array. -/
def visitTimes (item : Bytes → Measured) (skip : Decoding Value) (start : Bytes) :
    Nat → Bytes → Measured
  | 0, input => some (.ok (), input)
  | n + 1, input =>
    match item input with
    | some (.ok _, rest) => visitTimes item skip start n rest
    | some (.error e, left) => skipRest (times skip n) start e left
    | none => none

/-- Past `maxNesting` the input is emptied, so that nothing is left to skip. -/
def measure (registry : PortableRegistry) :
    (stack depth : Nat) → (compact : Bool) → TypeId → Bytes → Measured
  | 0, _, _, _, _ => none
  | stack + 1, depth, compact, ty, input =>
    if depth > maxNesting then some (.error .tooDeep, [])
    else
      let refuse (e : DecodeError) : Measured := some (.error (.decode e), input)
      match registry.resolve ty with
      | none => refuse (.typeIdNotFound ty)
      | some (.composite fields) =>
        if compact ∧ fields.length ≠ 1 then refuse .cannotDecodeCompactIntoType
        else visitEach (fun f : Field => measure registry stack (depth + 1) compact f.ty) fields
          input
      | some (.tuple ids) =>
        if compact ∧ ids.length ≠ 1 then refuse .cannotDecodeCompactIntoType
        else visitEach (measure registry stack (depth + 1) compact) ids input
      | some (.variant variants) =>
        if compact then refuse .cannotDecodeCompactIntoType
        else match readByte input with
          | .error e => refuse e
          | .ok (index, rest) =>
            match variants.find? fun v => v.index = index with
            | none => refuse (.variantNotFound index)
            | some v =>
              visitEach (fun f : Field => measure registry stack (depth + 1) false f.ty) v.fields
                rest
      | some (.sequence item) =>
        if compact then refuse .cannotDecodeCompactIntoType
        else match compactUint 8 input with
          | .error e => refuse e
          | .ok (len, rest) =>
            visitTimes (measure registry stack (depth + 1) false item)
              (decode registry anyBytes stack false item) input len rest
      | some (.array len item) =>
        if compact then refuse .cannotDecodeCompactIntoType
        else visitTimes (measure registry stack (depth + 1) false item)
          (decode registry anyBytes stack false item) input len input
      | some (.primitive p) =>
        leaf (decodePrimitive anyBytes compact p) (primitiveLeft compact p) input
      | some (.compact inner) => measure registry stack depth true inner input
      | some (.bitSequence msb store) =>
        if compact then refuse .cannotDecodeCompactIntoType
        else leaf (decodeBits msb store) id input

section Contents

/-- A type with how it is read: as a compact one or not. -/
abbrev Item := Bool × TypeId

/-- What is found at an item: nothing nested, with what it leaves of the input if it
does not decode; the item that a compact one stands for; or items to read from an
input, what is built of their values, and whether the others are skipped when one
of them fails. -/
inductive Contents
  | leaf (result : Except DecodeError (Value × Bytes)) (left : Bytes)
  | inner (a : Item)
  | items (skips : Bool) (as : List Item) (build : List Value → Value) (rest : Bytes)

def refused (e : DecodeError) (input : Bytes) : Contents := .leaf (.error e) input

def plain (compact : Bool) (input : Bytes) (found : Contents) : Contents :=
  if compact then refused .cannotDecodeCompactIntoType input else found

def single (compact : Bool) (as : List Item) (build : List Value → Value) (input : Bytes) :
    Contents :=
  if compact ∧ as.length ≠ 1 then refused .cannotDecodeCompactIntoType input
  else .items false as build input

def contents (registry : PortableRegistry) (a : Item) (input : Bytes) : Contents :=
  match registry.resolve a.2 with
  | none => refused (.typeIdNotFound a.2) input
  | some (.composite fields) =>
    single a.1 (fields.map fun f => (a.1, f.ty)) (fun vs => .composite (.ofFields fields vs)) input
  | some (.tuple ids) =>
    single a.1 (ids.map fun ty => (a.1, ty)) (fun vs => .composite (.unnamed vs)) input
  | some (.variant variants) =>
    plain a.1 input <| match readByte input with
      | .error e => refused e input
      | .ok (index, rest) =>
        match variants.find? fun v => v.index = index with
        | none => refused (.variantNotFound index) input
        | some v => .items false (v.fields.map fun f => (false, f.ty))
            (fun vs => .variant v.name (.ofFields v.fields vs)) rest
  | some (.sequence item) =>
    plain a.1 input <| match compactUint 8 input with
      | .error e => refused e input
      | .ok (len, rest) =>
        .items true (List.replicate len (false, item)) (fun vs => .composite (.unnamed vs)) rest
  | some (.array len item) =>
    plain a.1 input <|
      .items true (List.replicate len (false, item)) (fun vs => .composite (.unnamed vs)) input
  | some (.primitive p) =>
    .leaf ((decodePrimitive anyBytes a.1 p).map .primitive input) (primitiveLeft a.1 p input)
  | some (.compact inner) => .inner (true, inner)
  | some (.bitSequence msb store) =>
    plain a.1 input (.leaf ((decodeBits msb store).map .bitSequence input) input)

/-- The library's decoder, for an item. -/
def readItem (registry : PortableRegistry) (stack : Nat) (a : Item) : Decoding Value :=
  decode registry anyBytes stack a.1 a.2

theorem shallow_map {α : Type} (r : Decoder α) (f : α → Value) (input : Bytes) :
    ((shallow r).map f) input = ((r.map f) input).mapError Stop.error := by
  simp only [shallow, Reader.map, andThen, mapError]
  cases r input <;> rfl

theorem readItem_succ (registry : PortableRegistry) (stack : Nat) (a : Item) (input : Bytes) :
    readItem registry (stack + 1) a input =
      match contents registry a input with
      | .leaf result _ => result.mapError Stop.error
      | .inner b => readItem registry stack b input
      | .items _ as build rest => (each (readItem registry stack) as).map build rest := by
  obtain ⟨compact, ty⟩ := a
  unfold readItem contents
  rw [decode]
  dsimp only
  cases registry.resolve ty with
  | none => rfl
  | some shape =>
    cases shape with
    | composite fields =>
      by_cases refused : compact = true ∧ fields.length ≠ 1
      · simp only [single, List.length_map, if_pos refused]
        rfl
      · simp only [single, List.length_map, if_neg refused, each_map]
    | tuple ids =>
      by_cases refused : compact = true ∧ ids.length ≠ 1
      · simp only [single, List.length_map, if_pos refused]
        rfl
      · simp only [single, List.length_map, if_neg refused, each_map]
    | variant variants =>
      cases compact with
      | true => rfl
      | false =>
        simp only [plain, Bool.false_eq_true, if_false, andThen, shallow, mapError]
        cases readByte input with
        | error e => rfl
        | ok read =>
          simp only [Except.mapError]
          cases found : variants.find? fun v => v.index = read.1 with
          | none => rfl
          | some v => simp only [each_map]
    | sequence item =>
      cases compact with
      | true => rfl
      | false =>
        simp only [plain, Bool.false_eq_true, if_false, andThen, shallow, mapError]
        cases compactUint 8 input with
        | error e => rfl
        | ok read => simp only [Except.mapError, each_replicate]
    | array len item =>
      cases compact with
      | true => rfl
      | false => simp only [plain, Bool.false_eq_true, if_false, each_replicate]
    | primitive p => exact shallow_map _ _ _
    | compact inner => rfl
    | bitSequence msb store =>
      cases compact with
      | true => rfl
      | false =>
        simp only [plain, Bool.false_eq_true, if_false]
        exact shallow_map _ _ _

def remaining {α : Type} (r : Decoding α) (input : Bytes) : Except Stop Bytes :=
  (r input).map Prod.snd

/-- The library's reading of an item of which it keeps nothing. -/
def skipItem (registry : PortableRegistry) (stack : Nat) (a : Item) (input : Bytes) :
    Except Stop Bytes :=
  remaining (readItem registry stack a) input

def skipAll (skip : Item → Bytes → Except Stop Bytes) : List Item → Bytes → Except Stop Bytes
  | [], input => .ok input
  | a :: as, input =>
    match skip a input with
    | .ok rest => skipAll skip as rest
    | .error e => .error e

theorem remaining_map {α β : Type} (f : α → β) (r : Decoding α) (input : Bytes) :
    remaining (r.map f) input = remaining r input := by
  unfold remaining Reader.map andThen
  cases r input <;> rfl

theorem remaining_each (registry : PortableRegistry) (stack : Nat) (as : List Item)
    (input : Bytes) :
    remaining (each (readItem registry stack) as) input =
      skipAll (skipItem registry stack) as input := by
  induction as generalizing input with
  | nil => rfl
  | cons a as ih =>
    unfold skipAll skipItem each
    unfold remaining andThen
    cases readItem registry stack a input with
    | error e => rfl
    | ok read => exact (remaining_map _ _ _).trans (ih read.2)

theorem skipItem_succ (registry : PortableRegistry) (stack : Nat) (a : Item) (input : Bytes) :
    skipItem registry (stack + 1) a input =
      match contents registry a input with
      | .leaf result _ => (result.mapError Stop.error).map Prod.snd
      | .inner b => skipItem registry stack b input
      | .items _ as _ rest => skipAll (skipItem registry stack) as rest := by
  unfold skipItem remaining
  rw [readItem_succ]
  cases contents registry a input with
  | leaf result left => rfl
  | inner b => rfl
  | items skips as build rest =>
    exact (remaining_map build _ rest).trans (remaining_each registry stack as rest)

theorem skipItem_ok {registry : PortableRegistry} {stack : Nat} {a : Item}
    {input rest : Bytes} :
    skipItem registry stack a input = .ok rest ↔
      ∃ v, readItem registry stack a input = .ok (v, rest) := by
  unfold skipItem remaining
  cases readItem registry stack a input with
  | error e => simp [Except.map]
  | ok read => simp [Except.map, Prod.ext_iff]

/-- What becomes of a container once the skip of its items is through. -/
def skippedTo (start : Bytes) (e : MeasureError) : Except Stop Bytes → Measured
  | .ok rest => some (.error e, rest)
  | .error (.error d) => some (.error (.decode d), start)
  | .error .stackOverflow => none

/-- The visitor at the items of a container that starts at `start`. -/
def visitItems (visit : Item → Bytes → Measured) (skip : Item → Bytes → Except Stop Bytes)
    (skips : Bool) (start : Bytes) : List Item → Bytes → Measured
  | [], input => some (.ok (), input)
  | a :: as, input =>
    match visit a input with
    | some (.ok _, rest) => visitItems visit skip skips start as rest
    | some (.error e, left) =>
      if skips then skippedTo start e (skipAll skip as left) else some (.error e, input)
    | none => none

def measureItem (registry : PortableRegistry) (stack depth : Nat) (a : Item) : Bytes → Measured :=
  measure registry stack depth a.1 a.2

theorem skipRest_eq (registry : PortableRegistry) (stack : Nat) (as : List Item)
    (start left : Bytes) (e : MeasureError) :
    skipRest (each (readItem registry stack) as) start e left =
      skippedTo start e (skipAll (skipItem registry stack) as left) := by
  rw [← remaining_each]
  unfold skipRest remaining
  rcases each (readItem registry stack) as left with (_ | _) | _ <;> rfl

theorem visitEach_eq {α : Type} (registry : PortableRegistry) (stack depth : Nat)
    (item : α → Item) (start : Bytes) (as : List α) (input : Bytes) :
    visitEach (fun x => measureItem registry stack depth (item x)) as input =
      visitItems (measureItem registry stack depth) (skipItem registry stack) false start
        (as.map item) input := by
  induction as generalizing input with
  | nil => rfl
  | cons x as ih =>
    simp only [visitEach, visitItems, List.map_cons]
    rcases measureItem registry stack depth (item x) input with _ | ⟨_ | _, left⟩
    · rfl
    · rfl
    · exact ih left

theorem visitTimes_eq (registry : PortableRegistry) (stack depth : Nat) (a : Item)
    (start : Bytes) (n : Nat) (input : Bytes) :
    visitTimes (measureItem registry stack depth a) (readItem registry stack a) start n input =
      visitItems (measureItem registry stack depth) (skipItem registry stack) true start
        (List.replicate n a) input := by
  induction n generalizing input with
  | zero => rfl
  | succ n ih =>
    simp only [visitTimes, visitItems, List.replicate_succ, ← each_replicate, skipRest_eq]
    rcases measureItem registry stack depth a input with _ | ⟨_ | _, left⟩
    · rfl
    · rfl
    · exact ih left

theorem measureItem_succ (registry : PortableRegistry) (stack depth : Nat) (a : Item)
    (input : Bytes) :
    measureItem registry (stack + 1) depth a input =
      if depth > maxNesting then some (.error .tooDeep, [])
      else
        match contents registry a input with
        | .leaf (.ok (_, rest)) _ => some (.ok (), rest)
        | .leaf (.error e) left => some (.error (.decode e), left)
        | .inner b => measureItem registry stack depth b input
        | .items skips as _ rest => visitItems (measureItem registry stack (depth + 1))
            (skipItem registry stack) skips input as rest := by
  obtain ⟨compact, ty⟩ := a
  unfold measureItem contents
  rw [measure]
  by_cases deep : depth > maxNesting
  · rw [if_pos deep, if_pos deep]
  rw [if_neg deep, if_neg deep]
  dsimp only
  cases registry.resolve ty with
  | none => rfl
  | some shape =>
    cases shape with
    | composite fields =>
      by_cases refused : compact = true ∧ fields.length ≠ 1
      · simp only [single, List.length_map, if_pos refused]
        rfl
      · simp only [single, List.length_map, if_neg refused]
        exact visitEach_eq registry stack (depth + 1) (fun f : Field => (compact, f.ty)) _ _ _
    | tuple ids =>
      by_cases refused : compact = true ∧ ids.length ≠ 1
      · simp only [single, List.length_map, if_pos refused]
        rfl
      · simp only [single, List.length_map, if_neg refused]
        exact visitEach_eq registry stack (depth + 1) (fun ty => (compact, ty)) _ _ _
    | variant variants =>
      cases compact with
      | true => rfl
      | false =>
        simp only [plain, Bool.false_eq_true, if_false]
        cases readByte input with
        | error e => rfl
        | ok read =>
          cases found : variants.find? fun v => v.index = read.1 with
          | none =>
            simp only [found]
            rfl
          | some v =>
            simp only [found]
            exact visitEach_eq registry stack (depth + 1) (fun f : Field => (false, f.ty)) _ _ _
    | sequence item =>
      cases compact with
      | true => rfl
      | false =>
        simp only [plain, Bool.false_eq_true, if_false]
        cases compactUint 8 input with
        | error e => rfl
        | ok read => exact visitTimes_eq registry stack (depth + 1) (false, item) _ _ _
    | array len item =>
      cases compact with
      | true => rfl
      | false =>
        simp only [plain, Bool.false_eq_true, if_false]
        exact visitTimes_eq registry stack (depth + 1) (false, item) _ _ _
    | primitive p =>
      simp only [leaf, Reader.map, andThen]
      cases decodePrimitive anyBytes compact p input <;> rfl
    | compact inner => rfl
    | bitSequence msb store =>
      cases compact with
      | true => rfl
      | false =>
        simp only [plain, leaf, Reader.map, andThen, Bool.false_eq_true, if_false]
        cases decodeBits msb store input <;> rfl

theorem skippedTo_not_ok {start rest : Bytes} {e : MeasureError} {skipped : Except Stop Bytes} :
    skippedTo start e skipped ≠ some (.ok (), rest) := by
  rcases skipped with (_ | _) | _ <;> simp [skippedTo]

theorem visitItems_ok_cons {visit : Item → Bytes → Measured}
    {skip : Item → Bytes → Except Stop Bytes} {skips : Bool} {start : Bytes} {a : Item}
    {as : List Item} {input rest : Bytes}
    (h : visitItems visit skip skips start (a :: as) input = some (.ok (), rest)) :
    ∃ middle, visit a input = some (.ok (), middle) ∧
      visitItems visit skip skips start as middle = some (.ok (), rest) := by
  unfold visitItems at h
  split at h
  · rename_i middle first
    exact ⟨middle, first, h⟩
  · split at h
    · exact absurd h skippedTo_not_ok
    · simp at h
  · cases h

theorem visitItems_ok {visit : Item → Bytes → Measured}
    {skip : Item → Bytes → Except Stop Bytes} {skips : Bool} {start : Bytes}
    (agree : ∀ a input rest, visit a input = some (.ok (), rest) → skip a input = .ok rest)
    {as : List Item} {input rest : Bytes}
    (h : visitItems visit skip skips start as input = some (.ok (), rest)) :
    skipAll skip as input = .ok rest := by
  induction as generalizing input with
  | nil =>
    simp only [visitItems, Option.some.injEq, Prod.mk.injEq, true_and] at h
    rw [h]
    rfl
  | cons a as ih =>
    obtain ⟨middle, first, others⟩ := visitItems_ok_cons h
    simp only [skipAll, agree a _ _ first]
    exact ih others

theorem measureItem_ok (registry : PortableRegistry) {stack depth : Nat} {a : Item}
    {input rest : Bytes} (h : measureItem registry stack depth a input = some (.ok (), rest)) :
    skipItem registry stack a input = .ok rest := by
  induction stack generalizing depth a input rest with
  | zero => simp [measureItem, measure] at h
  | succ stack ih =>
    rw [measureItem_succ] at h
    rw [skipItem_succ]
    split at h
    · simp at h
    cases found : contents registry a input with
    | leaf result left =>
      rw [found] at h
      cases result with
      | error e => simp at h
      | ok read =>
        simp only [Option.some.injEq, Prod.mk.injEq, true_and] at h
        rw [← h]
        rfl
    | inner b =>
      rw [found] at h
      exact ih h
    | items skips as build left =>
      rw [found] at h
      exact visitItems_ok (fun _ _ _ one => ih one) h

/-- Where the visitor succeeds, the plain decoder ends at the same place. -/
theorem measure_ok (registry : PortableRegistry) {stack depth : Nat} {compact : Bool}
    {ty : TypeId} {input rest : Bytes}
    (h : measure registry stack depth compact ty input = some (.ok (), rest)) :
    ∃ v, decode registry anyBytes stack compact ty input = .ok (v, rest) :=
  skipItem_ok.mp (measureItem_ok registry (a := (compact, ty)) h)

end Contents

end WalletDaemon.Measure
