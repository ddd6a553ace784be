import WalletDaemon.Measure

/-! How deeply the visitor and the library's skipping nest, and where the visitor
ends. Containers of every kind are read as a list of items. -/

namespace WalletDaemon.Scale

mutual

/-- How deeply a value nests others. -/
def Value.depth : Value → Nat
  | .primitive _ => 0
  | .composite values => values.depth
  | .variant _ values => values.depth
  | .bitSequence _ => 0

def Composite.depth : Composite → Nat
  | .named fields => namedDepth fields
  | .unnamed values => unnamedDepth values

def namedDepth : List (String × Value) → Nat
  | [] => 0
  | (_, value) :: rest => max (value.depth + 1) (namedDepth rest)

def unnamedDepth : List Value → Nat
  | [] => 0
  | value :: rest => max (value.depth + 1) (unnamedDepth rest)

end

theorem namedDepth_zip {names : List String} {values : List Value}
    (h : values.length = names.length) : namedDepth (names.zip values) = unnamedDepth values := by
  induction names generalizing values with
  | nil =>
    obtain rfl := List.length_eq_zero_iff.mp h
    rfl
  | cons name names ih =>
    cases values with
    | nil => simp at h
    | cons value values =>
      have shorter : values.length = names.length := by simpa using h
      simp only [List.zip_cons_cons, namedDepth, unnamedDepth, ih shorter]

theorem Composite.ofFields_depth {fields : List Field} {values : List Value}
    (h : values.length = fields.length) :
    (Composite.ofFields fields values).depth = unnamedDepth values := by
  unfold Composite.ofFields
  split
  · rfl
  · exact namedDepth_zip (by simpa using h)

end WalletDaemon.Scale

namespace WalletDaemon.Measure

open Scale Reader

section Values

theorem contents_depth (registry : PortableRegistry) (a : Item) (input : Bytes) :
    match contents registry a input with
    | .leaf (.ok (v, _)) _ => v.depth = 0
    | .items _ as build _ => ∀ vs, vs.length = as.length → (build vs).depth = unnamedDepth vs
    | _ => True := by
  obtain ⟨compact, ty⟩ := a
  unfold contents
  dsimp only
  cases registry.resolve ty with
  | none => trivial
  | some shape =>
    cases shape with
    | composite fields =>
      by_cases refused : compact = true ∧ fields.length ≠ 1
      · simp only [single, List.length_map, if_pos refused]
        trivial
      · simp only [single, List.length_map, if_neg refused]
        exact fun vs => Composite.ofFields_depth
    | tuple ids =>
      by_cases refused : compact = true ∧ ids.length ≠ 1
      · simp only [single, List.length_map, if_pos refused]
        trivial
      · simp only [single, List.length_map, if_neg refused]
        exact fun vs _ => rfl
    | variant variants =>
      cases compact with
      | true => trivial
      | false =>
        simp only [plain, Bool.false_eq_true, if_false]
        cases readByte input with
        | error e => trivial
        | ok read =>
          cases found : variants.find? fun v => v.index = read.1 with
          | none =>
            simp only [found]
            trivial
          | some v =>
            simp only [found, List.length_map]
            exact fun vs => Composite.ofFields_depth
    | sequence item =>
      cases compact with
      | true => trivial
      | false =>
        simp only [plain, Bool.false_eq_true, if_false]
        cases compactUint 8 input with
        | error e => trivial
        | ok read => exact fun vs _ => rfl
    | array len item =>
      cases compact with
      | true => trivial
      | false => exact fun vs _ => rfl
    | primitive p =>
      simp only [Reader.map, andThen]
      cases decodePrimitive anyBytes compact p input with
      | error e => trivial
      | ok read => rfl
    | compact inner => trivial
    | bitSequence msb store =>
      cases compact with
      | true => trivial
      | false =>
        simp only [plain, Bool.false_eq_true, if_false, Reader.map, andThen]
        cases decodeBits msb store input with
        | error e => trivial
        | ok read => rfl

theorem readItem_ok {registry : PortableRegistry} {stack : Nat} {a : Item}
    {input rest : Bytes} {v : Value} (h : readItem registry (stack + 1) a input = .ok (v, rest)) :
    match contents registry a input with
    | .leaf result _ => result.map Prod.snd = .ok rest ∧ v.depth = 0
    | .inner b => readItem registry stack b input = .ok (v, rest)
    | .items _ as _ left => ∃ vs, each (readItem registry stack) as left = .ok (vs, rest) ∧
        v.depth = unnamedDepth vs := by
  have deep := contents_depth registry a input
  rw [readItem_succ] at h
  cases found : contents registry a input with
  | leaf result left =>
    rw [found] at h deep
    cases result with
    | error e => cases h
    | ok read =>
      obtain rfl : read = (v, rest) := Except.ok.inj h
      exact ⟨rfl, deep⟩
  | inner b =>
    rw [found] at h
    exact h
  | items skips as build left =>
    rw [found] at h deep
    obtain ⟨vs, values, rfl⟩ := map_ok.mp h
    exact ⟨vs, values, deep vs (each_length values)⟩

end Values

section Levels

def fitsAll (fit : Item → Bytes → Bool) (skip : Item → Bytes → Except Stop Bytes) :
    List Item → Bytes → Bool
  | [], _ => true
  | a :: as, input =>
    fit a input &&
      match skip a input with
      | .ok rest => fitsAll fit skip as rest
      | .error _ => true

/-- The library's reading ends, and calls itself at most `levels` deep. -/
def fits (registry : PortableRegistry) : (stack levels : Nat) → Item → Bytes → Bool
  | 0, _, _, _ => false
  | _, 0, _, _ => false
  | stack + 1, levels + 1, a, input =>
    match contents registry a input with
    | .leaf _ _ => true
    | .inner b => fits registry stack (levels + 1) b input
    | .items _ as _ rest => fitsAll (fits registry stack levels) (skipItem registry stack) as rest

def visitFits (fit visitFit : Item → Bytes → Bool) (visit : Item → Bytes → Measured)
    (skip : Item → Bytes → Except Stop Bytes) (skips : Bool) : List Item → Bytes → Bool
  | [], _ => true
  | a :: as, input =>
    visitFit a input &&
      match visit a input with
      | some (.ok _, rest) => visitFits fit visitFit visit skip skips as rest
      | some (.error _, left) => !skips || fitsAll fit skip as left
      | none => false

/-- The visitor ends, and its calls and those of the library's skipping nest at
most `levels` deep. -/
def measureFits (registry : PortableRegistry) :
    (stack levels depth : Nat) → Item → Bytes → Bool
  | 0, _, _, _, _ => false
  | _, 0, _, _, _ => false
  | stack + 1, levels + 1, depth, a, input =>
    if depth > maxNesting then true
    else
      match contents registry a input with
      | .leaf _ _ => true
      | .inner b => measureFits registry stack (levels + 1) depth b input
      | .items skips as _ rest =>
        visitFits (fits registry stack levels) (measureFits registry stack levels (depth + 1))
          (measureItem registry stack (depth + 1)) (skipItem registry stack) skips as rest

theorem skipAll_stable {fit : Item → Bytes → Bool}
    {skip skip' : Item → Bytes → Except Stop Bytes}
    (one : ∀ a input, fit a input = true → skip' a input = skip a input) {as : List Item}
    {input : Bytes} (h : fitsAll fit skip as input = true) :
    skipAll skip' as input = skipAll skip as input := by
  induction as generalizing input with
  | nil => rfl
  | cons a as ih =>
    unfold fitsAll at h
    obtain ⟨fit, others⟩ := Bool.and_eq_true_iff.mp h
    simp only [skipAll, one a input fit]
    cases read : skip a input with
    | error e => rfl
    | ok rest =>
      rw [read] at others
      exact ih others

theorem skipItem_stable {registry : PortableRegistry} {stack stack' levels : Nat} {a : Item}
    {input : Bytes} (more : stack ≤ stack') (h : fits registry stack levels a input = true) :
    skipItem registry stack' a input = skipItem registry stack a input := by
  induction stack generalizing stack' levels a input with
  | zero => simp [fits] at h
  | succ stack ih =>
    obtain ⟨stack', rfl⟩ := Nat.exists_eq_succ_of_ne_zero (show stack' ≠ 0 by omega)
    cases levels with
    | zero => simp [fits] at h
    | succ levels =>
      have more' : stack ≤ stack' := by omega
      unfold fits at h
      rw [skipItem_succ, skipItem_succ]
      cases found : contents registry a input with
      | leaf result left => rfl
      | inner b =>
        rw [found] at h
        exact ih more' h
      | items skips as build rest =>
        rw [found] at h
        exact skipAll_stable (fun b input fit => ih more' fit) h

theorem visitItems_stable {fit visitFit : Item → Bytes → Bool}
    {visit visit' : Item → Bytes → Measured}
    {skip skip' : Item → Bytes → Except Stop Bytes}
    (one : ∀ a input, visitFit a input = true → visit' a input = visit a input)
    (others : ∀ a input, fit a input = true → skip' a input = skip a input)
    {skips : Bool} {start : Bytes} {as : List Item} {input : Bytes}
    (h : visitFits fit visitFit visit skip skips as input = true) :
    visitItems visit' skip' skips start as input = visitItems visit skip skips start as input := by
  induction as generalizing input with
  | nil => rfl
  | cons a as ih =>
    unfold visitFits at h
    obtain ⟨fit, later⟩ := Bool.and_eq_true_iff.mp h
    simp only [visitItems, one a input fit]
    rcases found : visit a input with _ | ⟨_ | _, left⟩
    · rfl
    · rw [found] at later
      cases skips with
      | false => rfl
      | true => simp only [skipAll_stable others later]
    · rw [found] at later
      exact ih later

theorem measureItem_stable {registry : PortableRegistry} {stack stack' levels depth : Nat}
    {a : Item} {input : Bytes} (more : stack ≤ stack')
    (h : measureFits registry stack levels depth a input = true) :
    measureItem registry stack' depth a input = measureItem registry stack depth a input := by
  induction stack generalizing stack' levels depth a input with
  | zero => simp [measureFits] at h
  | succ stack ih =>
    obtain ⟨stack', rfl⟩ := Nat.exists_eq_succ_of_ne_zero (show stack' ≠ 0 by omega)
    cases levels with
    | zero => simp [measureFits] at h
    | succ levels =>
      have more' : stack ≤ stack' := by omega
      unfold measureFits at h
      rw [measureItem_succ, measureItem_succ]
      split
      · rfl
      rename_i allowed
      rw [if_neg allowed] at h
      cases found : contents registry a input with
      | leaf result left => cases result <;> rfl
      | inner b =>
        rw [found] at h
        exact ih more' h
      | items skips as build rest =>
        rw [found] at h
        exact visitItems_stable (fun b input fit => ih more' fit)
          (fun b input fit => skipItem_stable more' fit) h

theorem skipAll_fits {fit : Item → Bytes → Bool} {skip : Item → Bytes → Except Stop Bytes}
    (one : ∀ a input, fit a input = true → skip a input ≠ .error .stackOverflow)
    {as : List Item} {input : Bytes} (h : fitsAll fit skip as input = true) :
    skipAll skip as input ≠ .error .stackOverflow := by
  induction as generalizing input with
  | nil => simp [skipAll]
  | cons a as ih =>
    unfold fitsAll at h
    obtain ⟨fit, others⟩ := Bool.and_eq_true_iff.mp h
    unfold skipAll
    have first := one a input fit
    cases read : skip a input with
    | error e =>
      rw [read] at first
      exact first
    | ok rest =>
      rw [read] at others
      exact ih others

theorem skipItem_fits {registry : PortableRegistry} {stack levels : Nat} {a : Item}
    {input : Bytes} (h : fits registry stack levels a input = true) :
    skipItem registry stack a input ≠ .error .stackOverflow := by
  induction stack generalizing levels a input with
  | zero => simp [fits] at h
  | succ stack ih =>
    cases levels with
    | zero => simp [fits] at h
    | succ levels =>
      unfold fits at h
      rw [skipItem_succ]
      cases found : contents registry a input with
      | leaf result left => cases result <;> simp [Except.mapError, Except.map]
      | inner b =>
        rw [found] at h
        exact ih h
      | items skips as build rest =>
        rw [found] at h
        exact skipAll_fits (fun _ _ => ih) h

end Levels

section Overflow

theorem fitsAll_of_skipAll {fit : Item → Bytes → Bool} {skip : Item → Bytes → Except Stop Bytes}
    (one : ∀ a input, skip a input ≠ .error .stackOverflow → fit a input = true)
    {as : List Item} {input : Bytes} (h : skipAll skip as input ≠ .error .stackOverflow) :
    fitsAll fit skip as input = true := by
  induction as generalizing input with
  | nil => rfl
  | cons a as ih =>
    unfold skipAll at h
    unfold fitsAll
    cases read : skip a input with
    | error e =>
      rw [read] at h
      have fit : fit a input = true := one a input (by rwa [read])
      simp only [fit, Bool.true_and]
    | ok rest =>
      rw [read] at h
      have fit : fit a input = true := one a input (by simp [read])
      simp only [fit, Bool.true_and]
      exact ih h

theorem fits_of_skipItem {registry : PortableRegistry} {stack levels : Nat} {a : Item}
    {input : Bytes} (more : stack ≤ levels)
    (h : skipItem registry stack a input ≠ .error .stackOverflow) :
    fits registry stack levels a input = true := by
  induction stack generalizing levels a input with
  | zero => exact absurd rfl h
  | succ stack ih =>
    obtain ⟨levels, rfl⟩ := Nat.exists_eq_succ_of_ne_zero (show levels ≠ 0 by omega)
    rw [skipItem_succ] at h
    unfold fits
    cases found : contents registry a input with
    | leaf result left => rfl
    | inner b =>
      rw [found] at h
      exact ih (by omega) h
    | items skips as build rest =>
      rw [found] at h
      exact fitsAll_of_skipAll (fun _ _ => ih (by omega)) h

theorem skippedTo_isSome {start : Bytes} {e : MeasureError} {skipped : Except Stop Bytes} :
    (skippedTo start e skipped).isSome = true ↔ skipped ≠ .error .stackOverflow := by
  rcases skipped with (_ | _) | _ <;> simp [skippedTo]

theorem visitItems_isSome {fit visitFit : Item → Bytes → Bool} {visit : Item → Bytes → Measured}
    {skip : Item → Bytes → Except Stop Bytes}
    (one : ∀ a input, (visit a input).isSome = visitFit a input)
    (skipping : ∀ as input, fitsAll fit skip as input = true ↔
      skipAll skip as input ≠ .error .stackOverflow)
    (skips : Bool) (start : Bytes) (as : List Item) (input : Bytes) :
    (visitItems visit skip skips start as input).isSome =
      visitFits fit visitFit visit skip skips as input := by
  induction as generalizing input with
  | nil => rfl
  | cons a as ih =>
    unfold visitItems visitFits
    rw [← one a input]
    rcases visit a input with _ | ⟨_ | _, left⟩
    · rfl
    · cases skips with
      | false => rfl
      | true =>
        rw [Bool.eq_iff_iff]
        exact skippedTo_isSome.trans (by simpa using (skipping as left).symm)
    · exact ih left

theorem measureItem_isSome (registry : PortableRegistry) {stack levels depth : Nat}
    (more : stack ≤ levels) (a : Item) (input : Bytes) :
    (measureItem registry stack depth a input).isSome =
      measureFits registry stack levels depth a input := by
  induction stack generalizing levels depth a input with
  | zero => rfl
  | succ stack ih =>
    obtain ⟨levels, rfl⟩ := Nat.exists_eq_succ_of_ne_zero (show levels ≠ 0 by omega)
    rw [measureItem_succ]
    unfold measureFits
    by_cases deep : depth > maxNesting
    · simp only [if_pos deep, Option.isSome_some]
    simp only [if_neg deep]
    cases contents registry a input with
    | leaf result left => cases result <;> rfl
    | inner b => exact ih (by omega) b input
    | items skips as build rest =>
      refine visitItems_isSome (fun b input => ih (by omega) b input) (fun as input => ⟨?_, ?_⟩)
        skips _ as rest
      · exact skipAll_fits fun _ _ => skipItem_fits
      · exact fitsAll_of_skipAll fun _ _ => fits_of_skipItem (by omega)

end Overflow

section Walks

/-- A container with an item that could not be read: fields, given up at the one that
failed, or the items of a sequence or an array, with where that starts, those left
behind the one that failed, and what the library has left to skip them with. -/
inductive Pending
  | fields (failed : Bytes)
  | items (start : Bytes) (others : List Item) (stack levels : Nat)

/-- How a reading in order goes: to the end, up to a first item that does not
decode or lies too deep, with what is left of the input there and the containers
around it innermost first, or on without end. -/
inductive Walk
  | ended (rest : Bytes)
  | stopped (left : Bytes) (around : List Pending)
  | lost

def walkItems (step : Item → Bytes → Walk) (skips : Bool) (start : Bytes) (stack levels : Nat) :
    List Item → Bytes → Walk
  | [], input => .ended input
  | a :: as, input =>
    match step a input with
    | .ended rest => walkItems step skips start stack levels as rest
    | .stopped left around =>
      .stopped left (around ++ [if skips then .items start as stack levels else .fields input])
    | .lost => .lost

/-- Nothing is left of the input at an item that lies too deep. -/
def walk (registry : PortableRegistry) : (stack depth : Nat) → Item → Bytes → Walk
  | 0, _, _, _ => .lost
  | stack + 1, depth, a, input =>
    if depth > maxNesting then .stopped [] []
    else
      match contents registry a input with
      | .leaf (.ok (_, rest)) _ => .ended rest
      | .leaf (.error _) left => .stopped left []
      | .inner b => walk registry stack depth b input
      | .items skips as _ rest =>
        walkItems (walk registry stack (depth + 1)) skips input stack (maxNesting + 1 - depth) as
          rest

def Pending.skipped (registry : PortableRegistry) (left : Bytes) : Pending → Bytes
  | .fields failed => failed
  | .items start others stack _ =>
    match skipAll (skipItem registry stack) others left with
    | .ok rest => rest
    | .error _ => start

/-- Its items left nest no deeper than allowed, read from where the one inside it ended. -/
def Pending.fits (registry : PortableRegistry) (left : Bytes) : Pending → Bool
  | .fields _ => true
  | .items _ others stack levels =>
    fitsAll (Measure.fits registry stack levels) (skipItem registry stack) others left

def unwinds (registry : PortableRegistry) : List Pending → Bytes → Bool
  | [], _ => true
  | p :: around, left => p.fits registry left && unwinds registry around (p.skipped registry left)

def Walk.fits (registry : PortableRegistry) : Walk → Bool
  | .ended _ => true
  | .stopped left around => unwinds registry around left
  | .lost => false

theorem unwinds_append (registry : PortableRegistry) (around : List Pending) (p : Pending)
    (left : Bytes) :
    unwinds registry (around ++ [p]) left =
      (unwinds registry around left &&
        p.fits registry (around.foldl (Pending.skipped registry) left)) := by
  induction around generalizing left with
  | nil => simp [unwinds]
  | cons q around ih => simp only [List.cons_append, unwinds, ih, List.foldl_cons, Bool.and_assoc]

/-- What the walk says about the visitor. -/
def Agrees (registry : PortableRegistry) (fit : Bool) (found : Measured) : Walk → Prop
  | .ended rest => fit = true ∧ found = some (.ok (), rest)
  | .stopped left around => fit = unwinds registry around left ∧
      (fit = true → ∃ e, found = some (.error e, around.foldl (Pending.skipped registry) left))
  | .lost => fit = false

theorem Agrees.fit_eq {registry : PortableRegistry} {fit : Bool} {found : Measured} {w : Walk}
    (h : Agrees registry fit found w) : fit = w.fits registry := by
  cases w with
  | ended rest => exact h.1
  | stopped left around => exact h.1
  | lost => exact h

theorem Agrees.returns {registry : PortableRegistry} {fit : Bool} {found : Measured} {w : Walk}
    (h : Agrees registry fit found w) (enough : fit = true) : ∃ outcome, found = some outcome := by
  cases w with
  | ended rest => exact ⟨_, h.2⟩
  | stopped left around =>
    obtain ⟨e, report⟩ := h.2 enough
    exact ⟨_, report⟩
  | lost =>
    have unfit : fit = false := h
    rw [unfit] at enough
    cases enough

theorem skippedTo_error {registry : PortableRegistry} {stack levels : Nat} {as : List Item}
    {start left : Bytes} (e : MeasureError)
    (enough : fitsAll (fits registry stack levels) (skipItem registry stack) as left = true) :
    ∃ d, skippedTo start e (skipAll (skipItem registry stack) as left) =
      some (.error d, (Pending.items start as stack levels).skipped registry left) := by
  have runs : skipAll (skipItem registry stack) as left ≠ .error .stackOverflow :=
    skipAll_fits (fun _ _ => skipItem_fits) enough
  simp only [Pending.skipped]
  rcases found : skipAll (skipItem registry stack) as left with (d | _) | rest
  · exact ⟨.decode d, rfl⟩
  · exact absurd found runs
  · exact ⟨e, rfl⟩

/-- An item that could not be read ends its container's reading. -/
theorem visitItems_agrees {registry : PortableRegistry} {visitFit : Item → Bytes → Bool}
    {visit : Item → Bytes → Measured} {step : Item → Bytes → Walk} {stack levels : Nat}
    (one : ∀ a input, Agrees registry (visitFit a input) (visit a input) (step a input))
    (skips : Bool) (start : Bytes) (as : List Item) (input : Bytes) :
    Agrees registry
      (visitFits (fits registry stack levels) visitFit visit (skipItem registry stack) skips as
        input)
      (visitItems visit (skipItem registry stack) skips start as input)
      (walkItems step skips start stack levels as input) := by
  induction as generalizing input with
  | nil => exact ⟨rfl, rfl⟩
  | cons a as ih =>
    have first := one a input
    unfold visitFits visitItems walkItems
    cases stepped : step a input with
    | ended rest =>
      rw [stepped] at first
      obtain ⟨fit, found⟩ := first
      simp only [fit, found, Bool.true_and]
      exact ih rest
    | stopped left around =>
      rw [stepped] at first
      obtain ⟨fit, report⟩ := first
      simp only [Agrees, unwinds_append, List.foldl_append, ← fit]
      cases enough : visitFit a input with
      | false => simp
      | true =>
        obtain ⟨e, found⟩ := report enough
        rw [found]
        cases skips with
        | false => exact ⟨rfl, fun _ => ⟨e, rfl⟩⟩
        | true =>
          simp only [Bool.true_and, Bool.not_true, Bool.false_or, if_true]
          exact ⟨rfl, skippedTo_error e⟩
    | lost =>
      rw [stepped] at first
      simp only [show visitFit a input = false from first, Bool.false_and]
      rfl

/-- The visitor goes as the walk does, and nests no deeper than its unwinding. -/
theorem measureItem_agrees (registry : PortableRegistry) {stack depth : Nat}
    (h : depth ≤ maxNesting + 1) (a : Item) (input : Bytes) :
    Agrees registry (measureFits registry stack (maxNesting + 2 - depth) depth a input)
      (measureItem registry stack depth a input) (walk registry stack depth a input) := by
  induction stack generalizing depth a input with
  | zero => rfl
  | succ stack ih =>
    obtain ⟨levels, left⟩ : ∃ levels, maxNesting + 2 - depth = levels + 1 :=
      ⟨maxNesting + 1 - depth, by omega⟩
    rw [measureItem_succ, left]
    unfold measureFits walk
    by_cases deep : depth > maxNesting
    · simp only [if_pos deep]
      exact ⟨rfl, fun _ => ⟨.tooDeep, rfl⟩⟩
    simp only [if_neg deep]
    cases contents registry a input with
    | leaf result left =>
      cases result with
      | error e => exact ⟨rfl, fun _ => ⟨.decode e, rfl⟩⟩
      | ok rest => exact ⟨rfl, rfl⟩
    | inner b =>
      rw [← left]
      exact ih h b input
    | items skips as build rest =>
      have below : maxNesting + 2 - (depth + 1) = levels := by omega
      have here : maxNesting + 1 - depth = levels := by omega
      simp only [here]
      refine visitItems_agrees (fun b input => ?_) skips input as rest
      rw [← below]
      exact ih (by omega) b input

end Walks

section Ends

theorem unnamedDepth_le {visit : Item → Bytes → Measured} {read : Item → Decoding Value}
    {skip : Item → Bytes → Except Stop Bytes} {skips : Bool} {start : Bytes} {n : Nat}
    (one : ∀ a input rest rest' v, visit a input = some (.ok (), rest) →
      read a input = .ok (v, rest') → rest' = rest ∧ v.depth + 1 ≤ n)
    {as : List Item} {input rest rest' : Bytes} {vs : List Value}
    (h : visitItems visit skip skips start as input = some (.ok (), rest))
    (values : each read as input = .ok (vs, rest')) : unnamedDepth vs ≤ n := by
  induction as generalizing input vs with
  | nil =>
    simp only [each, done, Except.ok.injEq, Prod.mk.injEq] at values
    simp [← values.1, unnamedDepth]
  | cons a as ih =>
    obtain ⟨middle, first, others⟩ := visitItems_ok_cons h
    obtain ⟨v, middle', vs', head, tail, rfl⟩ := each_cons_ok.mp values
    obtain ⟨rfl, shallow⟩ := one a input middle middle' v first head
    exact Nat.max_le.mpr ⟨shallow, ih others tail⟩

theorem depth_le (registry : PortableRegistry) {stack depth : Nat} {a : Item}
    {input rest rest' : Bytes} {v : Value}
    (h : measureItem registry stack depth a input = some (.ok (), rest))
    (value : readItem registry stack a input = .ok (v, rest')) :
    depth + v.depth ≤ maxNesting := by
  induction stack generalizing depth a input rest rest' v with
  | zero => simp [readItem, decode, fail] at value
  | succ stack ih =>
    have nested := readItem_ok value
    rw [measureItem_succ] at h
    split at h
    · simp at h
    rename_i allowed
    split at h
    · rename_i left at_ found
      rw [found] at nested
      have flat : v.depth = 0 := nested.2
      omega
    · simp at h
    · rename_i b found
      rw [found] at nested
      exact ih h nested
    · rename_i skips as build left found
      rw [found] at nested
      obtain ⟨vs, values, depthEq⟩ := nested
      have below : unnamedDepth vs ≤ maxNesting - depth := by
        refine unnamedDepth_le (fun b input rest rest' w first head => ?_) h values
        obtain ⟨w', same⟩ := measure_ok registry first
        have ends : (w, rest') = (w', rest) := Except.ok.inj (head.symm.trans same)
        have bound := ih first head
        exact ⟨(Prod.mk.inj ends).2, by omega⟩
      omega

theorem visitItems_of_each {fit visitFit : Item → Bytes → Bool} {visit : Item → Bytes → Measured}
    {read : Item → Decoding Value} {skip : Item → Bytes → Except Stop Bytes} {skips : Bool}
    {start : Bytes} {n : Nat}
    (one : ∀ a input rest v, visitFit a input = true → read a input = .ok (v, rest) →
      v.depth + 1 ≤ n → visit a input = some (.ok (), rest))
    {as : List Item} {input rest : Bytes} {vs : List Value}
    (enough : visitFits fit visitFit visit skip skips as input = true)
    (values : each read as input = .ok (vs, rest)) (shallow : unnamedDepth vs ≤ n) :
    visitItems visit skip skips start as input = some (.ok (), rest) := by
  induction as generalizing input vs with
  | nil =>
    simp only [each, done, Except.ok.injEq, Prod.mk.injEq] at values
    rw [← values.2]
    rfl
  | cons a as ih =>
    obtain ⟨v, middle, vs', head, tail, rfl⟩ := each_cons_ok.mp values
    obtain ⟨here, later⟩ := Nat.max_le.mp shallow
    unfold visitFits at enough
    obtain ⟨fit, others⟩ := Bool.and_eq_true_iff.mp enough
    have first := one a input middle v fit head here
    rw [first] at others
    unfold visitItems
    rw [first]
    exact ih others tail later

theorem measureItem_of_readItem (registry : PortableRegistry)
    {stack stack' levels depth : Nat} {a : Item} {input rest : Bytes} {v : Value}
    (enough : measureFits registry stack levels depth a input = true)
    (value : readItem registry stack' a input = .ok (v, rest))
    (shallow : depth + v.depth ≤ maxNesting) :
    measureItem registry stack depth a input = some (.ok (), rest) := by
  induction stack generalizing stack' levels depth a input rest v with
  | zero => simp [measureFits] at enough
  | succ stack ih =>
    cases stack' with
    | zero => simp [readItem, decode, fail] at value
    | succ stack' =>
      cases levels with
      | zero => simp [measureFits] at enough
      | succ levels =>
        have nested := readItem_ok value
        have allowed : ¬ depth > maxNesting := by omega
        unfold measureFits at enough
        rw [measureItem_succ]
        rw [if_neg allowed] at enough ⊢
        cases found : contents registry a input with
        | leaf result left =>
          rw [found] at nested
          cases result with
          | error e => simp [Except.map] at nested
          | ok read =>
            obtain rfl : read.2 = rest := Except.ok.inj nested.1
            rfl
        | inner b =>
          rw [found] at nested enough
          exact ih enough nested shallow
        | items skips as build left =>
          rw [found] at nested enough
          obtain ⟨vs, values, depthEq⟩ := nested
          exact visitItems_of_each (n := maxNesting - depth)
            (fun b input rest w fit head below => ih fit head (by omega)) enough values (by omega)

/-- The visitor ends, nesting no deeper than `maxNesting + 1`, and what it reports
no longer depends on the stack; it succeeds just where the plain decoder reads a
value that nests no deeper than `maxNesting`, and at the same end. -/
structure FindsEnd (registry : PortableRegistry) (ty : TypeId) (input : Bytes) : Prop where
  bounded : ∃ stack, measureFits registry stack (maxNesting + 2) 0 (false, ty) input = true
  settled : ∀ stack, measureFits registry stack (maxNesting + 2) 0 (false, ty) input = true →
    ∃ outcome, ∀ stack', stack ≤ stack' →
      measure registry stack' 0 false ty input = some outcome
  exact : ∀ stack, measureFits registry stack (maxNesting + 2) 0 (false, ty) input = true →
    ∀ rest, measure registry stack 0 false ty input = some (.ok (), rest) ↔
      ∃ v, (∃ stack', decode registry anyBytes stack' false ty input = .ok (v, rest)) ∧
        v.depth ≤ maxNesting

/-- The right end is found just when what the library skips behind the first item
that cannot be read is itself shallow enough. -/
theorem findsEnd_iff (registry : PortableRegistry) (ty : TypeId) (input : Bytes) :
    FindsEnd registry ty input ↔
      ∃ stack, (walk registry stack 0 (false, ty) input).fits registry = true := by
  have agrees (stack : Nat) : Agrees registry
      (measureFits registry stack (maxNesting + 2) 0 (false, ty) input)
      (measure registry stack 0 false ty input) (walk registry stack 0 (false, ty) input) :=
    measureItem_agrees registry (Nat.zero_le _) (false, ty) input
  have fit (stack : Nat) : measureFits registry stack (maxNesting + 2) 0 (false, ty) input =
      (walk registry stack 0 (false, ty) input).fits registry := (agrees stack).fit_eq
  constructor
  · rintro ⟨⟨stack, enough⟩, -, -⟩
    exact ⟨stack, (fit stack).symm.trans enough⟩
  · rintro ⟨stack, shallow⟩
    refine ⟨⟨stack, (fit stack).trans shallow⟩, fun stack enough => ?_,
      fun stack enough rest => ⟨fun h => ?_, ?_⟩⟩
    · obtain ⟨outcome, found⟩ := (agrees stack).returns enough
      exact ⟨outcome, fun stack' more => (measureItem_stable more enough).trans found⟩
    · obtain ⟨v, value⟩ := measure_ok registry h
      have bound := depth_le registry (a := (false, ty)) h value
      exact ⟨v, ⟨stack, value⟩, by omega⟩
    · rintro ⟨v, ⟨stack', value⟩, bound⟩
      exact measureItem_of_readItem registry (a := (false, ty)) enough value (by omega)

/-- A list of trees: a leaf with a flag, a branch to one tree, and an empty one. -/
def trees : PortableRegistry :=
  ⟨[.sequence 1, .variant [⟨"Flag", 0, [⟨none, 2⟩]⟩, ⟨"Branch", 5, [⟨none, 1⟩]⟩, ⟨"End", 6, []⟩],
    .primitive .bool]⟩

theorem contents_branch (rest : Bytes) : contents trees (false, 1) (5 :: rest) =
    .items false [(false, 1)] (fun vs => .variant "Branch" (.ofFields [⟨none, 1⟩] vs)) rest := by
  simp [contents, trees, PortableRegistry.resolve, plain, readByte, takeBytes, take, andThen,
    Reader.map, done]

theorem branches_deep (stack levels : Nat) (tail : Bytes) :
    fits trees stack levels (false, 1) (List.replicate levels 5 ++ tail) = false := by
  induction levels generalizing stack with
  | zero => cases stack <;> rfl
  | succ levels ih =>
    cases stack with
    | zero => rfl
    | succ stack =>
      simp only [List.replicate_succ, List.cons_append, fits, contents_branch, fitsAll, ih,
        Bool.false_and]

theorem compactUint_two (rest : Bytes) : compactUint 8 (8 :: rest) = .ok (2, rest) := by
  simp [compactUint, readByte, takeBytes, take, andThen, Reader.map, done]

/-- `5` is no flag, and the list is left with one more tree to skip. -/
theorem walk_flag (stack : Nat) (rest : Bytes) :
    walk trees (stack + 3) 0 (false, 0) (8 :: 0 :: 5 :: rest) =
      .stopped rest [.fields (5 :: rest),
        .items (8 :: 0 :: 5 :: rest) [(false, 1)] (stack + 2) (maxNesting + 1)] := by
  simp [walk, walkItems, contents, trees, PortableRegistry.resolve, plain, compactUint_two,
    decodePrimitive, primitiveLeft, readByte, takeBytes, take, andThen, Reader.map, done, fail,
    maxNesting, List.replicate_succ]

theorem walk_lost {stack : Nat} (h : stack < 3) (rest : Bytes) :
    walk trees stack 0 (false, 0) (8 :: 0 :: 5 :: rest) = .lost := by
  rcases stack with _ | _ | _ | stack
  · rfl
  · simp [walk, walkItems, contents, trees, PortableRegistry.resolve, plain, compactUint_two,
      maxNesting, List.replicate_succ]
  · simp [walk, walkItems, contents, trees, PortableRegistry.resolve, plain, compactUint_two,
      readByte, takeBytes, take, andThen, Reader.map, done, maxNesting, List.replicate_succ]
  · omega

/-- The second tree is skipped past the bound. -/
theorem branches_skipped : ¬ FindsEnd trees 0 (8 :: 0 :: (List.replicate 300 5 ++ [6])) := by
  rw [findsEnd_iff, List.replicate_succ, List.cons_append]
  rintro ⟨stack, shallow⟩
  rcases Nat.lt_or_ge stack 3 with short | enough
  · rw [walk_lost short] at shallow
    cases shallow
  · obtain ⟨stack, rfl⟩ := Nat.exists_eq_add_of_le' enough
    have deep := branches_deep (stack + 2) (maxNesting + 1) (List.replicate 171 5 ++ [6])
    rw [← List.append_assoc, List.replicate_append_replicate] at deep
    rw [walk_flag] at shallow
    simp only [Walk.fits, unwinds, Pending.fits, Pending.skipped, fitsAll, ← List.cons_append,
      ← List.replicate_succ] at shallow
    rw [show 299 + 1 = maxNesting + 1 + 171 from rfl, deep] at shallow
    simp at shallow

end Ends

end WalletDaemon.Measure
