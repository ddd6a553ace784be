import Mathlib.Data.List.Basic

/-! Readers of a list of symbols, and what a success depends on.
A local reader looks only at the symbols it takes: its success on an input is
its success on what it took, followed by anything. The combinators below keep
locality, so a reader assembled from them is local by assembly. -/

namespace WalletDaemon

/-- Take a value off the front of the input, or fail. -/
abbrev Reader (τ E α : Type) := List τ → Except E (α × List τ)

namespace Reader

variable {τ E F α β : Type}

def done (a : α) : Reader τ E α := fun input => .ok (a, input)

def fail (e : E) : Reader τ E α := fun _ => .error e

def andThen (r : Reader τ E α) (f : α → Reader τ E β) : Reader τ E β := fun input =>
  match r input with
  | .error e => .error e
  | .ok (a, rest) => f a rest

def map (f : α → β) (r : Reader τ E α) : Reader τ E β := r.andThen fun a => done (f a)

def mapError (f : E → F) (r : Reader τ E α) : Reader τ F α := fun input => (r input).mapError f

def take (short : E) (n : Nat) : Reader τ E (List τ) := fun input =>
  if n ≤ input.length then .ok (input.take n, input.drop n) else .error short

def each (r : α → Reader τ E β) : List α → Reader τ E (List β)
  | [] => done []
  | a :: rest => (r a).andThen fun b => (each r rest).map (b :: ·)

def times (r : Reader τ E β) : Nat → Reader τ E (List β)
  | 0 => done []
  | n + 1 => r.andThen fun b => (times r n).map (b :: ·)

theorem andThen_ok {r : Reader τ E α} {f : α → Reader τ E β} {input rest : List τ} {b : β} :
    r.andThen f input = .ok (b, rest) ↔
      ∃ a middle, r input = .ok (a, middle) ∧ f a middle = .ok (b, rest) := by
  unfold andThen
  split <;> rename_i h <;> simp [h]

theorem map_ok {r : Reader τ E α} {f : α → β} {input rest : List τ} {b : β} :
    r.map f input = .ok (b, rest) ↔ ∃ a, r input = .ok (a, rest) ∧ f a = b := by
  simp only [map, andThen_ok, done, Except.ok.injEq, Prod.mk.injEq]
  constructor
  · rintro ⟨a, middle, read, value, rfl⟩
    exact ⟨a, read, value⟩
  · rintro ⟨a, read, value⟩
    exact ⟨a, rest, read, value, rfl⟩

theorem mapError_ok {f : E → F} {r : Reader τ E α} {input rest : List τ} {a : α} :
    r.mapError f input = .ok (a, rest) ↔ r input = .ok (a, rest) := by
  unfold mapError
  cases r input <;> simp [Except.mapError]

theorem mapError_error {f : E → F} {r : Reader τ E α} {input : List τ} {e : F} :
    r.mapError f input = .error e ↔ ∃ d, r input = .error d ∧ f d = e := by
  unfold mapError
  cases r input <;> simp [Except.mapError]

theorem map_of_ok {r : Reader τ E α} (f : α → β) {input rest : List τ} {a : α}
    (h : r input = .ok (a, rest)) : r.map f input = .ok (f a, rest) :=
  map_ok.mpr ⟨a, h, rfl⟩

theorem each_cons_of_ok {r : α → Reader τ E β} {a : α} {as : List α} {b : β} {bs : List β}
    {input middle rest : List τ} (head : r a input = .ok (b, middle))
    (tail : each r as middle = .ok (bs, rest)) :
    each r (a :: as) input = .ok (b :: bs, rest) :=
  andThen_ok.mpr ⟨b, middle, head, map_of_ok _ tail⟩

theorem each_map {γ : Type} (r : β → Reader τ E γ) (f : α → β) (as : List α) :
    each r (as.map f) = each (fun a => r (f a)) as := by
  induction as with
  | nil => rfl
  | cons a as ih => simp only [List.map_cons, each, ih]

theorem each_replicate (r : α → Reader τ E β) (a : α) (n : Nat) :
    each r (List.replicate n a) = times (r a) n := by
  induction n with
  | zero => rfl
  | succ n ih => simp only [List.replicate_succ, each, times, ih]

theorem each_cons_ok {r : α → Reader τ E β} {a : α} {as : List α} {bs : List β}
    {input rest : List τ} :
    each r (a :: as) input = .ok (bs, rest) ↔
      ∃ b middle bs', r a input = .ok (b, middle) ∧ each r as middle = .ok (bs', rest) ∧
        b :: bs' = bs := by
  simp only [each, andThen_ok, map_ok]
  constructor
  · rintro ⟨b, middle, head, bs', tail, whole⟩
    exact ⟨b, middle, bs', head, tail, whole⟩
  · rintro ⟨b, middle, bs', head, tail, whole⟩
    exact ⟨b, middle, head, bs', tail, whole⟩

theorem each_length {r : α → Reader τ E β} {as : List α} {bs : List β} {input rest : List τ}
    (h : each r as input = .ok (bs, rest)) : bs.length = as.length := by
  induction as generalizing bs input with
  | nil =>
    simp only [each, done, Except.ok.injEq, Prod.mk.injEq] at h
    simp [← h.1]
  | cons a as ih =>
    obtain ⟨b, middle, bs', -, tail, rfl⟩ := each_cons_ok.mp h
    simp [ih tail]

theorem take_ok {short : E} {n : Nat} {input rest taken : List τ} :
    take short n input = .ok (taken, rest) ↔
      input = taken ++ rest ∧ taken.length = n := by
  unfold take
  split
  · rename_i enough
    simp only [Except.ok.injEq, Prod.mk.injEq]
    constructor
    · rintro ⟨rfl, rfl⟩
      exact ⟨(List.take_append_drop n input).symm, by simp [enough]⟩
    · rintro ⟨rfl, rfl⟩
      simp
  · rename_i short'
    simp only [reduceCtorEq, false_iff, not_and]
    rintro rfl length
    simp only [List.length_append] at short'
    omega

/-- A success of `r` leaves `rest` and does not depend on it. -/
def Local (r : Reader τ E α) : Prop :=
  ∀ input a rest, r input = .ok (a, rest) →
    ∃ used, input = used ++ rest ∧ ∀ tail, r (used ++ tail) = .ok (a, tail)

theorem Local.done (a : α) : Local (done a : Reader τ E α) := by
  intro input b rest h
  simp only [Reader.done, Except.ok.injEq, Prod.mk.injEq] at h
  obtain ⟨rfl, rfl⟩ := h
  exact ⟨[], rfl, fun _ => rfl⟩

theorem Local.fail (e : E) : Local (fail e : Reader τ E α) := by
  intro input a rest h
  cases h

theorem Local.andThen {r : Reader τ E α} {f : α → Reader τ E β}
    (first : Local r) (next : ∀ a, Local (f a)) : Local (r.andThen f) := by
  intro input b rest h
  obtain ⟨a, middle, read, cont⟩ := andThen_ok.mp h
  obtain ⟨used, rfl, anyTail⟩ := first _ _ _ read
  obtain ⟨more, rfl, anyTail'⟩ := next a _ _ _ cont
  refine ⟨used ++ more, by simp, fun tail => ?_⟩
  rw [List.append_assoc]
  exact andThen_ok.mpr ⟨a, more ++ tail, anyTail _, anyTail' tail⟩

theorem Local.map {r : Reader τ E α} (f : α → β) (h : Local r) : Local (r.map f) :=
  h.andThen fun _ => Local.done _

theorem Local.mapError {r : Reader τ E α} (f : E → F) (h : Local r) : Local (r.mapError f) := by
  intro input a rest read
  obtain ⟨used, cut, anyTail⟩ := h input a rest (mapError_ok.mp read)
  exact ⟨used, cut, fun tail => mapError_ok.mpr (anyTail tail)⟩

theorem Local.take (short : E) (n : Nat) : Local (take short n : Reader τ E (List τ)) := by
  intro input taken rest h
  obtain ⟨rfl, length⟩ := take_ok.mp h
  exact ⟨taken, rfl, fun tail => take_ok.mpr ⟨rfl, length⟩⟩

theorem Local.each {r : α → Reader τ E β} (h : ∀ a, Local (r a)) (as : List α) :
    Local (each r as) := by
  induction as with
  | nil => exact Local.done []
  | cons a as ih => exact (h a).andThen fun b => ih.map _

theorem Local.times {r : Reader τ E β} (h : Local r) (n : Nat) : Local (times r n) := by
  induction n with
  | zero => exact Local.done []
  | succ n ih => exact h.andThen fun b => ih.map _

theorem Local.ite {c : Prop} [Decidable c] {r s : Reader τ E α}
    (h : Local r) (k : Local s) : Local (if c then r else s) := by
  split <;> assumption

/-- `s` succeeds wherever `r` does, with the same value and remaining input. -/
def Refines (r s : Reader τ E α) : Prop :=
  ∀ input a rest, r input = .ok (a, rest) → s input = .ok (a, rest)

theorem Refines.refl (r : Reader τ E α) : Refines r r := fun _ _ _ h => h

theorem Refines.fail (e : E) (s : Reader τ E α) : Refines (fail e) s := by
  intro input a rest h
  cases h

theorem Refines.andThen {r s : Reader τ E α} {f g : α → Reader τ E β}
    (first : Refines r s) (next : ∀ a, Refines (f a) (g a)) :
    Refines (r.andThen f) (s.andThen g) := by
  intro input b rest h
  obtain ⟨a, middle, read, cont⟩ := andThen_ok.mp h
  exact andThen_ok.mpr ⟨a, middle, first _ _ _ read, next a _ _ _ cont⟩

theorem Refines.map {r s : Reader τ E α} (f : α → β) (h : Refines r s) :
    Refines (r.map f) (s.map f) := h.andThen fun _ => Refines.refl _

theorem Refines.mapError (f : E → F) {r s : Reader τ E α} (h : Refines r s) :
    Refines (r.mapError f) (s.mapError f) :=
  fun input a rest read => mapError_ok.mpr (h input a rest (mapError_ok.mp read))

theorem Refines.each {r s : α → Reader τ E β} (h : ∀ a, Refines (r a) (s a)) (as : List α) :
    Refines (each r as) (each s as) := by
  induction as with
  | nil => exact Refines.refl _
  | cons a as ih => exact (h a).andThen fun b => ih.map _

theorem Refines.times {r s : Reader τ E β} (h : Refines r s) (n : Nat) :
    Refines (times r n) (times s n) := by
  induction n with
  | zero => exact Refines.refl _
  | succ n ih => exact h.andThen fun b => ih.map _

theorem Refines.ite {c : Prop} [Decidable c] {r s r' s' : Reader τ E α}
    (h : Refines r r') (k : Refines s s') :
    Refines (if c then r else s) (if c then r' else s') := by
  split <;> assumption

/-- Where `r` ends with `e`, `s` does. -/
def Stops (e : E) (r s : Reader τ E α) : Prop := ∀ input, r input = .error e → s input = .error e

theorem Stops.refl (e : E) (r : Reader τ E α) : Stops e r r := fun _ h => h

theorem andThen_error {r : Reader τ E α} {f : α → Reader τ E β} {input : List τ} {e : E} :
    r.andThen f input = .error e ↔
      r input = .error e ∨ ∃ a middle, r input = .ok (a, middle) ∧ f a middle = .error e := by
  unfold andThen
  split <;> rename_i h <;> simp [h]

theorem Stops.andThen {e : E} {r s : Reader τ E α} {f g : α → Reader τ E β}
    (first : Stops e r s) (reads : Refines r s) (next : ∀ a, Stops e (f a) (g a)) :
    Stops e (r.andThen f) (s.andThen g) := by
  intro input h
  rcases andThen_error.mp h with here | ⟨a, middle, read, later⟩
  · exact andThen_error.mpr (.inl (first input here))
  · exact andThen_error.mpr (.inr ⟨a, middle, reads _ _ _ read, next a middle later⟩)

theorem Stops.map {e : E} {r s : Reader τ E α} (f : α → β) (h : Stops e r s)
    (reads : Refines r s) : Stops e (r.map f) (s.map f) :=
  h.andThen reads fun _ => Stops.refl _ _

theorem Stops.each {e : E} {r s : α → Reader τ E β} (h : ∀ a, Stops e (r a) (s a))
    (reads : ∀ a, Refines (r a) (s a)) (as : List α) : Stops e (each r as) (each s as) := by
  induction as with
  | nil => exact Stops.refl _ _
  | cons a as ih => exact (h a).andThen (reads a) fun b => ih.map _ (Refines.each reads as)

theorem Stops.times {e : E} {r s : Reader τ E β} (h : Stops e r s) (reads : Refines r s)
    (n : Nat) : Stops e (times r n) (times s n) := by
  induction n with
  | zero => exact Stops.refl _ _
  | succ n ih => exact h.andThen reads fun b => ih.map _ (reads.times n)

theorem Stops.ite {c : Prop} [Decidable c] {e : E} {r s r' s' : Reader τ E α}
    (h : Stops e r r') (k : Stops e s s') :
    Stops e (if c then r else s) (if c then r' else s') := by
  split <;> assumption

end Reader

end WalletDaemon
