import Mathlib.Data.List.Basic

/-! Runs of a labelled transition relation, and what one step preserves.
A path lists its labels oldest first. A trace is kept newest first, so that the
observations of a step are a prefix of the trace after it. -/

namespace WalletDaemon.Transition

variable {σ ε ω : Type*}

/-- A finite run of `R`, grown at its end. -/
inductive Path (R : σ → ε → σ → Prop) (s : σ) : List ε → σ → Prop
  | refl : Path R s [] s
  | snoc {t u : σ} {es : List ε} {e : ε} :
      Path R s es t → R t e u → Path R s (es ++ [e]) u

def ofFn (step : σ → ε → Option σ) (s : σ) (e : ε) (t : σ) : Prop := step s e = some t

/-- `R` limited to the steps whose state before and label meet `ok`. -/
def gated (ok : σ → ε → Prop) (R : σ → ε → σ → Prop) (s : σ) (e : ε) (t : σ) : Prop :=
  ok s e ∧ R s e t

/-- A partial step function with a trace of what each step shows. -/
def traced (step : σ → ε → Option (σ × List ω)) (s : σ × List ω) (e : ε) (t : σ × List ω) :
    Prop :=
  ∃ shown, step s.1 e = some (t.1, shown) ∧ t.2 = shown ++ s.2

theorem Path.single {R : σ → ε → σ → Prop} {s t : σ} {e : ε} (h : R s e t) :
    Path R s [e] t := Path.refl.snoc h

theorem Path.invariant {R : σ → ε → σ → Prop} {I : σ → Prop}
    (preserve : ∀ s e t, I s → R s e t → I t)
    {s t : σ} {es : List ε} (path : Path R s es t) (start : I s) : I t := by
  induction path with
  | refl => exact start
  | snoc _ last ih => exact preserve _ _ _ ih last

theorem Path.trans {R : σ → ε → σ → Prop} {s t u : σ} {es fs : List ε}
    (first : Path R s es t) (second : Path R t fs u) : Path R s (es ++ fs) u := by
  induction second with
  | refl => simpa using first
  | snoc _ last ih =>
    rw [← List.append_assoc]
    exact ih.snoc last

theorem Path.mono {R S : σ → ε → σ → Prop} (sub : ∀ s e t, R s e t → S s e t)
    {s t : σ} {es : List ε} (path : Path R s es t) : Path S s es t := by
  induction path with
  | refl => exact Path.refl
  | snoc _ last ih => exact ih.snoc (sub _ _ _ last)

def run (step : σ → ε → Option σ) : σ → List ε → Option σ
  | s, [] => some s
  | s, e :: es => (step s e).bind fun t => run step t es

theorem Path.of_run {step : σ → ε → Option σ} {s t : σ} {es : List ε}
    (h : run step s es = some t) : Path (ofFn step) s es t := by
  induction es generalizing s with
  | nil =>
    obtain rfl : s = t := by simpa [run] using h
    exact Path.refl
  | cons e es ih =>
    obtain ⟨m, first, rest⟩ := Option.bind_eq_some_iff.mp h
    exact (Path.single first).trans (ih rest)

theorem Path.gate {R : σ → ε → σ → Prop} {ok : σ → ε → Prop} {s t : σ} {es : List ε}
    (path : Path R s es t) (allowed : ∀ e ∈ es, ∀ at_, ok at_ e) : Path (gated ok R) s es t := by
  induction path with
  | refl => exact Path.refl
  | snoc _ last ih =>
    exact (ih fun e member => allowed e (by simp [member])).snoc ⟨allowed _ (by simp) _, last⟩

/-- Every label of a run is allowed by the state before it. -/
def Allowed (ok : σ → ε → Prop) (step : σ → ε → Option σ) : σ → List ε → Prop
  | _, [] => True
  | s, e :: es =>
    ok s e ∧ match step s e with
      | some t => Allowed ok step t es
      | none => True

theorem Path.gate_run {R : σ → ε → σ → Prop} {ok : σ → ε → Prop} {step : σ → ε → Option σ}
    (runs : ∀ s e t, step s e = some t → R s e t) {s t : σ} {es : List ε}
    (h : run step s es = some t) (allowed : Allowed ok step s es) : Path (gated ok R) s es t := by
  induction es generalizing s with
  | nil =>
    obtain rfl : s = t := by simpa [run] using h
    exact Path.refl
  | cons e es ih =>
    obtain ⟨m, first, rest⟩ := Option.bind_eq_some_iff.mp h
    have later := allowed.2
    rw [first] at later
    exact (Path.single ⟨allowed.1, runs _ _ _ first⟩).trans (ih rest later)

def traceStep (step : σ → ε → Option (σ × List ω)) (s : σ × List ω) (e : ε) :
    Option (σ × List ω) :=
  (step s.1 e).map fun t => (t.1, t.2 ++ s.2)

theorem traced_of_traceStep {step : σ → ε → Option (σ × List ω)} {s t : σ × List ω} {e : ε}
    (h : traceStep step s e = some t) : traced step s e t := by
  obtain ⟨⟨next, shown⟩, taken, same⟩ := Option.map_eq_some_iff.mp h
  rw [← same]
  exact ⟨shown, taken, rfl⟩

theorem Path.of_traced_run {step : σ → ε → Option (σ × List ω)} {s t : σ × List ω} {es : List ε}
    (h : run (traceStep step) s es = some t) : Path (traced step) s es t :=
  (Path.of_run h).mono fun _ _ _ => traced_of_traceStep

/-- Every entry of a trace has its reason in what came before it. -/
def Justified (reason : ω → List ω → Prop) : List ω → Prop
  | [] => True
  | o :: earlier => reason o earlier ∧ Justified reason earlier

theorem Justified.suffix {reason : ω → List ω → Prop} {earlier trace : List ω}
    (h : Justified reason trace) (suffix : earlier <:+ trace) : Justified reason earlier := by
  induction trace with
  | nil =>
    rw [List.suffix_nil.mp suffix]
    trivial
  | cons o rest ih =>
    rcases List.suffix_cons_iff.mp suffix with rfl | inside
    · exact h
    · exact ih h.2 inside

end WalletDaemon.Transition
