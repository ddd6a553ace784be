import Mathlib.Data.List.Basic

/-! Computations on a state that may fail. A run keeps every state it leaves
behind, so that what holds between two changes can be stated. -/

namespace WalletDaemon

structure Run (σ ε α : Type) where
  value : Except ε α
  state : σ
  /-- What each change left, oldest first. -/
  trail : List σ

structure Script (σ ε α : Type) where
  run : σ → Run σ ε α

namespace Script

variable {σ ε α β : Type}

def done (a : α) : Script σ ε α := ⟨fun s => ⟨.ok a, s, []⟩⟩

/-- Look at the state, or fail with what is seen. -/
def ask (f : σ → Except ε α) : Script σ ε α := ⟨fun s => ⟨f s, s, []⟩⟩

def change (refusal : ε) (f : σ → Option σ) : Script σ ε Unit := ⟨fun s =>
  match f s with
  | some t => ⟨.ok (), t, [t]⟩
  | none => ⟨.error refusal, s, []⟩⟩

def branch (test : σ → Bool) (yes no : Script σ ε α) : Script σ ε α := ⟨fun s =>
  if test s then yes.run s else no.run s⟩

/-- A failure ends the run where it happens. -/
def andThen (first : Script σ ε α) (next : α → Script σ ε β) : Script σ ε β := ⟨fun s =>
  let before := first.run s
  match before.value with
  | .error e => ⟨.error e, before.state, before.trail⟩
  | .ok a =>
    let after := (next a).run before.state
    ⟨after.value, after.state, before.trail ++ after.trail⟩⟩

@[simp] theorem done_run (a : α) (s : σ) : (done a : Script σ ε α).run s = ⟨.ok a, s, []⟩ := rfl

theorem branch_run (test : σ → Bool) (yes no : Script σ ε α) (s : σ) :
    (branch test yes no).run s = if test s then yes.run s else no.run s := rfl

theorem andThen_of_error {first : Script σ ε α} {next : α → Script σ ε β} {s : σ} {e : ε}
    (h : (first.run s).value = .error e) :
    (first.andThen next).run s = ⟨.error e, (first.run s).state, (first.run s).trail⟩ := by
  simp only [andThen, h]

theorem andThen_of_ok {first : Script σ ε α} {next : α → Script σ ε β} {s : σ} {a : α}
    (h : (first.run s).value = .ok a) :
    (first.andThen next).run s =
      ⟨((next a).run (first.run s).state).value, ((next a).run (first.run s).state).state,
        (first.run s).trail ++ ((next a).run (first.run s).state).trail⟩ := by
  simp only [andThen, h]

theorem andThen_of_quiet {first : Script σ ε α} {next : α → Script σ ε β} {s : σ} {a : α}
    (h : first.run s = ⟨.ok a, s, []⟩) : (first.andThen next).run s = (next a).run s := by
  rw [andThen_of_ok (by rw [h]), h]
  rfl

theorem andThen_value_ok {first : Script σ ε α} {next : α → Script σ ε β} {s : σ} {b : β}
    (h : ((first.andThen next).run s).value = .ok b) :
    ∃ a, (first.run s).value = .ok a ∧ ((next a).run (first.run s).state).value = .ok b ∧
      ((first.andThen next).run s).state = ((next a).run (first.run s).state).state := by
  cases value : (first.run s).value with
  | error e =>
    rw [andThen_of_error value] at h
    cases h
  | ok a =>
    rw [andThen_of_ok value] at h ⊢
    exact ⟨a, rfl, h, rfl⟩

theorem change_ok {refusal : ε} {f : σ → Option σ} {s : σ} {a : Unit}
    (h : ((change refusal f).run s).value = .ok a) :
    ∃ t, f s = some t ∧ (change refusal f).run s = ⟨.ok (), t, [t]⟩ := by
  cases made : f s with
  | none =>
    simp only [change, made] at h
    cases h
  | some t => exact ⟨t, rfl, by simp only [change, made]⟩

theorem change_andThen_ok {refusal : ε} {f : σ → Option σ} {next : Unit → Script σ ε β} {s : σ}
    {b : β} (h : (((change refusal f).andThen next).run s).value = .ok b) :
    ∃ t, f s = some t ∧ ((next ()).run t).value = .ok b ∧
      (((change refusal f).andThen next).run s).state = ((next ()).run t).state := by
  obtain ⟨_, changed, later, same⟩ := andThen_value_ok h
  obtain ⟨t, made, ran⟩ := change_ok changed
  rw [ran] at later same
  exact ⟨t, made, later, same⟩

theorem ask_andThen_ok {f : σ → Except ε α} {next : α → Script σ ε β} {s : σ} {b : β}
    (h : (((ask f).andThen next).run s).value = .ok b) :
    ∃ a, f s = .ok a ∧ ((next a).run s).value = .ok b ∧
      (((ask f).andThen next).run s).state = ((next a).run s).state := andThen_value_ok h

end Script

end WalletDaemon
