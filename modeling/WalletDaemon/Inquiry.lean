import Mathlib.Data.Set.Insert
import Mathlib.Logic.Function.Basic
import Mathlib.Tactic.Tauto

/-! Programs that ask questions. The party that answers may keep a state, and answer one
question differently each time. Where no question is asked twice, its answers are those of a
table. -/

namespace WalletDaemon

/-- A program that asks questions of type `Q`, which are answered from `R`. -/
inductive Inquiry (Q : Type) (R : Q → Type) (α : Type)
  | done (a : α)
  | ask (q : Q) (next : R q → Inquiry Q R α)

/-- What a program ends with, and what it was answered, oldest first. -/
structure Served (Q : Type) (R : Q → Type) (Ω α : Type) where
  value : α
  world : Ω
  log : List (Sigma R)

namespace Inquiry

variable {Q : Type} {R : Q → Type} {α β Ω : Type}

def andThen : Inquiry Q R α → (α → Inquiry Q R β) → Inquiry Q R β
  | done a, f => f a
  | ask q next, f => ask q fun r => (next r).andThen f

/-- Every question is answered from a table. -/
def eval (table : ∀ q, R q) : Inquiry Q R α → α
  | done a => a
  | ask q next => (next (table q)).eval table

/-- Every question is answered by a party with a state. -/
def serve (server : ∀ q, Ω → R q × Ω) : Inquiry Q R α → Ω → Served Q R Ω α
  | done a, world => ⟨a, world, []⟩
  | ask q next, world =>
    let rest := (next (server q world).1).serve server (server q world).2
    ⟨rest.value, rest.world, ⟨q, (server q world).1⟩ :: rest.log⟩

@[simp] theorem eval_done (table : ∀ q, R q) (a : α) : (done a : Inquiry Q R α).eval table = a := rfl

@[simp] theorem eval_ask (table : ∀ q, R q) (q : Q) (next : R q → Inquiry Q R α) :
    (ask q next).eval table = (next (table q)).eval table := rfl

@[simp] theorem eval_andThen (table : ∀ q, R q) (m : Inquiry Q R α) (f : α → Inquiry Q R β) :
    (m.andThen f).eval table = (f (m.eval table)).eval table := by
  induction m with
  | done a => rfl
  | ask q next ih => exact ih (table q)

/-- Whatever is answered, no question is asked that is in `asked` or was asked before, and
`post` holds of the value and of the questions then. -/
def Once (asked : Set Q) : Inquiry Q R α → (α → Set Q → Prop) → Prop
  | done a, post => post a asked
  | ask q next, post => q ∉ asked ∧ ∀ r, (next r).Once (insert q asked) post

theorem Once.mono {asked : Set Q} {m : Inquiry Q R α} {post post' : α → Set Q → Prop}
    (once : m.Once asked post) (weaker : ∀ a later, post a later → post' a later) :
    m.Once asked post' := by
  induction m generalizing asked with
  | done a => exact weaker a asked once
  | ask q next ih => exact ⟨once.1, fun r => ih r (once.2 r)⟩

theorem Once.andThen {asked : Set Q} {m : Inquiry Q R α} {f : α → Inquiry Q R β}
    {post : β → Set Q → Prop} (once : m.Once asked fun a later => (f a).Once later post) :
    (m.andThen f).Once asked post := by
  induction m generalizing asked with
  | done a => exact once
  | ask q next ih => exact ⟨once.1, fun r => ih r (once.2 r)⟩

def questions (log : List (Sigma R)) : List Q := log.map Sigma.fst

theorem Once.serve {asked : Set Q} {m : Inquiry Q R α} {post : α → Set Q → Prop}
    (once : m.Once asked post) (server : ∀ q, Ω → R q × Ω) (world : Ω) :
    (questions (m.serve server world).log).Nodup ∧
      (∀ q ∈ questions (m.serve server world).log, q ∉ asked) ∧
      post (m.serve server world).value
        (asked ∪ {q | q ∈ questions (m.serve server world).log}) := by
  induction m generalizing asked world with
  | done a =>
    refine ⟨List.nodup_nil, fun q inside => absurd inside List.not_mem_nil, ?_⟩
    have nothing : {q | q ∈ questions ((done a : Inquiry Q R α).serve server world).log} = ∅ :=
      Set.eq_empty_of_forall_notMem fun q inside => List.not_mem_nil inside
    rw [nothing, Set.union_empty]
    exact once
  | ask q next ih =>
    obtain ⟨nodup, apart, ends⟩ := ih (server q world).1 (once.2 _) (server q world).2
    refine ⟨List.nodup_cons.mpr ⟨fun again => ?_, nodup⟩, fun other inside => ?_, ?_⟩
    · exact apart q again (Set.mem_insert q asked)
    · rcases List.mem_cons.mp inside with rfl | later
      · exact once.1
      · exact fun old => apart other later (Set.mem_insert_of_mem q old)
    · have same : insert q asked ∪ {other | other ∈ questions ((next (server q world).1).serve
          server (server q world).2).log} =
          asked ∪ {other | other ∈ questions ((ask q next).serve server world).log} := by
        refine Set.ext fun other => ?_
        simp only [Inquiry.serve, questions, List.map_cons, List.mem_cons, Set.mem_union,
          Set.mem_ofPred_eq, Set.mem_insert_iff]
        tauto
      rw [← same]
      exact ends

def Agrees (table : ∀ q, R q) (log : List (Sigma R)) : Prop := ∀ a ∈ log, table a.1 = a.2

theorem eval_of_agrees {table : ∀ q, R q} {m : Inquiry Q R α} {server : ∀ q, Ω → R q × Ω}
    {world : Ω} (agrees : Agrees table (m.serve server world).log) :
    m.eval table = (m.serve server world).value := by
  induction m generalizing world with
  | done a => rfl
  | ask q next ih =>
    have first : table q = (server q world).1 := agrees ⟨q, _⟩ List.mem_cons_self
    rw [eval_ask, first]
    exact ih _ fun a inside => agrees a (List.mem_cons_of_mem _ inside)

theorem exists_table [DecidableEq Q] [∀ q, Nonempty (R q)] {log : List (Sigma R)}
    (nodup : (questions log).Nodup) : ∃ table : ∀ q, R q, Agrees table log := by
  induction log with
  | nil => exact ⟨fun q => Classical.choice inferInstance, fun a inside => absurd inside List.not_mem_nil⟩
  | cons asked log ih =>
    obtain ⟨fresh, nodup⟩ := List.nodup_cons.mp nodup
    obtain ⟨table, agrees⟩ := ih nodup
    refine ⟨Function.update table asked.1 asked.2, fun a inside => ?_⟩
    rcases List.mem_cons.mp inside with rfl | later
    · exact Function.update_self _ _ _
    · rw [Function.update_of_ne, agrees a later]
      intro same
      exact fresh (same ▸ List.mem_map_of_mem later)

/-- A stateful party is as good as a table for a program that asks each question once. -/
theorem Once.exists_table [DecidableEq Q] [∀ q, Nonempty (R q)] {m : Inquiry Q R α}
    {post : α → Set Q → Prop} (once : m.Once ∅ post) (server : ∀ q, Ω → R q × Ω) (world : Ω) :
    ∃ table : ∀ q, R q, Agrees table (m.serve server world).log ∧
      m.eval table = (m.serve server world).value := by
  obtain ⟨table, agrees⟩ := Inquiry.exists_table (once.serve server world).1
  exact ⟨table, agrees, eval_of_agrees agrees⟩

end Inquiry

end WalletDaemon
