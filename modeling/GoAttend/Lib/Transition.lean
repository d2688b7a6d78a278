import Mathlib.Logic.Relation
import Mathlib.Data.List.Forall2

namespace GoAttend.Lib

variable {σ α : Type*}

/-- Runs of a labelled transition system whose every label satisfies `P`. -/
def Runs (step : σ → α → σ → Prop) (P : α → Prop) : σ → σ → Prop :=
  Relation.ReflTransGen fun s s' => ∃ a, P a ∧ step s a s'

namespace Runs

variable {step : σ → α → σ → Prop} {P Q : α → Prop} {s s' s'' : σ}

theorem refl : Runs step P s s := Relation.ReflTransGen.refl

theorem tail {a : α} (h : Runs step P s s') (ha : P a) (hs : step s' a s'') :
    Runs step P s s'' :=
  Relation.ReflTransGen.tail h ⟨a, ha, hs⟩

theorem trans (h : Runs step P s s') (h' : Runs step P s' s'') : Runs step P s s'' :=
  Relation.ReflTransGen.trans h h'

theorem mono (hPQ : ∀ a, P a → Q a) (h : Runs step P s s') : Runs step Q s s' :=
  Relation.ReflTransGen.mono (fun _ _ ⟨a, ha, hs⟩ => ⟨a, hPQ a ha, hs⟩) _ _ h

/-- A step that makes fewer moves has fewer runs. -/
theorem restrict {step' : σ → α → σ → Prop} (hle : ∀ s a s', step' s a s' → step s a s')
    (h : Runs step' P s s') : Runs step P s s' :=
  Relation.ReflTransGen.mono (fun _ _ ⟨a, ha, hs⟩ => ⟨a, ha, hle _ a _ hs⟩) _ _ h

/-- The invariant rule: what holds at the start and survives every allowed step holds after
any run. -/
theorem invariant {Inv : σ → Prop} (h0 : Inv s)
    (hstep : ∀ s a s', Inv s → P a → step s a s' → Inv s') (h : Runs step P s s') : Inv s' := by
  induction h with
  | refl => exact h0
  | tail _ hst ih =>
    obtain ⟨a, ha, hs⟩ := hst
    exact hstep _ a _ ih ha hs

/-- The rule for two-state properties: a reflexive, transitive relation between the states before
and after every allowed step from an invariant state relates the two ends of a run. -/
theorem stable {Inv : σ → Prop} {R : σ → σ → Prop} (hrefl : ∀ s, R s s)
    (htrans : ∀ s s' s'', R s s' → R s' s'' → R s s'')
    (hinv : ∀ s a s', Inv s → P a → step s a s' → Inv s')
    (hstep : ∀ s a s', Inv s → P a → step s a s' → R s s') (h0 : Inv s)
    (h : Runs step P s s') : R s s' := by
  have hboth : Inv s' ∧ R s s' := by
    induction h with
    | refl => exact ⟨h0, hrefl s⟩
    | tail _ hst ih =>
      obtain ⟨a, ha, hs⟩ := hst
      exact ⟨hinv _ a _ ih.1 ha hs, htrans _ _ _ ih.2 (hstep _ a _ ih.1 ha hs)⟩
  exact hboth.2

end Runs

/-- A run with the labels of its steps, first step first. -/
inductive Trace (step : σ → α → σ → Prop) : σ → List α → σ → Prop
  | nil (s : σ) : Trace step s [] s
  | snoc {s s' s'' : σ} {as : List α} {a : α} :
      Trace step s as s' → step s' a s'' → Trace step s (as ++ [a]) s''

namespace Trace

variable {step : σ → α → σ → Prop} {s s' : σ} {as : List α}

theorem runs (h : Trace step s as s') : Runs step (fun _ => True) s s' := by
  induction h with
  | nil => exact Runs.refl
  | snoc _ hs ih => exact ih.tail trivial hs

/-- The invariant rule for runs with their labels: what holds of the start with the empty log,
and survives every step with its label appended to the log, holds at the end of every run. -/
theorem invariant {I : List α → σ → Prop} (h0 : I [] s)
    (hstep : ∀ as s' a s'', I as s' → step s' a s'' → I (as ++ [a]) s'')
    (h : Trace step s as s') : I as s' := by
  induction h with
  | nil => exact h0
  | snoc _ hs ih => exact hstep _ _ _ _ ih hs

end Trace

/-! ## Machines that answer each input -/

section Machines

variable {τ β γ : Type*}

/-- The answers of a machine that answers each input and moves to its next state, over a list of
inputs. -/
def outputs (step : σ → α → β × σ) (s : σ) : List α → List β
  | [] => []
  | a :: as => (step s a).1 :: outputs step (step s a).2 as

@[simp]
theorem outputs_nil (step : σ → α → β × σ) (s : σ) : outputs step s [] = [] := rfl

@[simp]
theorem outputs_cons (step : σ → α → β × σ) (s : σ) (a : α) (as : List α) :
    outputs step s (a :: as) = (step s a).1 :: outputs step (step s a).2 as := rfl

/-- Lockstep simulation: a relation between the states of two machines that every allowed input
keeps, with related answers, relates the answers of their whole runs. -/
theorem forall₂_outputs {step : σ → α → β × σ} {step' : τ → α → γ × τ} {P : α → Prop}
    {R : σ → τ → Prop} {O : β → γ → Prop}
    (hstep : ∀ s t a, R s t → P a → O (step s a).1 (step' t a).1 ∧ R (step s a).2 (step' t a).2)
    {s : σ} {t : τ} (hst : R s t) {as : List α} (has : ∀ a ∈ as, P a) :
    List.Forall₂ O (outputs step s as) (outputs step' t as) := by
  induction as generalizing s t with
  | nil => exact List.Forall₂.nil
  | cons a as ih =>
    obtain ⟨hout, hnext⟩ := hstep s t a hst (has a List.mem_cons_self)
    exact List.Forall₂.cons hout (ih hnext fun b hb => has b (List.mem_cons_of_mem a hb))

/-- Inputs that leave the state as it was do not change the answers to the others: the inputs
outside `p`, with their answers, are those of a run without the inputs in `p`. -/
theorem outputs_filter {step : σ → α → β × σ} {p : α → Bool}
    (hp : ∀ s a, p a = true → (step s a).2 = s) (s : σ) (as : List α) :
    (as.zip (outputs step s as)).filter (fun x => !p x.1) =
      (as.filter fun a => !p a).zip (outputs step s (as.filter fun a => !p a)) := by
  induction as generalizing s with
  | nil => rfl
  | cons a as ih =>
    cases ha : p a with
    | true => simp [ha, ih, hp s a ha]
    | false => simp [ha, ih]

/-- Each answer of a run is right for what came before it: `P hist a b` says that `b` is a right
answer to `a` after the inputs and answers `hist`. -/
def Answered (P : List (α × β) → α → β → Prop) : List (α × β) → List (α × β) → Prop
  | _, [] => True
  | hist, x :: xs => P hist x.1 x.2 ∧ Answered P (hist ++ [x]) xs

/-- The history rule: an invariant between the state and the history, under which every allowed
input gets a right answer and which holds again once the answered input is appended, makes every
answer of a run right. -/
theorem answered_outputs {step : σ → α → β × σ} {A : α → Prop} {I : σ → List (α × β) → Prop}
    {P : List (α × β) → α → β → Prop}
    (hstep : ∀ s hist a, I s hist → A a →
      P hist a (step s a).1 ∧ I (step s a).2 (hist ++ [(a, (step s a).1)]))
    {s : σ} {hist : List (α × β)} (hs : I s hist) {as : List α} (has : ∀ a ∈ as, A a) :
    Answered P hist (as.zip (outputs step s as)) := by
  induction as generalizing s hist with
  | nil => trivial
  | cons a as ih =>
    obtain ⟨hright, hnext⟩ := hstep s hist a hs (has a List.mem_cons_self)
    exact ⟨hright, ih hnext fun b hb => has b (List.mem_cons_of_mem a hb)⟩

end Machines

end GoAttend.Lib
