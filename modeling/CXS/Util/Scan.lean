import Mathlib.Data.List.Basic

/-!
This module contains machines that read a text from left to right, with rules of pre- and
postconditions for the texts that they read. A machine is a partial step on its states, which is given
the offset of what it reads and has no result where the machine stops.
-/

universe u v

namespace Scan

variable {α : Type u} {σ : Type v}

def run (step : Nat → α → σ → Option σ) (p : Nat) (text : List α) (s : σ) : Option σ :=
  match text with
  | [] => some s
  | b :: text =>
    match step p b s with
    | none => none
    | some s => run step (p + 1) text s

/--
From every state with `P` the machine reads `text` without a stop, and comes to a state with `Q`.
-/
def Reads (step : Nat → α → σ → Option σ) (P : σ → Prop) (p : Nat) (text : List α) (Q : σ → Prop)
    : Prop :=
  ∀ s, P s → ∃ s', run step p text s = some s' ∧ Q s'

variable {step : Nat → α → σ → Option σ} {p : Nat} {text : List α} {P Q R : σ → Prop}

theorem run_append (p : Nat) (xs ys : List α) (s : σ)
    : run step p (xs ++ ys) s = (run step p xs s).bind (run step (p + xs.length) ys) := by
  induction xs generalizing p s with
  | nil => rfl
  | cons b xs ih =>
    rw [List.cons_append, run, run, List.length_cons]
    cases step p b s with
    | none => rfl
    | some s =>
      dsimp only
      rw [ih, Nat.add_right_comm]
      rfl

namespace Reads

theorem nil : Reads step P p [] P :=
  fun s hs => ⟨s, rfl, hs⟩

theorem append {xs ys : List α} (h : Reads step P p xs R)
    (h' : Reads step R (p + xs.length) ys Q) : Reads step P p (xs ++ ys) Q := by
  intro s hs
  obtain ⟨s₁, hrun, hs₁⟩ := h s hs
  obtain ⟨s₂, hrun', hs₂⟩ := h' s₁ hs₁
  refine ⟨s₂, ?_, hs₂⟩
  rw [run_append, hrun]
  exact hrun'

theorem single {b : α} (h : ∀ s, P s → ∃ s', step p b s = some s' ∧ Q s')
    : Reads step P p [b] Q := by
  intro s hs
  obtain ⟨s', hstep, hs'⟩ := h s hs
  refine ⟨s', ?_, hs'⟩
  rw [run, hstep]
  rfl

theorem cons {b : α} (h : Reads step P p [b] R) (h' : Reads step R (p + 1) text Q)
    : Reads step P p (b :: text) Q :=
  append h h'

theorem invariant (h : ∀ b ∈ text, ∀ p, Reads step P p [b] P) : Reads step P p text P := by
  induction text generalizing p with
  | nil => exact nil
  | cons b text ih =>
    rw [List.forall_mem_cons] at h
    exact cons (h.1 p) (ih h.2)

end Reads

end Scan
