import CXS.Util.LTS
import Mathlib.Logic.Function.Basic
import Mathlib.Logic.Relation

/-!
This module contains threads that access shared data in sections. A thread enters a section for reading
or for writing, accesses the data step by step and leaves. A writer is alone, readers may be together.
It is proved that the sections are atomic: what the threads and the data are is what they are when each
section happens at once, in the order in which the sections are left.
-/

namespace CXS

open Relation (ReflTransGen)

inductive Access where
  | read
  | write
  deriving DecidableEq, Repr

/-- What the threads do outside of a section and what one step in a section does. -/
structure Sections (ι L δ : Type*) where
  think : ι → L → L → Prop
  access : ι → Access → L × δ → L × δ → Prop
  read_keeps : ∀ i x y, access i .read x y → y.2 = x.2

namespace Sections

variable {ι L δ : Type*} [DecidableEq ι]

inductive Label (ι : Type*) where
  | think (i : ι)
  | enter (i : ι) (m : Access)
  | access (i : ι)
  | leave (i : ι) (m : Access)

structure State (ι L δ : Type*) where
  locals : ι → L
  data : δ
  inside : ι → Option Access

inductive Step (P : Sections ι L δ) : State ι L δ → Label ι → State ι L δ → Prop where
  | think {s : State ι L δ} {i : ι} {l : L} (hout : s.inside i = none)
    (hthink : P.think i (s.locals i) l)
    : Step P s (.think i) { s with locals := Function.update s.locals i l }
  | enter {s : State ι L δ} {i : ι} {m : Access} (hout : s.inside i = none)
    (hfree : ∀ j n, s.inside j = some n → m = .read ∧ n = .read)
    : Step P s (.enter i m) { s with inside := Function.update s.inside i (some m) }
  | access {s : State ι L δ} {i : ι} {m : Access} {l : L} {d : δ} (hin : s.inside i = some m)
    (haccess : P.access i m (s.locals i, s.data) (l, d))
    : Step P s (.access i) { s with locals := Function.update s.locals i l, data := d }
  | leave {s : State ι L δ} {i : ι} {m : Access} (hin : s.inside i = some m)
    : Step P s (.leave i m) { s with inside := Function.update s.inside i none }

def lts (P : Sections ι L δ) : LTS (State ι L δ) (Label ι) where
  step := Step P

inductive AtomicStep (P : Sections ι L δ)
    : (ι → L) × δ → ι × Option Access → (ι → L) × δ → Prop where
  | think {ls : ι → L} {d : δ} {i : ι} {l : L} (hthink : P.think i (ls i) l)
    : AtomicStep P (ls, d) (i, none) (Function.update ls i l, d)
  | atOnce {ls : ι → L} {d d' : δ} {i : ι} {m : Access} {l : L}
    (hsection : ReflTransGen (P.access i m) (ls i, d) (l, d'))
    : AtomicStep P (ls, d) (i, some m) (Function.update ls i l, d')

def atomic (P : Sections ι L δ) : LTS ((ι → L) × δ) (ι × Option Access) where
  step := AtomicStep P

def Label.atomic : Label ι → Option (ι × Option Access)
  | .think i => some (i, none)
  | .enter _ _ => none
  | .access _ => none
  | .leave i m => some (i, some m)

def Exclusive (inside : ι → Option Access) : Prop :=
  ∀ i j m n, i ≠ j → inside i = some m → inside j = some n → m = .read ∧ n = .read

/-- The atomic state, where the sections that are entered have not begun. -/
structure Pending (P : Sections ι L δ) (c : (ι → L) × δ) (s : State ι L δ) : Prop where
  outside : ∀ i, s.inside i = none → c.1 i = s.locals i
  inside : ∀ i m, s.inside i = some m
    → ReflTransGen (P.access i m) (c.1 i, c.2) (s.locals i, s.data)
  data : (∀ i, s.inside i ≠ some .write) → c.2 = s.data

variable {P : Sections ι L δ} {s s' : State ι L δ} {c : (ι → L) × δ} {l : Label ι}

theorem Exclusive.step (h : Exclusive s.inside) (hstep : P.Step s l s') : Exclusive s'.inside := by
  cases hstep with
  | think hout hthink => exact h
  | access hin haccess => exact h
  | @enter i m hout hfree =>
    intro j k n p hne hj hk
    change Function.update s.inside i (some m) j = some n at hj
    change Function.update s.inside i (some m) k = some p at hk
    by_cases hji : j = i
    . rw [hji, Function.update_self, Option.some.injEq] at hj
      rw [Function.update_of_ne (hji ▸ hne.symm)] at hk
      exact hj ▸ hfree k p hk
    . rw [Function.update_of_ne hji] at hj
      by_cases hki : k = i
      . rw [hki, Function.update_self, Option.some.injEq] at hk
        exact hk ▸ (hfree j n hj).symm
      . rw [Function.update_of_ne hki] at hk
        exact h j k n p hne hj hk
  | @leave i m hin =>
    intro j k n p hne hj hk
    change Function.update s.inside i none j = some n at hj
    change Function.update s.inside i none k = some p at hk
    by_cases hji : j = i
    . rw [hji, Function.update_self] at hj
      cases hj
    . by_cases hki : k = i
      . rw [hki, Function.update_self] at hk
        cases hk
      . rw [Function.update_of_ne hji] at hj
        rw [Function.update_of_ne hki] at hk
        exact h j k n p hne hj hk

theorem Pending.think {i : ι} {x : L} (h : P.Pending c s) (hout : s.inside i = none)
    : P.Pending (Function.update c.1 i x, c.2) { s with locals := Function.update s.locals i x } where
  outside j hj := by
    by_cases hji : j = i
    . rw [hji]
      dsimp only
      rw [Function.update_self, Function.update_self]
    . dsimp only
      rw [Function.update_of_ne hji, Function.update_of_ne hji]
      exact h.outside j hj
  inside j m hj := by
    have hji : j ≠ i := by
      rintro rfl
      rw [hout] at hj
      cases hj
    dsimp only
    rw [Function.update_of_ne hji, Function.update_of_ne hji]
    exact h.inside j m hj
  data := h.data

theorem Pending.enter {i : ι} {m : Access} (h : P.Pending c s) (hout : s.inside i = none)
    (hfree : ∀ j n, s.inside j = some n → m = .read ∧ n = .read)
    : P.Pending c { s with inside := Function.update s.inside i (some m) } where
  outside j hj := by
    change Function.update s.inside i (some m) j = none at hj
    have hji : j ≠ i := by
      rintro rfl
      rw [Function.update_self] at hj
      cases hj
    rw [Function.update_of_ne hji] at hj
    exact h.outside j hj
  inside j n hj := by
    change Function.update s.inside i (some m) j = some n at hj
    have hdata : c.2 = s.data := by
      apply h.data
      intro k hk
      cases (hfree k .write hk).2
    by_cases hji : j = i
    . rw [hji, h.outside i hout, hdata]
    . rw [Function.update_of_ne hji] at hj
      exact h.inside j n hj
  data _ := by
    apply h.data
    intro k hk
    cases (hfree k .write hk).2

theorem Pending.access {i : ι} {m : Access} {x : L} {d : δ} (h : P.Pending c s)
    (hexcl : Exclusive s.inside) (hin : s.inside i = some m)
    (haccess : P.access i m (s.locals i, s.data) (x, d))
    : P.Pending c { s with locals := Function.update s.locals i x, data := d } where
  outside j hj := by
    have hji : j ≠ i := by
      rintro rfl
      rw [hin] at hj
      cases hj
    dsimp only
    rw [Function.update_of_ne hji]
    exact h.outside j hj
  inside j n hj := by
    dsimp only
    by_cases hji : j = i
    . rw [hji, hin, Option.some.injEq] at hj
      rw [hji, Function.update_self, ← hj]
      exact (h.inside i m hin).tail haccess
    . have hread := (hexcl i j m n (Ne.symm hji) hin hj).1
      rw [hread] at haccess
      have hkeep : d = s.data := P.read_keeps i _ _ haccess
      rw [Function.update_of_ne hji, hkeep]
      exact h.inside j n hj
  data hread := by
    cases m with
    | write => exact absurd hin (hread i)
    | read =>
      have hkeep : d = s.data := P.read_keeps i _ _ haccess
      dsimp only
      rw [hkeep]
      exact h.data hread

theorem Pending.leave {i : ι} {m : Access} (h : P.Pending c s) (hexcl : Exclusive s.inside)
    (hin : s.inside i = some m)
    : P.Pending (Function.update c.1 i (s.locals i), s.data)
        { s with inside := Function.update s.inside i none } where
  outside j hj := by
    change Function.update s.inside i none j = none at hj
    by_cases hji : j = i
    . rw [hji]
      exact Function.update_self i _ _
    . rw [Function.update_of_ne hji] at hj
      dsimp only
      rw [Function.update_of_ne hji]
      exact h.outside j hj
  inside j n hj := by
    change Function.update s.inside i none j = some n at hj
    have hji : j ≠ i := by
      rintro rfl
      rw [Function.update_self] at hj
      cases hj
    rw [Function.update_of_ne hji] at hj
    have hdata : c.2 = s.data := by
      apply h.data
      intro k hk
      by_cases hki : k = i
      . have hread := (hexcl i j m n (Ne.symm hji) hin hj).1
        rw [hki, hin, Option.some.injEq, hread] at hk
        cases hk
      . cases (hexcl i k m .write (Ne.symm hki) hin hk).2
    have hsteps := h.inside j n hj
    dsimp only
    rw [Function.update_of_ne hji, ← hdata]
    rw [← hdata] at hsteps
    exact hsteps
  data _ := rfl

theorem Pending.step (h : P.Pending c s) (hexcl : Exclusive s.inside) (hstep : P.Step s l s')
    : ∃ c', P.Pending c' s' ∧ P.atomic.Run c l.atomic.toList c' := by
  cases hstep with
  | think hout hthink =>
    refine ⟨_, h.think hout, .cons (.think ?_) (.nil _)⟩
    rw [h.outside _ hout]
    exact hthink
  | enter hout hfree => exact ⟨c, h.enter hout hfree, .nil c⟩
  | access hin haccess => exact ⟨c, h.access hexcl hin haccess, .nil c⟩
  | leave hin => exact ⟨_, h.leave hexcl hin, .cons (.atOnce (h.inside _ _ hin)) (.nil _)⟩

/-- Every run of threads that enter and leave sections is a run of atomic sections. -/
theorem run_atomic {locals : ι → L} {d : δ} {ls : List (Label ι)}
    (hrun : P.lts.Run ⟨locals, d, fun _ => none⟩ ls s)
    : Exclusive s.inside
      ∧ ∃ c, P.atomic.Run (locals, d) (ls.filterMap Label.atomic) c ∧ P.Pending c s := by
  have hstep : ∀ (pre : List (Label ι)) (s : State ι L δ) (l : Label ι) (s' : State ι L δ),
      (Exclusive s.inside
        ∧ ∃ c, P.atomic.Run (locals, d) (pre.filterMap Label.atomic) c ∧ P.Pending c s)
      → P.lts.step s l s'
      → Exclusive s'.inside
        ∧ ∃ c, P.atomic.Run (locals, d) ((pre ++ [l]).filterMap Label.atomic) c
          ∧ P.Pending c s' := by
    rintro pre s l s' ⟨hexcl, c, hrun, hpending⟩ hstep
    obtain ⟨c', hpending', hrun'⟩ := hpending.step hexcl hstep
    refine ⟨hexcl.step hstep, c', ?_, hpending'⟩
    have hlast : [l].filterMap Label.atomic = l.atomic.toList := by cases l <;> rfl
    rw [List.filterMap_append, hlast]
    exact hrun.append hrun'
  have hall : Exclusive s.inside
      ∧ ∃ c, P.atomic.Run (locals, d) (([] ++ ls).filterMap Label.atomic) c ∧ P.Pending c s := by
    apply hrun.history hstep
    exact ⟨nofun, (locals, d), .nil _, fun _ _ => rfl, nofun, fun _ => rfl⟩
  exact hall

end Sections

end CXS
