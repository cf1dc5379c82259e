import CXS.Fiber.Basic

/-!
This module contains the coroutines that the fibers of a thread stand for, and the proof that
`code/fiber.cc` implements them. A coroutine that is gone on with runs until it gives control back to
the one that waits for it, and it continues where it has stopped. The calls that a coroutine may make
are those of `Step`: the scheduler's main fiber swaps other fibers in, the thread's fiber calls the
fiber of a `use_caller` scheduler, and a fiber that was swapped in may yield.
-/

namespace CXS

open FiberThread (Stack Entry Code Point Context Call)

inductive Coroutine.Status where
  | fresh
  | suspended (m_state : FiberState)
  | waiting (point : Point)
  | running
  | done (returned : Bool)
  deriving DecidableEq, Repr

structure Coroutine where
  entry : Entry
  cb : Bool
  status : Coroutine.Status
  deriving DecidableEq, Repr

namespace Coroutine

def Status.m_state : Status → FiberState
  | .fresh => .INIT
  | .suspended m_state => m_state
  | .waiting _ => .EXEC
  | .running => .EXEC
  | .done returned => if returned then .TERM else .EXECEP

def Status.point : Status → Option Point
  | .fresh => some .start
  | .suspended _ => some .swapOut
  | .waiting point => some point
  | .running => none
  | .done _ => some .ended

def code (c : Coroutine) (f : Nat) : Code :=
  ⟨if c.entry = .thread then .thread else .own f, c.entry⟩

def context (c : Coroutine) (f : Nat) : Option Context :=
  c.status.point.map fun point => ⟨c.code f, point⟩

def Yielded (m_state : FiberState) : Prop :=
  m_state = .EXEC ∨ m_state = .READY ∨ m_state = .HOLD

-- neither running nor waiting for one that runs
def Rests (c : Coroutine) : Prop :=
  c.entry ≠ .thread ∧ c.status ≠ .running ∧ (∀ point, c.status ≠ .waiting point)
    ∧ ∀ m_state, c.status = .suspended m_state → Yielded m_state

def Unused (c : Coroutine) : Prop :=
  c.status = .fresh ∨ ∃ returned, c.status = .done returned

def Resumable (c : Coroutine) : Prop :=
  c.status = .fresh ∨ ∃ m_state, m_state ≠ .EXEC ∧ c.status = .suspended m_state

end Coroutine

structure Coroutines where
  fibers : Nat → Option Coroutine
  count : Nat
  current : Option Nat
  thread : Option Nat
  main : Option Nat

namespace Coroutines

def new : Coroutines where
  fibers := fun _ => none
  count := 0
  current := none
  thread := none
  main := none

def set (a : Coroutines) (f : Nat) (c : Coroutine) : Coroutines :=
  { a with fibers := Function.update a.fibers f (some c) }

def switch (a : Coroutines) (f : Nat) (c : Coroutine) (g : Nat) (d : Coroutine) : Coroutines :=
  { (a.set f c).set g { d with status := .running } with current := some g }

def add (a : Coroutines) (c : Coroutine) : Coroutines :=
  { a with fibers := Function.update a.fibers a.count (some c), count := a.count + 1 }

-- the calls that give control back, and the `m_state` that the fiber shows then
def yields : Call → Option FiberState
  | .swapOut => some .EXEC
  | .YieldToReady => some .READY
  | .YieldToHold => some .HOLD
  | _ => none

inductive Step : Coroutines → Call × Option Context → Coroutines → Prop where
  | start {a : Coroutines} (hcurrent : a.current = none)
    : Step a (.GetThis, none)
        { a.add ⟨.thread, false, .running⟩ with current := some a.count, thread := some a.count }
  | getThis {a : Coroutines} {f : Nat} (hcurrent : a.current = some f) : Step a (.GetThis, none) a
  | create (a : Coroutines) (cb use_caller : Bool)
    : Step a (.create cb use_caller, none)
        (a.add ⟨if use_caller then .CallerMainFunc else .MainFunc, cb, .fresh⟩)
  | delete {a : Coroutines} {f : Nat} {c : Coroutine} (hf : a.fibers f = some c) (hunused : c.Unused)
    : Step a (.delete f, none) { a with fibers := Function.update a.fibers f none }
  | reset {a : Coroutines} {f : Nat} {c : Coroutine} (cb : Bool) (hf : a.fibers f = some c)
    (hunused : c.Unused)
    : Step a (.reset f cb, none) (a.set f ⟨.MainFunc, cb, .fresh⟩)
  | setState {a : Coroutines} {f : Nat} {c : Coroutine} {old : FiberState} (m_state : FiberState)
    (hf : a.fibers f = some c) (hold : c.status = .suspended old) (hstate : Coroutine.Yielded m_state)
    : Step a (.setState f m_state, none) (a.set f { c with status := .suspended m_state })
  | setMainFiber {a : Coroutines} (f : Nat) (hcurrent : a.current = a.thread)
    : Step a (.setMainFiber f, none) { a with main := some f }
  | swapIn {a : Coroutines} {m f : Nat} {c d : Coroutine} (hcurrent : a.current = some m)
    (hmain : a.main = some m) (hm : a.fibers m = some c) (hf : a.fibers f = some d)
    (hentry : d.entry = .MainFunc) (hready : d.Resumable)
    : Step a (.swapIn f, d.context f) (a.switch m { c with status := .waiting .swapIn } f d)
  | call {a : Coroutines} {m f : Nat} {c d : Coroutine} (hcurrent : a.current = some m)
    (hthread : a.thread = some m) (hm : a.fibers m = some c) (hf : a.fibers f = some d)
    (hentry : d.entry = .CallerMainFunc) (hfresh : d.status = .fresh)
    : Step a (.call f, d.context f) (a.switch m { c with status := .waiting .call } f d)
  | yield {a : Coroutines} {f m : Nat} {c d : Coroutine} {l : Call} {m_state : FiberState}
    (hl : yields l = some m_state) (hcurrent : a.current = some f) (hf : a.fibers f = some c)
    (hentry : c.entry = .MainFunc) (hmain : a.main = some m) (hm : a.fibers m = some d)
    : Step a (l, d.context m) (a.switch f { c with status := .suspended m_state } m d)
  | finish {a : Coroutines} {f m : Nat} {c d : Coroutine} (returns : Bool)
    (hcurrent : a.current = some f) (hf : a.fibers f = some c) (hentry : c.entry = .MainFunc)
    (hmain : a.main = some m) (hm : a.fibers m = some d)
    : Step a (.finish returns, d.context m)
        (a.switch f ⟨c.entry, !returns && c.cb, .done (returns && c.cb)⟩ m d)
  | finishCaller {a : Coroutines} {f m : Nat} {c d : Coroutine} (returns : Bool)
    (hcurrent : a.current = some f) (hf : a.fibers f = some c) (hentry : c.entry = .CallerMainFunc)
    (hthread : a.thread = some m) (hm : a.fibers m = some d)
    : Step a (.finish returns, d.context m)
        (a.switch f ⟨c.entry, !returns && c.cb, .done (returns && c.cb)⟩ m d)

def lts : LTS Coroutines (Call × Option Context) where
  step := Step

/-- Who runs, and who waits for whom. All other fibers rest. -/
inductive Shape (a : Coroutines) : Prop where
  | none (hcurrent : a.current = none) (hthread : a.thread = none)
    (hrest : ∀ g c, a.fibers g = some c → c.Rests)
  | thread (t : Nat) (hcurrent : a.current = some t) (hthread : a.thread = some t) (cb : Bool)
    (ht : a.fibers t = some ⟨.thread, cb, .running⟩)
    (hrest : ∀ g c, g ≠ t → a.fibers g = some c → c.Rests)
  | fiber (f t : Nat) (hcurrent : a.current = some f) (hthread : a.thread = some t)
    (hmain : a.main = some t) (cb cb' : Bool) (ht : a.fibers t = some ⟨.thread, cb, .waiting .swapIn⟩)
    (hf : a.fibers f = some ⟨.MainFunc, cb', .running⟩)
    (hrest : ∀ g c, g ≠ t → g ≠ f → a.fibers g = some c → c.Rests)
  | root (r t : Nat) (hcurrent : a.current = some r) (hthread : a.thread = some t) (cb cb' : Bool)
    (ht : a.fibers t = some ⟨.thread, cb, .waiting .call⟩)
    (hr : a.fibers r = some ⟨.CallerMainFunc, cb', .running⟩)
    (hrest : ∀ g c, g ≠ t → g ≠ r → a.fibers g = some c → c.Rests)
  | task (f r t : Nat) (hcurrent : a.current = some f) (hthread : a.thread = some t)
    (hmain : a.main = some r) (cb cb' cb'' : Bool)
    (ht : a.fibers t = some ⟨.thread, cb, .waiting .call⟩)
    (hr : a.fibers r = some ⟨.CallerMainFunc, cb', .waiting .swapIn⟩)
    (hf : a.fibers f = some ⟨.MainFunc, cb'', .running⟩)
    (hrest : ∀ g c, g ≠ t → g ≠ r → g ≠ f → a.fibers g = some c → c.Rests)

structure Inv (a : Coroutines) : Prop where
  absent : ∀ f, a.count ≤ f → a.fibers f = none
  shape : a.Shape

section Switch

variable {a : Coroutines} {f g h : Nat} {c d e : Coroutine}

@[simp]
theorem switch_current : (a.switch f c g d).current = some g :=
  rfl

@[simp]
theorem switch_target : (a.switch f c g d).fibers g = some { d with status := .running } :=
  Function.update_self g _ _

@[simp]
theorem switch_source (hne : f ≠ g) : (a.switch f c g d).fibers f = some c := by
  change Function.update (Function.update a.fibers f (some c)) g _ f = some c
  rw [Function.update_of_ne hne, Function.update_self]

@[simp]
theorem switch_other (hf : h ≠ f) (hg : h ≠ g) : (a.switch f c g d).fibers h = a.fibers h := by
  change Function.update (Function.update a.fibers f (some c)) g _ h = a.fibers h
  rw [Function.update_of_ne hg, Function.update_of_ne hf]

theorem ne_of_fibers (hf : a.fibers f = some c) (hg : a.fibers g = some d) (hne : c ≠ d) : f ≠ g := by
  intro heq
  rw [heq, hg] at hf
  injection hf with hf
  exact hne hf.symm

end Switch

section Rests

variable {a a' : Coroutines} {f : Nat} {c : Coroutine}

theorem not_rests_thread {cb : Bool} {status : Coroutine.Status}
    : ¬ (⟨.thread, cb, status⟩ : Coroutine).Rests :=
  fun h => h.1 rfl

theorem not_rests_running {entry : Entry} {cb : Bool}
    : ¬ (⟨entry, cb, .running⟩ : Coroutine).Rests :=
  fun h => h.2.1 rfl

theorem not_rests_waiting {entry : Entry} {cb : Bool} {point : Point}
    : ¬ (⟨entry, cb, .waiting point⟩ : Coroutine).Rests :=
  fun h => h.2.2.1 point rfl

theorem Shape.of_rest (h : a.Shape) (hcurrent : a'.current = a.current)
    (hthread : a'.thread = a.thread) (hmain : a'.main = a.main)
    (hkeep : ∀ g c, ¬ c.Rests → a.fibers g = some c → a'.fibers g = some c)
    (hnew : ∀ g c, a'.fibers g = some c → c.Rests ∨ a.fibers g = some c) : a'.Shape := by
  have hrests : ∀ {g c}, a'.fibers g = some c → (a.fibers g = some c → c.Rests) → c.Rests := by
    intro g c hg hold
    rcases hnew g c hg with hc | hc
    . exact hc
    . exact hold hc
  cases h with
  | none hcur hthr hrest =>
    apply Shape.none
    . rw [hcurrent, hcur]
    . rw [hthread, hthr]
    . intro g c hg
      exact hrests hg (hrest g c)
  | thread t hcur hthr cb ht hrest =>
    apply Shape.thread t
    . rw [hcurrent, hcur]
    . rw [hthread, hthr]
    . exact hkeep t _ not_rests_thread ht
    . intro g c hne hg
      exact hrests hg (hrest g c hne)
  | fiber f t hcur hthr hmn cb cb' ht hf hrest =>
    apply Shape.fiber f t
    . rw [hcurrent, hcur]
    . rw [hthread, hthr]
    . rw [hmain, hmn]
    . exact hkeep t _ not_rests_thread ht
    . exact hkeep f _ not_rests_running hf
    . intro g c hne hne' hg
      exact hrests hg (hrest g c hne hne')
  | root r t hcur hthr cb cb' ht hr hrest =>
    apply Shape.root r t
    . rw [hcurrent, hcur]
    . rw [hthread, hthr]
    . exact hkeep t _ not_rests_thread ht
    . exact hkeep r _ not_rests_running hr
    . intro g c hne hne' hg
      exact hrests hg (hrest g c hne hne')
  | task f r t hcur hthr hmn cb cb' cb'' ht hr hf hrest =>
    apply Shape.task f r t
    . rw [hcurrent, hcur]
    . rw [hthread, hthr]
    . rw [hmain, hmn]
    . exact hkeep t _ not_rests_thread ht
    . exact hkeep r _ not_rests_waiting hr
    . exact hkeep f _ not_rests_running hf
    . intro g c hne hne' hne'' hg
      exact hrests hg (hrest g c hne hne' hne'')

theorem Shape.rests_of_status (h : a.Shape) (hf : a.fibers f = some c) (hrun : c.status ≠ .running)
    (hwait : ∀ point, c.status ≠ .waiting point) : c.Rests := by
  have heq : ∀ {g d}, a.fibers g = some d → f = g → c = d := by
    intro g d hg hfg
    rw [hfg, hg] at hf
    injection hf with hf
    exact hf.symm
  cases h with
  | none _ _ hrest => exact hrest f c hf
  | thread t _ _ cb ht hrest =>
    apply hrest f c _ hf
    intro hft
    exact hrun (by rw [heq ht hft])
  | fiber g t _ _ _ cb cb' ht hg hrest =>
    apply hrest f c _ _ hf
    . intro hft
      exact hwait .swapIn (by rw [heq ht hft])
    . intro hfg
      exact hrun (by rw [heq hg hfg])
  | root r t _ _ cb cb' ht hr hrest =>
    apply hrest f c _ _ hf
    . intro hft
      exact hwait .call (by rw [heq ht hft])
    . intro hfr
      exact hrun (by rw [heq hr hfr])
  | task g r t _ _ _ cb cb' cb'' ht hr hg hrest =>
    apply hrest f c _ _ _ hf
    . intro hft
      exact hwait .call (by rw [heq ht hft])
    . intro hfr
      exact hwait .swapIn (by rw [heq hr hfr])
    . intro hfg
      exact hrun (by rw [heq hg hfg])

theorem Shape.thread_of_entry (h : a.Shape) (hf : a.fibers f = some c) (hentry : c.entry = .thread)
    : a.thread = some f := by
  have hnot : ¬ c.Rests := fun hrests => hrests.1 hentry
  have hother : ∀ {g d}, a.fibers g = some d → d.entry ≠ .thread → f ≠ g := by
    intro g d hg hd
    apply ne_of_fibers hf hg
    intro heq
    exact hd (heq ▸ hentry)
  cases h with
  | none _ _ hrest => exact absurd (hrest f c hf) hnot
  | thread t _ hthr cb ht hrest =>
    by_cases hft : f = t
    . rw [hthr, hft]
    . exact absurd (hrest f c hft hf) hnot
  | fiber g t _ hthr _ cb cb' ht hg hrest =>
    by_cases hft : f = t
    . rw [hthr, hft]
    . exact absurd (hrest f c hft (hother hg nofun) hf) hnot
  | root r t _ hthr cb cb' ht hr hrest =>
    by_cases hft : f = t
    . rw [hthr, hft]
    . exact absurd (hrest f c hft (hother hr nofun) hf) hnot
  | task g r t _ hthr _ cb cb' cb'' ht hr hg hrest =>
    by_cases hft : f = t
    . rw [hthr, hft]
    . exact absurd (hrest f c hft (hother hr nofun) (hother hg nofun) hf) hnot

theorem Shape.current_running (h : a.Shape) (hcurrent : a.current = some f)
    : ∃ c, a.fibers f = some c ∧ c.status = .running := by
  cases h with
  | none hcur => rw [hcur] at hcurrent; cases hcurrent
  | thread t hcur hthr cb ht hrest =>
    rw [hcur, Option.some.injEq] at hcurrent
    exact ⟨_, hcurrent ▸ ht, rfl⟩
  | fiber g t hcur hthr hmn cb cb' ht hg hrest =>
    rw [hcur, Option.some.injEq] at hcurrent
    exact ⟨_, hcurrent ▸ hg, rfl⟩
  | root r t hcur hthr cb cb' ht hr hrest =>
    rw [hcur, Option.some.injEq] at hcurrent
    exact ⟨_, hcurrent ▸ hr, rfl⟩
  | task g r t hcur hthr hmn cb cb' cb'' ht hr hg hrest =>
    rw [hcur, Option.some.injEq] at hcurrent
    exact ⟨_, hcurrent ▸ hg, rfl⟩

theorem Shape.rests_of_unused (h : a.Shape) (hf : a.fibers f = some c) (hunused : c.Unused)
    : c.Rests := by
  apply h.rests_of_status hf
  . rcases hunused with hfresh | ⟨returned, hdone⟩
    . rw [hfresh]
      exact nofun
    . rw [hdone]
      exact nofun
  . rcases hunused with hfresh | ⟨returned, hdone⟩
    . rw [hfresh]
      exact nofun
    . rw [hdone]
      exact nofun

end Rests

section Inv

variable {a a' : Coroutines} {f m : Nat} {c d : Coroutine}

theorem inv_new : Inv new where
  absent _ _ := rfl
  shape := .none rfl rfl nofun

theorem Inv.lt (h : Inv a) (hf : a.fibers f = some c) : f < a.count := by
  apply Nat.lt_of_not_le
  intro hle
  rw [h.absent f hle] at hf
  cases hf

theorem Inv.switch (h : Inv a) (hf : a.fibers f = some c) (hm : a.fibers m = some d)
    {c' : Coroutine} (hshape : (a.switch f c' m d).Shape) : Inv (a.switch f c' m d) where
  absent g hg := by
    have hgf : g ≠ f := Nat.ne_of_gt (Nat.lt_of_lt_of_le (h.lt hf) hg)
    have hgm : g ≠ m := Nat.ne_of_gt (Nat.lt_of_lt_of_le (h.lt hm) hg)
    rw [switch_other hgf hgm]
    exact h.absent g hg
  shape := hshape

theorem Inv.set (h : Inv a) (hf : a.fibers f = some c) (hrests : c.Rests) {c' : Coroutine}
    (hrests' : c'.Rests) : Inv (a.set f c') where
  absent g hg := by
    have hgf : g ≠ f := Nat.ne_of_gt (Nat.lt_of_lt_of_le (h.lt hf) hg)
    change Function.update a.fibers f (some c') g = none
    rw [Function.update_of_ne hgf]
    exact h.absent g hg
  shape := by
    apply h.shape.of_rest
    . rfl
    . rfl
    . rfl
    . intro g d hnot hg
      have hgf : g ≠ f := ne_of_fibers hg hf fun heq => hnot (heq ▸ hrests)
      change Function.update a.fibers f (some c') g = some d
      rw [Function.update_of_ne hgf]
      exact hg
    . intro g d hg
      change Function.update a.fibers f (some c') g = some d at hg
      by_cases hgf : g = f
      . rw [hgf, Function.update_self] at hg
        injection hg with hg
        rw [← hg]
        exact .inl hrests'
      . rw [Function.update_of_ne hgf] at hg
        exact .inr hg

theorem Inv.add (h : Inv a) (hrests : c.Rests) : Inv (a.add c) where
  absent g hg := by
    change a.count + 1 ≤ g at hg
    change Function.update a.fibers a.count (some c) g = none
    rw [Function.update_of_ne (by omega)]
    exact h.absent g (by omega)
  shape := by
    have hnone := h.absent a.count (Nat.le_refl _)
    apply h.shape.of_rest
    . rfl
    . rfl
    . rfl
    . intro g d _ hg
      change Function.update a.fibers a.count (some c) g = some d
      rw [Function.update_of_ne (Nat.ne_of_lt (h.lt hg))]
      exact hg
    . intro g d hg
      change Function.update a.fibers a.count (some c) g = some d at hg
      by_cases hgc : g = a.count
      . rw [hgc, Function.update_self] at hg
        injection hg with hg
        rw [← hg]
        exact .inl hrests
      . rw [Function.update_of_ne hgc] at hg
        exact .inr hg

theorem Inv.delete (h : Inv a) (hf : a.fibers f = some c) (hrests : c.Rests)
    : Inv { a with fibers := Function.update a.fibers f none } where
  absent g hg := by
    change Function.update a.fibers f none g = none
    by_cases hgf : g = f
    . rw [hgf, Function.update_self]
    . rw [Function.update_of_ne hgf]
      exact h.absent g hg
  shape := by
    apply h.shape.of_rest
    . rfl
    . rfl
    . rfl
    . intro g d hnot hg
      have hgf : g ≠ f := ne_of_fibers hg hf fun heq => hnot (heq ▸ hrests)
      change Function.update a.fibers f none g = some d
      rw [Function.update_of_ne hgf]
      exact hg
    . intro g d hg
      change Function.update a.fibers f none g = some d at hg
      by_cases hgf : g = f
      . rw [hgf, Function.update_self] at hg
        cases hg
      . rw [Function.update_of_ne hgf] at hg
        exact .inr hg

theorem rests_fresh {entry : Entry} (hentry : entry ≠ .thread) (cb : Bool)
    : (⟨entry, cb, .fresh⟩ : Coroutine).Rests :=
  ⟨hentry, nofun, nofun, nofun⟩

theorem yielded_of_yields {l : Call} {m_state : FiberState} (h : yields l = some m_state)
    : Coroutine.Yielded m_state := by
  cases l with
  | swapOut => injection h with h; exact .inl h.symm
  | YieldToReady => injection h with h; exact .inr (.inl h.symm)
  | YieldToHold => injection h with h; exact .inr (.inr h.symm)
  | _ => cases h

theorem rests_suspended (h : c.entry ≠ .thread) {m_state : FiberState} (hstate : Coroutine.Yielded m_state)
    : ({ c with status := .suspended m_state } : Coroutine).Rests :=
  ⟨h, nofun, nofun, fun _ heq => Coroutine.Status.suspended.inj heq ▸ hstate⟩

theorem rests_done {entry : Entry} (hentry : entry ≠ .thread) (cb returned : Bool)
    : (⟨entry, cb, .done returned⟩ : Coroutine).Rests :=
  ⟨hentry, nofun, nofun, nofun⟩

theorem Resumable.not_active (h : d.Resumable) : d.status ≠ .running ∧ ∀ p, d.status ≠ .waiting p := by
  rcases h with hfresh | ⟨m_state, -, hsusp⟩
  . rw [hfresh]
    exact ⟨nofun, nofun⟩
  . rw [hsusp]
    exact ⟨nofun, nofun⟩

theorem rests_of_switch {g : Nat} {c' e : Coroutine} (hgf : g ≠ f) (hgm : g ≠ m)
    (hg : (a.switch f c' m d).fibers g = some e) (hrest : a.fibers g = some e → e.Rests) : e.Rests := by
  rw [switch_other hgf hgm] at hg
  exact hrest hg

theorem Inv.swapIn (h : Inv a) (hcurrent : a.current = some m) (hmain : a.main = some m)
    (hm : a.fibers m = some c) (hf : a.fibers f = some d) (hentry : d.entry = .MainFunc)
    (hready : d.Resumable) : Inv (a.switch m { c with status := .waiting .swapIn } f d) := by
  obtain ⟨entry, cb', status⟩ := d
  change entry = .MainFunc at hentry
  subst hentry
  have hactive := Resumable.not_active hready
  apply h.switch hm hf
  have hrun : c.status = .running → m ≠ f := by
    intro hc
    apply ne_of_fibers hm hf
    intro heq
    rw [heq] at hc
    exact hactive.1 hc
  cases h.shape with
  | none hcur => rw [hcur] at hcurrent; cases hcurrent
  | thread t hcur hthr cb ht hrest =>
    rw [hcur, Option.some.injEq] at hcurrent
    subst hcurrent
    rw [ht, Option.some.injEq] at hm
    subst hm
    have hne := hrun rfl
    apply Shape.fiber f t
    . rfl
    . exact hthr
    . exact hmain
    . exact switch_source hne
    . exact switch_target
    . intro g e hgt hgf hg
      exact rests_of_switch hgt hgf hg (hrest g e hgt)
  | fiber g t hcur hthr hmn cb cb' ht hg hrest =>
    rw [hcur, Option.some.injEq] at hcurrent
    rw [hmn, Option.some.injEq] at hmain
    rw [hcurrent, ← hmain, ht] at hg
    cases hg
  | root r t hcur hthr cb cb' ht hr hrest =>
    rw [hcur, Option.some.injEq] at hcurrent
    subst hcurrent
    rw [hr, Option.some.injEq] at hm
    subst hm
    have hne := hrun rfl
    have htr : t ≠ r := ne_of_fibers ht hr nofun
    have htf : t ≠ f := ne_of_fibers ht hf fun heq => by cases heq
    apply Shape.task f r t
    . rfl
    . exact hthr
    . exact hmain
    . rw [switch_other htr htf]
      exact ht
    . exact switch_source hne
    . exact switch_target
    . intro g e hgt hgr hgf hg
      exact rests_of_switch hgr hgf hg (hrest g e hgt hgr)
  | task g r t hcur hthr hmn cb cb' cb'' ht hr hg hrest =>
    rw [hcur, Option.some.injEq] at hcurrent
    rw [hmn, Option.some.injEq] at hmain
    rw [hcurrent, ← hmain, hr] at hg
    cases hg

theorem Inv.call (h : Inv a) (hcurrent : a.current = some m) (hthread : a.thread = some m)
    (hm : a.fibers m = some c) (hf : a.fibers f = some d) (hentry : d.entry = .CallerMainFunc)
    (hfresh : d.status = .fresh) : Inv (a.switch m { c with status := .waiting .call } f d) := by
  obtain ⟨entry, cb', status⟩ := d
  change entry = .CallerMainFunc at hentry
  change status = .fresh at hfresh
  subst hentry hfresh
  apply h.switch hm hf
  cases h.shape with
  | none hcur => rw [hcur] at hcurrent; cases hcurrent
  | thread t hcur hthr cb ht hrest =>
    rw [hcur, Option.some.injEq] at hcurrent
    subst hcurrent
    rw [ht, Option.some.injEq] at hm
    subst hm
    apply Shape.root f t
    . rfl
    . exact hthr
    . exact switch_source (ne_of_fibers ht hf nofun)
    . exact switch_target
    . intro g e hgt hgf hg
      exact rests_of_switch hgt hgf hg (hrest g e hgt)
  | fiber g t hcur hthr hmn cb cb' ht hg hrest =>
    rw [hcur, Option.some.injEq] at hcurrent
    rw [hthr, Option.some.injEq] at hthread
    rw [hcurrent, ← hthread, ht] at hg
    cases hg
  | root r t hcur hthr cb cb' ht hr hrest =>
    rw [hcur, Option.some.injEq] at hcurrent
    rw [hthr, Option.some.injEq] at hthread
    rw [hcurrent, ← hthread, ht] at hr
    cases hr
  | task g r t hcur hthr hmn cb cb' cb'' ht hr hg hrest =>
    rw [hcur, Option.some.injEq] at hcurrent
    rw [hthr, Option.some.injEq] at hthread
    rw [hcurrent, ← hthread, ht] at hg
    cases hg

theorem Inv.main_waits (h : Inv a) (hcurrent : a.current = some f) (hf : a.fibers f = some c)
    (hentry : c.entry = .MainFunc) (hmain : a.main = some m) (hm : a.fibers m = some d)
    : c.status = .running ∧ d.status = .waiting .swapIn ∧ m ≠ f := by
  cases h.shape with
  | none hcur => rw [hcur] at hcurrent; cases hcurrent
  | thread t hcur hthr cb ht hrest =>
    rw [hcur, Option.some.injEq] at hcurrent
    rw [hcurrent, hf, Option.some.injEq] at ht
    rw [ht] at hentry
    cases hentry
  | fiber g t hcur hthr hmn cb cb' ht hg hrest =>
    rw [hcur, Option.some.injEq] at hcurrent
    rw [hmn, Option.some.injEq] at hmain
    have hne := ne_of_fibers ht hg nofun
    rw [hcurrent, hf, Option.some.injEq] at hg
    rw [hmain, hm, Option.some.injEq] at ht
    rw [hmain, hcurrent] at hne
    rw [hg, ht]
    exact ⟨rfl, rfl, hne⟩
  | root r t hcur hthr cb cb' ht hr hrest =>
    rw [hcur, Option.some.injEq] at hcurrent
    rw [hcurrent, hf, Option.some.injEq] at hr
    rw [hr] at hentry
    cases hentry
  | task g r t hcur hthr hmn cb cb' cb'' ht hr hg hrest =>
    rw [hcur, Option.some.injEq] at hcurrent
    rw [hmn, Option.some.injEq] at hmain
    have hne := ne_of_fibers hr hg nofun
    rw [hcurrent, hf, Option.some.injEq] at hg
    rw [hmain, hm, Option.some.injEq] at hr
    rw [hmain, hcurrent] at hne
    rw [hg, hr]
    exact ⟨rfl, rfl, hne⟩

theorem Inv.giveBack (h : Inv a) (hcurrent : a.current = some f) (hf : a.fibers f = some c)
    (hentry : c.entry = .MainFunc) (hmain : a.main = some m) (hm : a.fibers m = some d)
    {c' : Coroutine} (hrests : c'.Rests) : Inv (a.switch f c' m d) := by
  apply h.switch hf hm
  have hne := (h.main_waits hcurrent hf hentry hmain hm).2.2
  cases h.shape with
  | none hcur => rw [hcur] at hcurrent; cases hcurrent
  | thread t hcur hthr cb ht hrest =>
    rw [hcur, Option.some.injEq] at hcurrent
    rw [hcurrent, hf, Option.some.injEq] at ht
    rw [ht] at hentry
    cases hentry
  | fiber g t hcur hthr hmn cb cb' ht hg hrest =>
    rw [hcur, Option.some.injEq] at hcurrent
    rw [hmn, Option.some.injEq] at hmain
    subst hcurrent hmain
    rw [ht, Option.some.injEq] at hm
    subst hm
    apply Shape.thread t
    . rfl
    . exact hthr
    . exact switch_target
    . intro k e hkt hk
      by_cases hkg : k = g
      . rw [hkg, switch_source hne.symm] at hk
        injection hk with hk
        rw [← hk]
        exact hrests
      . exact rests_of_switch hkg hkt hk (hrest k e hkt hkg)
  | root r t hcur hthr cb cb' ht hr hrest =>
    rw [hcur, Option.some.injEq] at hcurrent
    rw [hcurrent, hf, Option.some.injEq] at hr
    rw [hr] at hentry
    cases hentry
  | task g r t hcur hthr hmn cb cb' cb'' ht hr hg hrest =>
    rw [hcur, Option.some.injEq] at hcurrent
    rw [hmn, Option.some.injEq] at hmain
    subst hcurrent hmain
    have htr : t ≠ r := ne_of_fibers ht hr nofun
    have htg : t ≠ g := ne_of_fibers ht hg nofun
    rw [hr, Option.some.injEq] at hm
    subst hm
    apply Shape.root r t
    . rfl
    . exact hthr
    . rw [switch_other htg htr]
      exact ht
    . exact switch_target
    . intro k e hkt hkr hk
      by_cases hkg : k = g
      . rw [hkg, switch_source hne.symm] at hk
        injection hk with hk
        rw [← hk]
        exact hrests
      . exact rests_of_switch hkg hkr hk (hrest k e hkt hkr hkg)

theorem Inv.thread_waits (h : Inv a) (hcurrent : a.current = some f) (hf : a.fibers f = some c)
    (hentry : c.entry = .CallerMainFunc) (hthread : a.thread = some m) (hm : a.fibers m = some d)
    : c.status = .running ∧ d.status = .waiting .call ∧ m ≠ f
      ∧ ∀ c' : Coroutine, c'.Rests → Inv (a.switch f c' m d) := by
  have hswitch : ∀ c' : Coroutine, (a.switch f c' m d).Shape → Inv (a.switch f c' m d) :=
    fun _ => h.switch hf hm
  cases h.shape with
  | none hcur => rw [hcur] at hcurrent; cases hcurrent
  | thread t hcur hthr cb ht hrest =>
    rw [hcur, Option.some.injEq] at hcurrent
    rw [hcurrent, hf, Option.some.injEq] at ht
    rw [ht] at hentry
    cases hentry
  | fiber g t hcur hthr hmn cb cb' ht hg hrest =>
    rw [hcur, Option.some.injEq] at hcurrent
    rw [hcurrent, hf, Option.some.injEq] at hg
    rw [hg] at hentry
    cases hentry
  | root r t hcur hthr cb cb' ht hr hrest =>
    have hne := ne_of_fibers ht hr nofun
    rw [hcur, Option.some.injEq] at hcurrent
    rw [hthr, Option.some.injEq] at hthread
    subst hcurrent hthread
    rw [ht, Option.some.injEq] at hm
    rw [hr, Option.some.injEq] at hf
    subst hm hf
    refine ⟨rfl, rfl, hne, ?_⟩
    intro c' hrests
    apply hswitch c'
    apply Shape.thread t
    . rfl
    . exact hthr
    . exact switch_target
    . intro k e hkt hk
      by_cases hkr : k = r
      . rw [hkr, switch_source hne.symm] at hk
        injection hk with hk
        rw [← hk]
        exact hrests
      . exact rests_of_switch hkr hkt hk (hrest k e hkt hkr)
  | task g r t hcur hthr hmn cb cb' cb'' ht hr hg hrest =>
    rw [hcur, Option.some.injEq] at hcurrent
    rw [hcurrent, hf, Option.some.injEq] at hg
    rw [hg] at hentry
    cases hentry

theorem Inv.start (h : Inv a) (hcurrent : a.current = none)
    : Inv { a.add ⟨.thread, false, .running⟩ with
        current := some a.count, thread := some a.count } where
  absent g hg := by
    change a.count + 1 ≤ g at hg
    change Function.update a.fibers a.count _ g = none
    rw [Function.update_of_ne (by omega)]
    exact h.absent g (by omega)
  shape := by
    apply Shape.thread a.count
    . rfl
    . rfl
    . exact Function.update_self a.count _ _
    . intro g c hne hg
      change Function.update a.fibers a.count _ g = some c at hg
      rw [Function.update_of_ne hne] at hg
      cases h.shape with
      | none _ _ hrest => exact hrest g c hg
      | thread _ hcur => rw [hcur] at hcurrent; cases hcurrent
      | fiber _ _ hcur => rw [hcur] at hcurrent; cases hcurrent
      | root _ _ hcur => rw [hcur] at hcurrent; cases hcurrent
      | task _ _ _ hcur => rw [hcur] at hcurrent; cases hcurrent

theorem Inv.setMainFiber (h : Inv a) (hcurrent : a.current = a.thread)
    : Inv { a with main := some f } where
  absent := h.absent
  shape := by
    have hsame : ∀ {g t cb e}, a.current = some g → a.thread = some t
        → a.fibers t = some ⟨.thread, cb, .waiting .swapIn⟩ ∨ a.fibers t = some ⟨.thread, cb, .waiting .call⟩
        → a.fibers g = some e → e.status = .running → False := by
      intro g t cb e hcur hthr ht hg hrun
      rw [hcur, hthr, Option.some.injEq] at hcurrent
      rw [hcurrent] at hg
      rcases ht with ht | ht
      . rw [hg, Option.some.injEq] at ht
        rw [ht] at hrun
        cases hrun
      . rw [hg, Option.some.injEq] at ht
        rw [ht] at hrun
        cases hrun
    cases h.shape with
    | none hcur hthr hrest => exact .none hcur hthr hrest
    | thread t hcur hthr cb ht hrest => exact .thread t hcur hthr cb ht hrest
    | fiber g t hcur hthr hmn cb cb' ht hg hrest => exact (hsame hcur hthr (.inl ht) hg rfl).elim
    | root r t hcur hthr cb cb' ht hr hrest => exact (hsame hcur hthr (.inr ht) hr rfl).elim
    | task g r t hcur hthr hmn cb cb' cb'' ht hr hg hrest =>
      exact (hsame hcur hthr (.inr ht) hg rfl).elim

theorem Inv.step {l : Call × Option Context} (h : Inv a) (hstep : Step a l a') : Inv a' := by
  cases hstep with
  | start hcurrent => exact h.start hcurrent
  | getThis hcurrent => exact h
  | create cb use_caller =>
    apply h.add
    apply rests_fresh
    cases use_caller <;> decide
  | delete hf hunused => exact h.delete hf (h.shape.rests_of_unused hf hunused)
  | reset cb hf hunused =>
    exact h.set hf (h.shape.rests_of_unused hf hunused) (rests_fresh (by decide) cb)
  | setState m_state hf hold hstate =>
    have hrests := h.shape.rests_of_status hf (by rw [hold]; exact nofun) (by rw [hold]; exact nofun)
    exact h.set hf hrests (rests_suspended hrests.1 hstate)
  | setMainFiber f hcurrent => exact h.setMainFiber hcurrent
  | swapIn hcurrent hmain hm hf hentry hready =>
    exact h.swapIn hcurrent hmain hm hf hentry hready
  | call hcurrent hthread hm hf hentry hfresh => exact h.call hcurrent hthread hm hf hentry hfresh
  | yield hl hcurrent hf hentry hmain hm =>
    apply h.giveBack hcurrent hf hentry hmain hm
    exact rests_suspended (by rw [hentry]; decide) (yielded_of_yields hl)
  | finish returns hcurrent hf hentry hmain hm =>
    exact h.giveBack hcurrent hf hentry hmain hm (rests_done (by rw [hentry]; decide) _ _)
  | finishCaller returns hcurrent hf hentry hthread hm =>
    exact (h.thread_waits hcurrent hf hentry hthread hm).2.2.2 _ (rests_done (by rw [hentry]; decide) _ _)

end Inv

end Coroutines

end CXS
