import CXS.Scheduler.Basic

/-!
This module contains when workers exclude each other. The dequeue leaves a fiber in the state `EXEC`
on the queue, so that a worker that runs it has it alone. What this does not cover are the windows in
which a worker is busy with a fiber in another state: from the dequeue to the store of `EXEC`, and
from the store of the next state to the moment that the context is saved. In runs in which no step
falls into these windows, fibers run on one worker at a time and are resumed with their saved context.
-/

namespace CXS
namespace Scheduler

variable {C : Type} {s s' : Scheduler C}

-- from the dequeue, or the reuse of the `cb_fiber`, to the store of `EXEC`
def Pc.opened : Pc C → Option Nat
  | .taken ft => ft.fiber
  | .swapIn f _ | .exec f _ => some f
  | _ => none

-- from the store of the next state to the moment that the context is saved
def Pc.leaving : Pc C → Option Nat
  | .swapOut f _ => some f
  | _ => none

def Pc.entering : Pc C → Option Nat
  | .swapIn f _ | .exec f _ => some f
  | _ => none

def Pc.resumed : Pc C → Option Nat
  | .switch f _ | .running f _ => some f
  | _ => none

def Pc.held : Pc C → Option Nat
  | .swapIn f _ | .exec f _ | .switch f _ | .running f _ | .swapOut f _ => some f
  | _ => none

def Pc.executed : Pc C → Option Nat
  | .running f _ | .swapOut f _ => some f
  | _ => none

def Pc.fiber : Pc C → Option Nat
  | .taken ft => ft.fiber
  | .swapIn f _ | .exec f _ | .switch f _ | .running f _ | .swapOut f _ => some f
  | .returned f _ | .settle f _ | .requeue f _ | .settled f _ | .hold f _ | .reset f => some f
  | .loop | .idle | .exited => none

def executed (s : Scheduler C) (w : Nat) : Option Nat :=
  (s.workers w).pc.executed

-- a worker that dequeues such a fiber skips it
def Ended (s : Scheduler C) (f : Nat) : Prop :=
  s.getState f = .TERM ∨ s.getState f = .EXECEP

instance {f : Nat} : Decidable (s.Ended f) :=
  inferInstanceAs (Decidable (_ ∨ _))

-- the fiber that the next step of the worker `w` takes up
def takesUp (s : Scheduler C) (w : Nat) : Option Nat :=
  match (s.workers w).pc with
  | .loop =>
    match s.m_fibers.findIdx? (s.eligible w) with
    | none => none
    | some it => (s.m_fibers[it]?.bind FiberAndThread.fiber).filter fun f => ¬ s.Ended f
  | .taken ft =>
    match ft.fiber.filter (fun f => s.getState f ≠ .TERM ∧ s.getState f ≠ .EXECEP), ft.cb with
    | none, some _ => (s.workers w).cb_fiber
    | _, _ => none
  | _ => none

def overwrites (s : Scheduler C) (w : Nat) : Option Nat :=
  match (s.workers w).pc with
  | .hold f _ | .reset f => some f
  | _ => none

/--
The step does not fall into a window of another worker: it takes up no fiber that another worker is
about to resume or still to save, it does not put `HOLD` in the place of the `EXEC` of another worker,
and it does not take back the end of a fiber that another worker has dequeued to skip it.
-/
structure OutsideWindows (s : Scheduler C) (l : Action C × Unit) : Prop where
  opened : ∀ w f, l.1 = .work w → s.takesUp w = some f
    → ∀ v, v ≠ w → (s.workers v).pc.opened ≠ some f
  leaving : ∀ w f, l.1 = .work w → s.takesUp w = some f
    → ∀ v, v ≠ w → (s.workers v).pc.leaving ≠ some f
  resumed : ∀ w f cb, l.1 = .work w → (s.workers w).pc = .hold f cb
    → ∀ v, v ≠ w → (s.workers v).pc.resumed ≠ some f
  ended : ∀ w f, l.1 = .work w → s.overwrites w = some f → s.Ended f
    → ∀ v ft, (s.workers v).pc = .taken ft → ft.fiber ≠ some f

-- a worker that has dequeued a fiber to skip it does not hold it
def Holds (s : Scheduler C) (w f : Nat) : Prop :=
  (s.workers w).pc.held = some f
    ∨ ∃ ft, (s.workers w).pc = .taken ft ∧ ft.fiber = some f ∧ ¬ s.Ended f

structure Inv (s : Scheduler C) : Prop where
  alone : ∀ v w f, s.Holds v f → s.Holds w f → v = w
  exec : ∀ w f, (s.workers w).pc.resumed = some f → s.getState f = .EXEC
  entering : ∀ w f, (s.workers w).pc.entering = some f → ¬ s.Ended f
  saved : ∀ f, (∀ w, s.executed w ≠ some f) → (s.fibers f).saved = true
  pc_lt : ∀ w f, (s.workers w).pc.fiber = some f → f < s.fiberCount
  cb_lt : ∀ w f, (s.workers w).cb_fiber = some f → f < s.fiberCount
  queue_lt : ∀ ft ∈ s.m_fibers, ∀ f, ft.fiber = some f → f < s.fiberCount
  waiting_lt : ∀ f ∈ s.waiting, f < s.fiberCount

theorem not_holds_loop {w f : Nat} (h : (s.workers w).pc = .loop) : ¬ s.Holds w f := by
  rintro (hheld | ⟨ft, hpc, -⟩)
  . rw [h] at hheld
    cases hheld
  . rw [h] at hpc
    cases hpc

theorem inv_new : (new : Scheduler C).Inv where
  alone := fun _ _ _ hv => absurd hv (not_holds_loop rfl)
  exec := by
    intro w f h
    cases h
  entering := by
    intro w f h
    cases h
  saved := by
    intro f _
    rfl
  pc_lt := by
    intro w f h
    cases h
  cb_lt := by
    intro w f h
    cases h
  queue_lt := by
    intro ft h
    cases h
  waiting_lt := by
    intro f h
    cases h

theorem Pc.fiber_of_held {pc : Pc C} {f : Nat} (h : pc.held = some f) : pc.fiber = some f := by
  cases pc with
  | swapIn f cb => apply h
  | exec f cb => apply h
  | switch f cb => apply h
  | running f cb => apply h
  | swapOut f cb => apply h
  | _ => cases h

theorem Pc.held_of_executed {pc : Pc C} {f : Nat} (h : pc.executed = some f)
    : pc.held = some f := by
  cases pc with
  | running f cb => apply h
  | swapOut f cb => apply h
  | _ => cases h

theorem Pc.held_of_entering {pc : Pc C} {f : Nat} (h : pc.entering = some f)
    : pc.held = some f := by
  cases pc with
  | swapIn f cb => apply h
  | exec f cb => apply h
  | _ => cases h

theorem Pc.held_of_resumed {pc : Pc C} {f : Nat} (h : pc.resumed = some f) : pc.held = some f := by
  cases pc with
  | switch f cb => apply h
  | running f cb => apply h
  | _ => cases h

theorem Holds.window {v f : Nat} (h : s.Holds v f)
    : (s.workers v).pc.opened = some f ∨ (s.workers v).pc.resumed = some f
      ∨ (s.workers v).pc.leaving = some f := by
  rcases h with hheld | ⟨ft, hpc, hft, -⟩
  . cases hpc : (s.workers v).pc with
    | swapIn g cb =>
      rw [hpc] at hheld
      exact .inl hheld
    | exec g cb =>
      rw [hpc] at hheld
      exact .inl hheld
    | switch g cb =>
      rw [hpc] at hheld
      exact .inr (.inl hheld)
    | running g cb =>
      rw [hpc] at hheld
      exact .inr (.inl hheld)
    | swapOut g cb =>
      rw [hpc] at hheld
      exact .inr (.inr hheld)
    | _ =>
      rw [hpc] at hheld
      cases hheld
  . rw [hpc]
    exact .inl hft

theorem Holds.fiber {v f : Nat} (h : s.Holds v f) : (s.workers v).pc.fiber = some f := by
  rcases h with hheld | ⟨ft, hpc, hft, -⟩
  . exact Pc.fiber_of_held hheld
  . rw [hpc]
    exact hft

-- what a step of the worker `w` leaves to the other workers
structure Others (s s' : Scheduler C) (w : Nat) : Prop where
  taken : ∀ v ft f, v ≠ w → (s.workers v).pc = .taken ft → ft.fiber = some f
    → s.Ended f → s'.Ended f
  exec : ∀ v f, v ≠ w → (s.workers v).pc.resumed = some f → s'.getState f = .EXEC
  entering : ∀ v f, v ≠ w → (s.workers v).pc.entering = some f → ¬ s'.Ended f

theorem Inv.others_of_same (h : s.Inv) (w : Nat) (hstate : ∀ f, s'.getState f = s.getState f)
    : Others s s' w := by
  constructor
  . intro v ft f _ _ _ hend
    unfold Ended
    rw [hstate]
    exact hend
  . intro v f _ hresumed
    rw [hstate]
    exact h.exec v f hresumed
  . intro v f _ hentering
    unfold Ended
    rw [hstate]
    exact h.entering v f hentering

theorem Inv.others_of_store (h : s.Inv) {w g : Nat} {state : FiberState}
    (hself : s'.getState g = state) (hstate : ∀ f, f ≠ g → s'.getState f = s.getState f)
    (hresumed : ∀ v, v ≠ w → (s.workers v).pc.resumed ≠ some g)
    (hentering : state = .TERM ∨ state = .EXECEP
      → ∀ v, v ≠ w → (s.workers v).pc.entering ≠ some g)
    (hended : s.Ended g → ∀ v ft, v ≠ w → (s.workers v).pc = .taken ft → ft.fiber ≠ some g)
    : Others s s' w := by
  have hsame : ∀ f, f ≠ g → (s'.Ended f ↔ s.Ended f) := by
    intro f hf
    unfold Ended
    rw [hstate f hf]
  constructor
  . intro v ft f hv hpc hft hend
    by_cases hf : f = g
    . subst hf
      exact absurd hft (hended hend v ft hv hpc)
    . exact (hsame f hf).mpr hend
  . intro v f hv hpc
    have hf : f ≠ g := by
      intro heq
      exact hresumed v hv (heq ▸ hpc)
    rw [hstate f hf]
    exact h.exec v f hpc
  . intro v f hv hpc hend
    by_cases hf : f = g
    . subst hf
      unfold Ended at hend
      rw [hself] at hend
      exact hentering hend v hv hpc
    . exact h.entering v f hpc ((hsame f hf).mp hend)

theorem Inv.move (h : s.Inv) {w : Nat} {worker : Worker C}
    (hworkers : s'.workers = Function.update s.workers w worker)
    (hcount : s.fiberCount ≤ s'.fiberCount) (hothers : Others s s' w)
    (hheld : ∀ f, s'.Holds w f → ∀ v, v ≠ w → ¬ s.Holds v f)
    (hexec : ∀ f, worker.pc.resumed = some f → s'.getState f = .EXEC)
    (hentering : ∀ f, worker.pc.entering = some f → ¬ s'.Ended f)
    (hsaved : ∀ f, worker.pc.executed ≠ some f → (∀ v, v ≠ w → s.executed v ≠ some f)
      → (s'.fibers f).saved = true)
    (hpc : ∀ f, worker.pc.fiber = some f → f < s'.fiberCount)
    (hcb : ∀ f, worker.cb_fiber = some f → f < s'.fiberCount)
    (hqueue : ∀ ft ∈ s'.m_fibers, ∀ f, ft.fiber = some f → f < s'.fiberCount)
    (hwaiting : ∀ f ∈ s'.waiting, f < s'.fiberCount) : s'.Inv := by
  have hself : s'.workers w = worker := by
    rw [hworkers, Function.update_self]
  have hother : ∀ v, v ≠ w → s'.workers v = s.workers v := by
    intro v hv
    rw [hworkers, Function.update_of_ne hv]
  have hholds : ∀ v f, v ≠ w → s'.Holds v f → s.Holds v f := by
    intro v f hv hf
    unfold Holds at hf
    rw [hother v hv] at hf
    rcases hf with hf | ⟨ft, hpc, hft, hnot⟩
    . exact .inl hf
    . exact .inr ⟨ft, hpc, hft, fun hend => hnot (hothers.taken v ft f hv hpc hft hend)⟩
  constructor
  . intro u v f hu hv
    by_cases huw : u = w
    . by_cases hvw : v = w
      . rw [huw, hvw]
      . subst huw
        exact absurd (hholds v f hvw hv) (hheld f hu v hvw)
    . by_cases hvw : v = w
      . subst hvw
        exact absurd (hholds u f huw hu) (hheld f hv u huw)
      . exact h.alone u v f (hholds u f huw hu) (hholds v f hvw hv)
  . intro v f hv
    by_cases hvw : v = w
    . rw [hvw, hself] at hv
      exact hexec f hv
    . rw [hother v hvw] at hv
      exact hothers.exec v f hvw hv
  . intro v f hv
    by_cases hvw : v = w
    . rw [hvw, hself] at hv
      exact hentering f hv
    . rw [hother v hvw] at hv
      exact hothers.entering v f hvw hv
  . intro f hf
    apply hsaved f
    . have := hf w
      unfold executed at this
      rw [hself] at this
      apply this
    . intro v hv
      have := hf v
      unfold executed at this
      rw [hother v hv] at this
      apply this
  . intro v f hv
    by_cases hvw : v = w
    . rw [hvw, hself] at hv
      apply hpc f hv
    . rw [hother v hvw] at hv
      have := h.pc_lt v f hv
      omega
  . intro v f hv
    by_cases hvw : v = w
    . rw [hvw, hself] at hv
      apply hcb f hv
    . rw [hother v hvw] at hv
      have := h.cb_lt v f hv
      omega
  . apply hqueue
  . apply hwaiting

theorem getState_setState (s : Scheduler C) (f g : Nat) (state : FiberState)
    : (s.setState f state).getState g = if g = f then state else s.getState g := by
  by_cases h : g = f
  . simp [getState, setState, h]
  . simp [getState, setState, h]

theorem getState_setSaved (s : Scheduler C) (f g : Nat) (saved : Bool)
    : (s.setSaved f saved).getState g = s.getState g := by
  by_cases h : g = f
  . simp [getState, setSaved, h]
  . simp [getState, setSaved, h]

@[simp]
theorem setState_saved (f g : Nat) (state : FiberState)
    : ((s.setState f state).fibers g).saved = (s.fibers g).saved := by
  by_cases h : g = f
  . simp [setState, h]
  . simp [setState, h]

@[simp]
theorem setSaved_saved (f g : Nat) (saved : Bool)
    : ((s.setSaved f saved).fibers g).saved = if g = f then saved else (s.fibers g).saved := by
  by_cases h : g = f
  . simp [setSaved, h]
  . simp [setSaved, h]

theorem Inv.saved_of_others (h : s.Inv) {w f : Nat} (hw : s.executed w ≠ some f)
    (hothers : ∀ v, v ≠ w → s.executed v ≠ some f) : (s.fibers f).saved = true := by
  apply h.saved
  intro v hv
  by_cases hvw : v = w
  . rw [hvw] at hv
    exact hw hv
  . exact hothers v hvw hv

structure Pc.Advance (pc pc' : Pc C) : Prop where
  taken : ∀ ft, pc' ≠ .taken ft
  held : ∀ f, pc'.held = some f → pc.held = some f
  resumed : ∀ f, pc'.resumed = some f → pc.resumed = some f
  entering : ∀ f, pc'.entering = some f → pc.entering = some f
  executed : ∀ f, pc.executed = some f → pc'.executed = some f
  fiber : ∀ f, pc'.fiber = some f → pc.fiber = some f

structure Quiet (s s' : Scheduler C) (w : Nat) : Prop where
  count : s'.fiberCount = s.fiberCount
  saved : ∀ f, (s.fibers f).saved = true → (s'.fibers f).saved = true
  queue : ∀ ft ∈ s'.m_fibers, ft ∈ s.m_fibers ∨ ft.fiber = (s.workers w).pc.fiber
  waiting : s'.waiting = s.waiting

theorem Inv.advance (h : s.Inv) {w : Nat} {worker : Worker C}
    (hworkers : s'.workers = Function.update s.workers w worker)
    (hpc : Pc.Advance (s.workers w).pc worker.pc) (hquiet : Quiet s s' w) (hothers : Others s s' w)
    (hstate : ∀ f, worker.pc.resumed = some f ∨ worker.pc.entering = some f
      → s'.getState f = s.getState f)
    (hcb : ∀ f, worker.cb_fiber = some f → (s.workers w).cb_fiber = some f) : s'.Inv := by
  have hself : s'.workers w = worker := by
    rw [hworkers, Function.update_self]
  apply h.move hworkers (Nat.le_of_eq hquiet.count.symm) hothers
  . intro f hf v hv hcontra
    apply hv
    apply h.alone v w f hcontra
    unfold Holds at hf
    rw [hself] at hf
    rcases hf with hf | ⟨ft, htaken, -⟩
    . exact .inl (hpc.held f hf)
    . exact absurd htaken (hpc.taken ft)
  . intro f hf
    rw [hstate f (.inl hf)]
    exact h.exec w f (hpc.resumed f hf)
  . intro f hf
    unfold Ended
    rw [hstate f (.inr hf)]
    exact h.entering w f (hpc.entering f hf)
  . intro f hw hexecuted
    apply hquiet.saved
    apply h.saved_of_others _ hexecuted
    intro hf
    exact hw (hpc.executed f hf)
  . intro f hf
    rw [hquiet.count]
    apply h.pc_lt w f (hpc.fiber f hf)
  . intro f hf
    rw [hquiet.count]
    apply h.cb_lt w f (hcb f hf)
  . intro ft hft f hf
    rw [hquiet.count]
    rcases hquiet.queue ft hft with hft | heq
    . apply h.queue_lt ft hft f hf
    . apply h.pc_lt w f
      rw [← heq, hf]
  . rw [hquiet.waiting, hquiet.count]
    apply h.waiting_lt

theorem Quiet.refl (s : Scheduler C) (w : Nat) : Quiet s s w where
  count := rfl
  saved := fun _ hf => hf
  queue := fun _ hft => .inl hft
  waiting := rfl

theorem Quiet.setState (s : Scheduler C) (w f : Nat) (state : FiberState)
    : Quiet s (s.setState f state) w where
  count := rfl
  saved := by
    intro g hg
    rw [setState_saved]
    apply hg
  queue := fun _ hft => .inl hft
  waiting := rfl

theorem Quiet.leave (s : Scheduler C) (w : Nat) : Quiet s s.leave w where
  count := rfl
  saved := fun _ hf => hf
  queue := fun _ hft => .inl hft
  waiting := rfl

theorem Inv.goto (h : s.Inv) {t : Scheduler C} {w : Nat} {pc : Pc C}
    (hpc : Pc.Advance (s.workers w).pc pc) (hquiet : Quiet s t w)
    (hworkers : t.workers = s.workers) (hothers : Others s t w)
    (hstate : ∀ f, pc.resumed = some f ∨ pc.entering = some f → t.getState f = s.getState f)
    : (t.goto w pc).Inv := by
  apply h.advance
  . rw [← hworkers]
    rfl
  . apply hpc
  . exact ⟨hquiet.count, hquiet.saved, hquiet.queue, hquiet.waiting⟩
  . exact ⟨hothers.taken, hothers.exec, hothers.entering⟩
  . apply hstate
  . intro f hf
    simp only [hworkers] at hf
    apply hf

theorem Inv.goto_same (h : s.Inv) {t : Scheduler C} {w : Nat} {pc : Pc C}
    (hpc : Pc.Advance (s.workers w).pc pc) (hquiet : Quiet s t w)
    (hworkers : t.workers = s.workers) (hfibers : t.fibers = s.fibers) : (t.goto w pc).Inv := by
  have hstate : ∀ f, t.getState f = s.getState f := by
    intro f
    unfold getState
    rw [hfibers]
  exact h.goto hpc hquiet hworkers (h.others_of_same w hstate) (fun f _ => hstate f)

theorem held_of_holds_goto {w f : Nat} {pc : Pc C} (h : (s.goto w pc).Holds w f)
    (hpc : ∀ ft, pc ≠ .taken ft) : pc.held = some f := by
  have hself : ((s.goto w pc).workers w).pc = pc := by
    simp only [goto, Function.update_self]
  unfold Holds at h
  rw [hself] at h
  rcases h with h | ⟨ft, htaken, -⟩
  . exact h
  . exact absurd htaken (hpc ft)

theorem resetFiber_eq_ok {f : Nat} (h : s.resetFiber f = .ok s')
    : s' = (s.setSaved f true).setState f .INIT := by
  unfold resetFiber at h
  split at h
  . cases h
    rfl
  . cases h
    rfl
  . cases h
    rfl
  . cases h

theorem getState_of_eligible {w f : Nat} {ft : FiberAndThread C} (h : s.eligible w ft = true)
    (hft : ft.fiber = some f) : s.getState f ≠ .EXEC := by
  unfold eligible at h
  rw [hft] at h
  simp only [Option.any_some, Bool.and_eq_true, Bool.not_eq_true', decide_eq_false_iff_not] at h
  exact h.2

theorem not_holds_of_windows (h : s.Inv) {v f : Nat} (hexec : s.getState f ≠ .EXEC)
    (hopened : (s.workers v).pc.opened ≠ some f) (hleaving : (s.workers v).pc.leaving ≠ some f)
    : ¬ s.Holds v f := by
  intro hholds
  rcases hholds.window with hpc | hpc | hpc
  . exact hopened hpc
  . exact hexec (h.exec v f hpc)
  . exact hleaving hpc

theorem dequeue_inv (h : s.Inv) {w : Nat} (hpc : (s.workers w).pc = .loop)
    (hopened : ∀ f, s.takesUp w = some f → ∀ v, v ≠ w → (s.workers v).pc.opened ≠ some f)
    (hleaving : ∀ f, s.takesUp w = some f → ∀ v, v ≠ w → (s.workers v).pc.leaving ≠ some f)
    : (s.dequeue w).Inv := by
  unfold takesUp at hopened hleaving
  rw [hpc] at hopened hleaving
  unfold dequeue
  split
  . next it hit =>
    rw [hit] at hopened hleaving
    obtain ⟨hlt, heligible, -⟩ := List.findIdx?_eq_some_iff_getElem.mp hit
    split
    . next ft hft =>
      have hmem : ft ∈ s.m_fibers := List.mem_of_getElem? hft
      have hget := List.getElem_of_getElem? hft
      obtain ⟨_, hget⟩ := hget
      rw [hget] at heligible
      apply h.move
      . rfl
      . apply Nat.le_refl
      . exact h.others_of_same w (fun _ => rfl)
      . intro f hf v hv
        have hholds : ft.fiber = some f ∧ ¬ s.Ended f := by
          rcases hf with hf | ⟨ft', htaken, hfiber, hnot⟩
          . simp only [goto, Function.update_self] at hf
            cases hf
          . simp only [goto, Function.update_self] at htaken
            cases htaken
            exact ⟨hfiber, hnot⟩
        have htakes : (s.m_fibers[it]?.bind FiberAndThread.fiber).filter (fun f => ¬ s.Ended f)
            = some f := by
          rw [hft, Option.bind_some, Option.filter_eq_some_iff]
          exact ⟨hholds.1, decide_eq_true hholds.2⟩
        exact not_holds_of_windows h (getState_of_eligible heligible hholds.1)
          (hopened f htakes v hv) (hleaving f htakes v hv)
      . intro f hf
        cases hf
      . intro f hf
        cases hf
      . intro f _ hothers
        apply h.saved_of_others _ hothers
        unfold executed
        rw [hpc]
        nofun
      . apply h.queue_lt ft hmem
      . apply h.cb_lt w
      . intro ft' hft'
        apply h.queue_lt ft' (List.mem_of_mem_eraseIdx hft')
      . apply h.waiting_lt
    . apply h
  . apply h.goto_same _ (Quiet.refl s w) rfl rfl
    rw [hpc]
    split
    . exact ⟨nofun, nofun, nofun, nofun, nofun, nofun⟩
    . exact ⟨nofun, nofun, nofun, nofun, nofun, nofun⟩

theorem newFiber_workers (s : Scheduler C) (w : Nat)
    : ((s.newFiber.setCbFiber w (some s.fiberCount)).goto w (.swapIn s.fiberCount true)).workers
      = Function.update s.workers w
          ⟨.swapIn s.fiberCount true, some s.fiberCount, (s.workers w).idle_term⟩ := by

  simp [goto, setCbFiber, newFiber]

theorem reuse_inv (h : s.Inv) {w f : Nat} {ft : FiberAndThread C}
    (hpc : (s.workers w).pc = .taken ft) (hf : (s.workers w).cb_fiber = some f)
    (hopened : ∀ v, v ≠ w → (s.workers v).pc.opened ≠ some f)
    (hleaving : ∀ v, v ≠ w → (s.workers v).pc.leaving ≠ some f) {t : Scheduler C}
    (hreset : s.resetFiber f = .ok t) : (t.goto w (.swapIn f true)).Inv := by
  have hexec : s.getState f ≠ .EXEC := by
    intro hexec
    unfold resetFiber at hreset
    rw [hexec] at hreset
    cases hreset
  have hfree : ∀ v, v ≠ w → ¬ s.Holds v f := fun v hv =>
    not_holds_of_windows h hexec (hopened v hv) (hleaving v hv)
  cases resetFiber_eq_ok hreset
  have hself : ((s.setSaved f true).setState f .INIT).getState f = .INIT := by
    rw [getState_setState, if_pos rfl]
  have hstate : ∀ g, g ≠ f → ((s.setSaved f true).setState f .INIT).getState g = s.getState g := by
    intro g hg
    rw [getState_setState, if_neg hg, getState_setSaved]
  have hothers : Others s ((s.setSaved f true).setState f .INIT) w := by
    apply h.others_of_store hself hstate
    . intro v hv hresumed
      exact hexec (h.exec v f hresumed)
    . nofun
    . intro _ v ft' hv htaken hft'
      apply hopened v hv
      rw [htaken]
      exact hft'
  apply h.move
  . rfl
  . apply Nat.le_refl
  . exact ⟨hothers.taken, hothers.exec, hothers.entering⟩
  . intro g hg v hv
    cases held_of_holds_goto hg nofun
    exact hfree v hv
  . intro g hg
    cases hg
  . intro g hg hend
    cases hg
    change ((s.setSaved f true).setState f .INIT).Ended f at hend
    unfold Ended at hend
    rw [hself] at hend
    rcases hend with hend | hend
    . cases hend
    . cases hend
  . intro g _ hexecuted
    simp only [goto, setState_saved, setSaved_saved]
    split
    . rfl
    . apply h.saved_of_others _ hexecuted
      unfold executed
      rw [hpc]
      nofun
  . intro g hg
    cases hg
    apply h.cb_lt w f hf
  . apply h.cb_lt w
  . apply h.queue_lt
  . apply h.waiting_lt

theorem getState_newFiber (s : Scheduler C) (f : Nat)
    : s.newFiber.getState f = if f = s.fiberCount then .INIT else s.getState f := by
  by_cases h : f = s.fiberCount
  . simp [getState, newFiber, h]
  . simp [getState, newFiber, h]

theorem Inv.others_newFiber (h : s.Inv) (w : Nat) : Others s s.newFiber w := by
  have hself : s.newFiber.getState s.fiberCount = .INIT := by
    rw [getState_newFiber, if_pos rfl]
  apply h.others_of_store hself
  . intro f hf
    rw [getState_newFiber, if_neg hf]
  . intro v _ hresumed
    have := h.pc_lt v _ (Pc.fiber_of_held (Pc.held_of_resumed hresumed))
    omega
  . nofun
  . intro _ v ft _ htaken hft
    have hlt := h.pc_lt v s.fiberCount (by rw [htaken]; exact hft)
    omega

theorem fresh_inv (h : s.Inv) {w : Nat} {ft : FiberAndThread C}
    (hpc : (s.workers w).pc = .taken ft)
    : ((s.newFiber.setCbFiber w (some s.fiberCount)).goto w (.swapIn s.fiberCount true)).Inv := by
  have hothers := h.others_newFiber w
  apply h.move (s.newFiber_workers w)
  . apply Nat.le_succ
  . exact ⟨hothers.taken, hothers.exec, hothers.entering⟩
  . intro f hf v _ hv
    have hlt := h.pc_lt v f hv.fiber
    cases held_of_holds_goto hf nofun
    omega
  . intro f hf
    cases hf
  . intro f hf hend
    cases hf
    change s.newFiber.Ended s.fiberCount at hend
    unfold Ended at hend
    rw [getState_newFiber, if_pos rfl] at hend
    rcases hend with hend | hend
    . cases hend
    . cases hend
  . intro f _ hexecuted
    simp only [goto, setCbFiber, newFiber]
    by_cases hf : f = s.fiberCount
    . rw [hf, Function.update_self]
    . rw [Function.update_of_ne hf]
      apply h.saved_of_others _ hexecuted
      unfold executed
      rw [hpc]
      nofun
  . intro f hf
    cases hf
    apply Nat.lt_succ_self
  . intro f hf
    cases hf
    apply Nat.lt_succ_self
  . intro ft hft f hf
    apply Nat.lt_succ_of_lt
    apply h.queue_lt ft hft f hf
  . intro f hf
    apply Nat.lt_succ_of_lt
    apply h.waiting_lt f hf

theorem dispatch_inv (h : s.Inv) {w : Nat} {ft : FiberAndThread C}
    (hpc : (s.workers w).pc = .taken ft)
    (hopened : ∀ f, s.takesUp w = some f → ∀ v, v ≠ w → (s.workers v).pc.opened ≠ some f)
    (hleaving : ∀ f, s.takesUp w = some f → ∀ v, v ≠ w → (s.workers v).pc.leaving ≠ some f)
    (hstep : s.dispatch w ft = .ok s') : s'.Inv := by
  have hnot : ∀ f, s.executed w ≠ some f := by
    unfold executed
    rw [hpc]
    nofun
  unfold takesUp at hopened hleaving
  rw [hpc] at hopened hleaving
  unfold dispatch at hstep
  simp only at hopened hleaving
  split at hstep
  . next f hfilter =>
    cases hstep
    obtain ⟨hft, hstate⟩ := Option.filter_eq_some_iff.mp hfilter
    have hnotEnded : ¬ s.Ended f := by
      have := of_decide_eq_true hstate
      unfold Ended
      rw [not_or]
      exact this
    apply h.move
    . rfl
    . apply Nat.le_refl
    . exact h.others_of_same w (fun _ => rfl)
    . intro g hg v hv hholds
      cases held_of_holds_goto hg nofun
      exact hv (h.alone v w f hholds (.inr ⟨ft, hpc, hft, hnotEnded⟩))
    . intro g hg
      cases hg
    . intro g hg
      cases hg
      exact hnotEnded
    . intro g _ hexecuted
      exact h.saved_of_others (hnot g) hexecuted
    . intro g hg
      cases hg
      apply h.pc_lt w f
      rw [hpc]
      exact hft
    . apply h.cb_lt w
    . apply h.queue_lt
    . apply h.waiting_lt
  . next hfilter hcb =>
    rw [hfilter, hcb] at hopened hleaving
    split at hstep
    . next f hf =>
      obtain ⟨s1, hreset, heq⟩ := Except.map_eq_ok hstep
      cases heq
      exact reuse_inv h hpc hf (hopened f hf) (hleaving f hf) hreset
    . cases hstep
      exact fresh_inv h hpc
  . cases hstep
    apply h.goto_same _ (Quiet.leave s w) rfl rfl
    rw [hpc]
    exact ⟨nofun, nofun, nofun, nofun, nofun, nofun⟩

theorem Inv.release (h : s.Inv) {t : Scheduler C} {w : Nat} {cb : Bool}
    (hpc : Pc.Advance (s.workers w).pc .loop) (hquiet : Quiet s t w)
    (hworkers : t.workers = s.workers) (hothers : Others s t w)
    : ((if cb then t.setCbFiber w none else t).goto w .loop).Inv := by
  cases cb with
  | false =>
    apply h.goto hpc hquiet hworkers hothers
    rintro f (hf | hf)
    . cases hf
    . cases hf
  | true =>
    have hupdate : ((t.setCbFiber w none).goto w .loop).workers
        = Function.update s.workers w ⟨.loop, none, (s.workers w).idle_term⟩ := by
      simp [Scheduler.goto, setCbFiber, hworkers]
    apply h.advance hupdate hpc
    . exact ⟨hquiet.count, hquiet.saved, hquiet.queue, hquiet.waiting⟩
    . exact ⟨hothers.taken, hothers.exec, hothers.entering⟩
    . rintro f (hf | hf)
      . cases hf
      . cases hf
    . intro f hf
      cases hf

theorem Quiet.requeue {w f : Nat} {cb : Bool} (hpc : (s.workers w).pc = .requeue f cb)
    : Quiet s (s.schedule ⟨some f, none, none⟩) w where
  count := rfl
  saved := fun _ hf => hf
  queue := by
    intro ft hft
    rw [hpc]
    simp only [schedule, Option.isSome_some, Bool.true_or, if_true, List.mem_append,
      List.mem_singleton] at hft
    rcases hft with hft | rfl
    . exact .inl hft
    . exact .inr rfl
  waiting := rfl

theorem Quiet.reset (s : Scheduler C) (w f : Nat)
    : Quiet s ((s.setSaved f true).setState f .INIT) w where
  count := rfl
  saved := by
    intro g hg
    rw [setState_saved, setSaved_saved]
    split
    . rfl
    . apply hg
  queue := fun _ hft => .inl hft
  waiting := rfl

theorem holds_of_held {w f : Nat} {pc : Pc C} (hpc : (s.workers w).pc = pc)
    (hheld : pc.held = some f) : s.Holds w f := by
  left
  rw [hpc]
  exact hheld

theorem Inv.others_of_holds (h : s.Inv) {w f : Nat} (hholds : s.Holds w f) (hend : ¬ s.Ended f)
    (state : FiberState) : Others s (s.setState f state) w := by
  have hfree : ∀ v, v ≠ w → ¬ s.Holds v f := by
    intro v hv hv'
    exact hv (h.alone v w f hv' hholds)
  have hself : (s.setState f state).getState f = state := by
    rw [getState_setState, if_pos rfl]
  apply h.others_of_store hself
  . intro g hg
    rw [getState_setState, if_neg hg]
  . intro v hv hresumed
    exact hfree v hv (.inl (Pc.held_of_resumed hresumed))
  . intro _ v hv hentering
    exact hfree v hv (.inl (Pc.held_of_entering hentering))
  . intro hended
    exact absurd hended hend

theorem not_ended_of_exec {f : Nat} (h : s.getState f = .EXEC) : ¬ s.Ended f := by
  rintro (hend | hend)
  . rw [h] at hend
    cases hend
  . rw [h] at hend
    cases hend

theorem exec_inv (h : s.Inv) {w f : Nat} {cb : Bool} (hpc : (s.workers w).pc = .exec f cb)
    : ((s.setState f .EXEC).goto w (.switch f cb)).Inv := by
  have hholds : s.Holds w f := holds_of_held hpc rfl
  have hend : ¬ s.Ended f := h.entering w f (by rw [hpc]; rfl)
  have hothers := h.others_of_holds hholds hend .EXEC
  apply h.move
  . rfl
  . apply Nat.le_refl
  . exact ⟨hothers.taken, hothers.exec, hothers.entering⟩
  . intro g hg v hv hcontra
    cases held_of_holds_goto hg nofun
    exact hv (h.alone v w f hcontra hholds)
  . intro g hg
    cases hg
    change (s.setState f .EXEC).getState f = .EXEC
    rw [getState_setState, if_pos rfl]
  . intro g hg
    cases hg
  . intro g _ hexecuted
    rw [goto, setState_saved]
    apply h.saved_of_others _ hexecuted
    unfold executed
    rw [hpc]
    nofun
  . intro g hg
    apply h.pc_lt w g
    rw [hpc]
    apply hg
  . apply h.cb_lt w
  . apply h.queue_lt
  . apply h.waiting_lt

theorem switch_inv (h : s.Inv) {w f : Nat} {cb : Bool} (hpc : (s.workers w).pc = .switch f cb)
    : ((s.setSaved f false).goto w (.running f cb)).Inv := by
  have hholds : s.Holds w f := holds_of_held hpc rfl
  have hothers : Others s (s.setSaved f false) w := by
    apply h.others_of_same
    intro g
    rw [getState_setSaved]
  apply h.move
  . rfl
  . apply Nat.le_refl
  . exact ⟨hothers.taken, hothers.exec, hothers.entering⟩
  . intro g hg v hv hcontra
    cases held_of_holds_goto hg nofun
    exact hv (h.alone v w f hcontra hholds)
  . intro g hg
    cases hg
    change (s.setSaved f false).getState f = .EXEC
    rw [getState_setSaved]
    apply h.exec w f
    rw [hpc]
    rfl
  . intro g hg
    cases hg
  . intro g hg hexecuted
    have hne : g ≠ f := by
      intro heq
      rw [heq] at hg
      exact hg rfl
    rw [goto, setSaved_saved, if_neg hne]
    apply h.saved
    intro v hv
    by_cases hvw : v = w
    . unfold executed at hv
      rw [hvw, hpc] at hv
      cases hv
    . exact hexecuted v hvw hv
  . intro g hg
    apply h.pc_lt w g
    rw [hpc]
    apply hg
  . apply h.cb_lt w
  . apply h.queue_lt
  . apply h.waiting_lt

theorem swapOut_inv (h : s.Inv) {w f : Nat} {cb : Bool} (hpc : (s.workers w).pc = .swapOut f cb)
    : ((s.setSaved f true).goto w (.returned f cb)).Inv := by
  have hothers : Others s (s.setSaved f true) w := by
    apply h.others_of_same
    intro g
    rw [getState_setSaved]
  apply h.move
  . rfl
  . apply Nat.le_refl
  . exact ⟨hothers.taken, hothers.exec, hothers.entering⟩
  . intro g hg
    cases held_of_holds_goto hg nofun
  . intro g hg
    cases hg
  . intro g hg
    cases hg
  . intro g _ hexecuted
    rw [goto, setSaved_saved]
    split
    . rfl
    . next hne =>
      apply h.saved
      intro v hv
      by_cases hvw : v = w
      . unfold executed at hv
        rw [hvw, hpc] at hv
        cases hv
        exact hne rfl
      . exact hexecuted v hvw hv
  . intro g hg
    apply h.pc_lt w g
    rw [hpc]
    apply hg
  . apply h.cb_lt w
  . apply h.queue_lt
  . apply h.waiting_lt

theorem hold_inv (h : s.Inv) {w f : Nat} {cb : Bool} (hpc : (s.workers w).pc = .hold f cb)
    (hresumed : ∀ v, v ≠ w → (s.workers v).pc.resumed ≠ some f)
    (hended : s.Ended f → ∀ v ft, (s.workers v).pc = .taken ft → ft.fiber ≠ some f)
    : ((if cb then (s.setState f .HOLD).setCbFiber w none else s.setState f .HOLD).goto w .loop).Inv
    := by
  apply h.release _ (Quiet.setState s w _ _) rfl
  . have hself : (s.setState f .HOLD).getState f = .HOLD := by
      rw [getState_setState, if_pos rfl]
    apply h.others_of_store hself
    . intro g hg
      rw [getState_setState, if_neg hg]
    . exact hresumed
    . nofun
    . exact fun hend v ft _ => hended hend v ft
  . rw [hpc]
    exact ⟨nofun, nofun, nofun, nofun, nofun, nofun⟩

theorem reset_inv (h : s.Inv) {w f : Nat} (hpc : (s.workers w).pc = .reset f)
    (hended : s.Ended f → ∀ v ft, (s.workers v).pc = .taken ft → ft.fiber ≠ some f)
    {t : Scheduler C} (hreset : s.resetFiber f = .ok t) : (t.goto w .loop).Inv := by
  have hexec : s.getState f ≠ .EXEC := by
    intro hexec
    unfold resetFiber at hreset
    rw [hexec] at hreset
    cases hreset
  cases resetFiber_eq_ok hreset
  apply h.goto _ (Quiet.reset s w _) rfl
  . have hself : ((s.setSaved f true).setState f .INIT).getState f = .INIT := by
      rw [getState_setState, if_pos rfl]
    apply h.others_of_store hself
    . intro g hg
      rw [getState_setState, if_neg hg, getState_setSaved]
    . intro v _ hresumed
      exact hexec (h.exec v f hresumed)
    . nofun
    . exact fun hend v ft _ => hended hend v ft
  . rintro g (hg | hg)
    . cases hg
    . cases hg
  . rw [hpc]
    exact ⟨nofun, nofun, nofun, nofun, nofun, nofun⟩

theorem work_inv (h : s.Inv) {w : Nat} {u : Unit} (houtside : OutsideWindows s (.work w, u))
    (hstep : s.work w = .ok s') : s'.Inv := by
  have hopened := fun f => houtside.opened w f rfl
  have hleaving := fun f => houtside.leaving w f rfl
  unfold work at hstep
  split at hstep
  . next hpc =>
    cases hstep
    apply dequeue_inv h hpc hopened hleaving
  . next hpc => apply dispatch_inv h hpc hopened hleaving hstep
  . next hpc =>
    split at hstep
    . cases hstep
    . cases hstep
      apply h.goto_same _ (Quiet.refl s w) rfl rfl
      rw [hpc]
      exact ⟨nofun, fun _ hf => hf, nofun, fun _ hf => hf, nofun, fun _ hf => hf⟩
  . next hpc =>
    cases hstep
    apply exec_inv h hpc
  . next hpc =>
    cases hstep
    apply switch_inv h hpc
  . cases hstep
  . next hpc =>
    cases hstep
    apply swapOut_inv h hpc
  . next hpc =>
    cases hstep
    apply h.goto_same _ (Quiet.leave s w) rfl rfl
    rw [hpc]
    exact ⟨nofun, nofun, nofun, nofun, nofun, fun _ hf => hf⟩
  . next hpc =>
    cases hstep
    apply h.goto_same _ (Quiet.refl s w) rfl rfl
    rw [hpc]
    split
    . exact ⟨nofun, nofun, nofun, nofun, nofun, fun _ hf => hf⟩
    . exact ⟨nofun, nofun, nofun, nofun, nofun, fun _ hf => hf⟩
  . next hpc =>
    cases hstep
    apply h.release _ (Quiet.requeue hpc) rfl (h.others_of_same w (fun _ => rfl))
    rw [hpc]
    exact ⟨nofun, nofun, nofun, nofun, nofun, nofun⟩
  . next f cb hpc =>
    split at hstep
    . cases hstep
      apply h.goto_same _ (Quiet.refl s w) rfl rfl
      rw [hpc]
      cases cb with
      | false => exact ⟨nofun, nofun, nofun, nofun, nofun, nofun⟩
      | true => exact ⟨nofun, nofun, nofun, nofun, nofun, fun _ hf => hf⟩
    . cases hstep
      apply h.goto_same _ (Quiet.refl s w) rfl rfl
      rw [hpc]
      exact ⟨nofun, nofun, nofun, nofun, nofun, fun _ hf => hf⟩
  . next f cb hpc =>
    cases hstep
    apply hold_inv h hpc (houtside.resumed w f cb rfl hpc)
    apply houtside.ended w f rfl
    unfold overwrites
    rw [hpc]
  . next f hpc =>
    obtain ⟨s1, hreset, heq⟩ := Except.map_eq_ok hstep
    cases heq
    apply reset_inv h hpc _ hreset
    apply houtside.ended w f rfl
    unfold overwrites
    rw [hpc]
  . next hpc =>
    cases hstep
    apply h.advance
    . rfl
    . rw [hpc]
      exact ⟨nofun, nofun, nofun, nofun, nofun, nofun⟩
    . exact ⟨rfl, fun _ hf => hf, fun _ hft => .inl hft, rfl⟩
    . exact h.others_of_same w (fun _ => rfl)
    . intro f _
      rfl
    . intro f hf
      apply hf
  . cases hstep

theorem Inv.still (h : s.Inv) (hworkers : s'.workers = s.workers)
    (hcount : s.fiberCount ≤ s'.fiberCount)
    (hstate : ∀ f, f < s.fiberCount → s'.getState f = s.getState f)
    (hsaved : ∀ f, (s.fibers f).saved = true → (s'.fibers f).saved = true)
    (hqueue : ∀ ft ∈ s'.m_fibers, ft ∈ s.m_fibers ∨ ∀ f, ft.fiber = some f → f < s.fiberCount)
    (hwaiting : ∀ f ∈ s'.waiting, f < s.fiberCount) : s'.Inv := by
  have hended : ∀ f, f < s.fiberCount → (s'.Ended f ↔ s.Ended f) := by
    intro f hf
    unfold Ended
    rw [hstate f hf]
  have hholds : ∀ v f, s'.Holds v f → s.Holds v f := by
    intro v f hf
    unfold Holds at hf
    rw [hworkers] at hf
    rcases hf with hf | ⟨ft, hpc, hft, hnot⟩
    . exact .inl hf
    . have hlt := h.pc_lt v f (by rw [hpc]; exact hft)
      exact .inr ⟨ft, hpc, hft, fun hend => hnot ((hended f hlt).mpr hend)⟩
  constructor
  . intro v w f hv hw
    exact h.alone v w f (hholds v f hv) (hholds w f hw)
  . intro w f hpc
    rw [hworkers] at hpc
    rw [hstate f (h.pc_lt w f (Pc.fiber_of_held (Pc.held_of_resumed hpc)))]
    exact h.exec w f hpc
  . intro w f hpc
    rw [hworkers] at hpc
    rw [hended f (h.pc_lt w f (Pc.fiber_of_held (Pc.held_of_entering hpc)))]
    exact h.entering w f hpc
  . intro f hf
    apply hsaved
    apply h.saved
    intro w hw
    apply hf w
    unfold executed
    rw [hworkers]
    exact hw
  . intro w f hf
    rw [hworkers] at hf
    have := h.pc_lt w f hf
    omega
  . intro w f hf
    rw [hworkers] at hf
    have := h.cb_lt w f hf
    omega
  . intro ft hft f hf
    rcases hqueue ft hft with hft | hlt
    . have := h.queue_lt ft hft f hf
      omega
    . have := hlt f hf
      omega
  . intro f hf
    have := hwaiting f hf
    omega

theorem yield_inv (h : s.Inv) {w f : Nat} {cb : Bool} (hpc : (s.workers w).pc = .running f cb)
    (state : FiberState) : ((s.setState f state).goto w (.swapOut f cb)).Inv := by
  have hexec : s.getState f = .EXEC := h.exec w f (by rw [hpc]; rfl)
  have hholds : s.Holds w f := holds_of_held hpc rfl
  apply h.goto _ (Quiet.setState s w f state) rfl
  . exact h.others_of_holds hholds (not_ended_of_exec hexec) state
  . rintro g (hg | hg)
    . cases hg
    . cases hg
  . rw [hpc]
    exact ⟨nofun, fun _ hf => hf, nofun, nofun, fun _ hf => hf, fun _ hf => hf⟩

theorem fiberStep_inv (h : s.Inv) {w : Nat} {a : FiberStep} (hstep : s.fiberStep w a = .ok s')
    : s'.Inv := by
  unfold fiberStep at hstep
  split at hstep
  . next f cb hpc =>
    cases a with
    | addEvent =>
      simp only at hstep
      split at hstep
      . cases hstep
        apply h.still
        . rfl
        . apply Nat.le_refl
        . intro g _
          rfl
        . intro g hg
          apply hg
        . intro ft hft
          exact .inl hft
        . intro g hg
          rw [List.mem_append, List.mem_singleton] at hg
          rcases hg with hg | rfl
          . apply h.waiting_lt g hg
          . apply h.pc_lt w g
            rw [hpc]
            rfl
      . cases hstep
    | yieldToHold =>
      cases hstep
      apply yield_inv h hpc
    | yieldToReady =>
      cases hstep
      apply yield_inv h hpc
    | term =>
      cases hstep
      apply yield_inv h hpc
    | except =>
      cases hstep
      apply yield_inv h hpc
  . cases hstep

theorem mem_schedule {ft ft' : FiberAndThread C} (h : ft' ∈ (s.schedule ft).m_fibers)
    : ft' ∈ s.m_fibers ∨ ft' = ft := by
  unfold schedule at h
  split at h
  . simpa using h
  . exact .inl h

theorem schedule_workers (s : Scheduler C) (ft : FiberAndThread C)
    : (s.schedule ft).workers = s.workers ∧ (s.schedule ft).fiberCount = s.fiberCount
      ∧ (s.schedule ft).fibers = s.fibers ∧ (s.schedule ft).waiting = s.waiting := by
  unfold schedule
  split
  . exact ⟨rfl, rfl, rfl, rfl⟩
  . exact ⟨rfl, rfl, rfl, rfl⟩

theorem schedule_inv (h : s.Inv) {ft : FiberAndThread C}
    (hft : ∀ f, ft.fiber = some f → f < s.fiberCount) : (s.schedule ft).Inv := by
  obtain ⟨hworkers, hcount, hfibers, hwaiting⟩ := schedule_workers s ft
  apply h.still hworkers (Nat.le_of_eq hcount.symm)
  . intro f _
    unfold getState
    rw [hfibers]
  . intro f hf
    rw [hfibers]
    apply hf
  . intro ft' hft'
    rcases mem_schedule hft' with hft' | rfl
    . exact .inl hft'
    . exact .inr hft
  . rw [hwaiting]
    apply h.waiting_lt

theorem newFiber_inv (h : s.Inv) : s.newFiber.Inv := by
  apply h.still
  . rfl
  . apply Nat.le_succ
  . intro f hf
    rw [getState_newFiber, if_neg (Nat.ne_of_lt hf)]
  . intro f hf
    by_cases heq : f = s.fiberCount
    . simp [newFiber, heq]
    . simpa [newFiber, heq] using hf
  . intro ft hft
    exact .inl hft
  . apply h.waiting_lt

theorem triggerEvent_inv (h : s.Inv) {k f : Nat} (hk : s.waiting[k]? = some f)
    : ({ s with waiting := s.waiting.eraseIdx k }.schedule ⟨some f, none, none⟩).Inv := by
  have hinv : { s with waiting := s.waiting.eraseIdx k }.Inv := by
    apply h.still
    . rfl
    . apply Nat.le_refl
    . intro g _
      rfl
    . intro g hg
      apply hg
    . intro ft hft
      exact .inl hft
    . intro g hg
      apply h.waiting_lt g (List.mem_of_mem_eraseIdx hg)
  apply schedule_inv hinv
  intro g hg
  cases hg
  apply h.waiting_lt f (List.mem_of_getElem? hk)

theorem step_inv (h : s.Inv) {l : Action C × Unit} (houtside : OutsideWindows s l)
    (hstep : s.step l.1 = .ok (s', l.2)) : s'.Inv := by
  obtain ⟨a, u⟩ := l
  unfold step at hstep
  split at hstep
  . next w heq =>
    obtain ⟨s1, hret, hpair⟩ := Except.map_eq_ok hstep
    cases hpair
    cases heq
    apply work_inv h houtside hret
  . obtain ⟨s1, hret, hpair⟩ := Except.map_eq_ok hstep
    cases hpair
    apply fiberStep_inv h hret
  . cases hstep
    apply newFiber_inv h
  . split at hstep
    . next hall =>
      cases hstep
      apply schedule_inv h
      intro f hf
      rw [hf] at hall
      simpa using hall
    . cases hstep
  . split at hstep
    . cases hstep
    . next hk =>
      cases hstep
      apply triggerEvent_inv h hk
  . cases hstep
    apply h.still
    . rfl
    . apply Nat.le_refl
    . intro f _
      rfl
    . intro f hf
      apply hf
    . intro ft hft
      exact .inl hft
    . apply h.waiting_lt

-- no two workers execute the same fiber, and a worker about to resume a fiber finds its context
-- saved
def Exclusive (s : Scheduler C) : Prop :=
  (∀ v w f, s.executed v = some f → s.executed w = some f → v = w)
    ∧ ∀ w f cb, (s.workers w).pc = .switch f cb → (s.fibers f).saved = true

theorem Inv.exclusive (h : s.Inv) : Exclusive s := by
  constructor
  . intro v w f hv hw
    exact h.alone v w f (.inl (Pc.held_of_executed hv)) (.inl (Pc.held_of_executed hw))
  . intro w f cb hpc
    apply h.saved
    intro v hv
    have heq := h.alone v w f (.inl (Pc.held_of_executed hv)) (holds_of_held hpc rfl)
    unfold executed at hv
    rw [heq, hpc] at hv
    cases hv

theorem run_exclusive {ls : List (Action C × Unit)}
    (h : ((lts C).restrict OutsideWindows).Run new ls s) : Exclusive s := by
  have hinv : s.Inv := by
    apply h.invariant _ inv_new
    intro s l t hs hstep
    apply step_inv hs hstep.1 hstep.2
  apply hinv.exclusive

theorem OutsideWindows.of_none {l : Action C × Unit}
    (h : ∀ w, l.1 = .work w → s.takesUp w = none ∧ s.overwrites w = none)
    : OutsideWindows s l := by
  constructor
  . intro w f hw hf
    rw [(h w hw).1] at hf
    cases hf
  . intro w f hw hf
    rw [(h w hw).1] at hf
    cases hf
  . intro w f cb hw hpc
    have hnone := (h w hw).2
    unfold overwrites at hnone
    rw [hpc] at hnone
    cases hnone
  . intro w f hw hf
    rw [(h w hw).2] at hf
    cases hf

theorem OutsideWindows.of_work {w : Nat} {u : Unit}
    (h : s.takesUp w = none ∧ s.overwrites w = none) : OutsideWindows s (.work w, u) := by
  apply of_none
  intro v hv
  cases hv
  exact h

theorem run_exclusive_two_entries
    : ∃ s : Scheduler Unit, s.executed 0 = some 0 ∧ s.m_fibers = [⟨some 0, none, none⟩]
        ∧ (s.workers 1).pc = .idle ∧ Exclusive s := by
  let s1 : Scheduler Unit := new.newFiber
  let s2 := s1.schedule ⟨some 0, none, none⟩
  let s3 := s2.schedule ⟨some 0, none, none⟩
  let s4 := s3.dequeue 0
  let s5 := s4.goto 0 (.swapIn 0 false)
  let s6 := s5.goto 0 (.exec 0 false)
  let s7 := (s6.setState 0 .EXEC).goto 0 (.switch 0 false)
  let s8 := (s7.setSaved 0 false).goto 0 (.running 0 false)
  let s9 := s8.dequeue 1
  have hdequeue : OutsideWindows s3 (.work 0, ()) := by
    constructor
    . intro w f _ _ v _ hv
      cases hv
    . intro w f _ _ v _ hv
      cases hv
    . intro w f cb _ hpc
      cases hpc
    . intro w f _ hf
      cases hf
  have hschedule : ∀ s : Scheduler Unit, OutsideWindows s (.schedule ⟨some 0, none, none⟩, ()) := by
    intro s
    apply OutsideWindows.of_none
    intro w hw
    cases hw
  have hnew : OutsideWindows (new : Scheduler Unit) (.newFiber, ()) := by
    apply OutsideWindows.of_none
    intro w hw
    cases hw
  have hstep : ∀ {s l} (t : Scheduler Unit), OutsideWindows s l → s.step l.1 = .ok (t, l.2)
      → ((lts Unit).restrict OutsideWindows).step s l t := by
    intro s l t houtside hstep
    exact ⟨houtside, hstep⟩
  have hrun : ((lts Unit).restrict OutsideWindows).Run new
      [
        (.newFiber, ()), (.schedule ⟨some 0, none, none⟩, ()),
        (.schedule ⟨some 0, none, none⟩, ()), (.work 0, ()), (.work 0, ()), (.work 0, ()),
        (.work 0, ()), (.work 0, ()), (.work 1, ())
      ] s9 := by
    apply LTS.Run.cons (hstep s1 hnew rfl)
    apply LTS.Run.cons (hstep s2 (hschedule _) rfl)
    apply LTS.Run.cons (hstep s3 (hschedule _) rfl)
    apply LTS.Run.cons (hstep s4 hdequeue rfl)
    apply LTS.Run.cons (hstep s5 (.of_work ⟨rfl, rfl⟩) rfl)
    apply LTS.Run.cons (hstep s6 (.of_work ⟨rfl, rfl⟩) rfl)
    apply LTS.Run.cons (hstep s7 (.of_work ⟨rfl, rfl⟩) rfl)
    apply LTS.Run.cons (hstep s8 (.of_work ⟨rfl, rfl⟩) rfl)
    apply LTS.Run.cons (hstep s9 (.of_work ⟨rfl, rfl⟩) rfl)
    apply LTS.Run.nil
  exact ⟨s9, rfl, rfl, rfl, run_exclusive hrun⟩

/--
The fiber waits for an event and stores `HOLD`. The event puts it on the queue, and another worker
resumes it while the first one is still to save its context.
-/
theorem two_workers_resume_one_fiber
    : ∃ s1 s2 : Scheduler Unit,
        (lts Unit).Run new
          [
            (.newFiber, ()), (.schedule ⟨some 0, none, none⟩, ()), (.work 0, ()), (.work 0, ()),
            (.work 0, ()), (.work 0, ()), (.work 0, ()), (.fiber 0 .addEvent, ()),
            (.fiber 0 .yieldToHold, ()), (.triggerEvent 0, ()), (.work 1, ()), (.work 1, ()),
            (.work 1, ()), (.work 1, ())
          ] s1
        ∧ (s1.workers 1).pc = .switch 0 false ∧ (s1.fibers 0).saved = false
        ∧ (lts Unit).step s1 (.work 1, ()) s2
        ∧ s2.executed 0 = some 0 ∧ s2.executed 1 = some 0 := by
  refine ⟨_, _, LTS.run_of_replay rfl, rfl, rfl, rfl, rfl, rfl⟩

end Scheduler
end CXS
