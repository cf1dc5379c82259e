import CXS.Scheduler.Exclusion
import CXS.Util.Ledger
import Mathlib.Data.Set.Card

/-!
This module contains what becomes of the tasks on `m_fibers`: every task is dequeued once or still
there, in the order in which the tasks were put there, and `m_activeThreadCount` counts the workers
between the dequeue of a task and the decrement that belongs to it. Nothing here depends on the states
of the fibers, so they may change in any way between the steps.
-/

namespace CXS
namespace Scheduler

variable {C : Type} {s s' : Scheduler C}

def scheduleRange (s : Scheduler C) (tasks : List (FiberAndThread C)) : Scheduler C :=
  tasks.foldl (fun s ft => s.schedule { ft with thread := none }) s

inductive Event (C : Type) where
  | act (a : Action C)
  | scheduleRange (tasks : List (FiberAndThread C))
  | setState (f : Nat) (state : FiberState)
  deriving DecidableEq, Repr

def event (s : Scheduler C) : Event C → Except Fault (Scheduler C × Unit)
  | .act a => s.step a
  | .scheduleRange tasks =>
    if tasks.all (fun ft => ft.fiber.all (· < s.fiberCount)) then
      .ok (s.scheduleRange tasks, ())
    else
      .error .notPossible
  | .setState f state => .ok (s.setState f state, ())

def isTask (ft : FiberAndThread C) : Bool :=
  ft.fiber.isSome || ft.cb.isSome

def pushed (s : Scheduler C) : Event C → List (FiberAndThread C)
  | .act (.work w) =>
    match (s.workers w).pc with
    | .requeue f _ => [⟨some f, none, none⟩]
    | _ => []
  | .act (.schedule ft) => [ft].filter isTask
  | .act (.triggerEvent k) => s.waiting[k]?.toList.map (fun f => ⟨some f, none, none⟩)
  | .scheduleRange tasks =>
    (tasks.map (fun ft => { ft with thread := none })).filter isTask
  | _ => []

-- the worker that dequeues a task, and the place of the task
def dequeued (s : Scheduler C) : Event C → Option (Nat × Nat)
  | .act (.work w) =>
    match (s.workers w).pc with
    | .loop => (s.m_fibers.findIdx? (s.eligible w)).map (w, ·)
    | _ => none
  | _ => none

abbrev Books (C : Type) :=
  Ledger (FiberAndThread C) Nat

def eventBooks (s : Scheduler C × Books C) (e : Event C)
    : Except Fault ((Scheduler C × Books C) × Unit) :=
  (s.1.event e).map fun (s', u) =>
    let led :=
      match s.1.dequeued e with
      | none => s.2
      | some (w, it) => s.2.take w it
    ((s', led.put (s.1.pushed e)), u)

def events (C : Type) : LTS (Scheduler C × Books C) (Event C × Unit) :=
  LTS.ofExcept eventBooks

def Pc.active : Pc C → Bool
  | .taken _ | .swapIn _ _ | .exec _ _ | .switch _ _ | .running _ _ | .swapOut _ _ => true
  | .returned _ _ => true
  | _ => false

def activeWorkers (s : Scheduler C) : Set Nat :=
  { w | (s.workers w).pc.active = true }

structure Counted (s : Scheduler C) : Prop where
  finite : s.activeWorkers.Finite
  count : s.m_activeThreadCount = s.activeWorkers.ncard

theorem counted_new : (new : Scheduler C).Counted := by
  have hempty : (new : Scheduler C).activeWorkers = ∅ := by
    ext w
    simp [activeWorkers, new, Pc.active]
  constructor
  . rw [hempty]
    exact Set.finite_empty
  . rw [hempty, Set.ncard_empty]
    rfl

theorem Counted.pos (h : s.Counted) {w : Nat} (hw : (s.workers w).pc.active = true)
    : 0 < s.m_activeThreadCount := by
  rw [h.count, Set.ncard_pos h.finite]
  exact ⟨w, hw⟩

theorem Counted.congr (h : s.Counted) (hworkers : s'.workers = s.workers)
    (hcount : s'.m_activeThreadCount = s.m_activeThreadCount) : s'.Counted := by
  have hset : s'.activeWorkers = s.activeWorkers := by
    unfold activeWorkers
    rw [hworkers]
  constructor
  . rw [hset]
    exact h.finite
  . rw [hset, hcount]
    exact h.count

theorem ncard_activeWorkers (h : s.activeWorkers.Finite) (w : Nat)
    : s.activeWorkers.ncard
        = (s.activeWorkers \ {w}).ncard + (s.workers w).pc.active.toNat := by
  cases hactive : (s.workers w).pc.active with
  | true =>
    have hmem : w ∈ s.activeWorkers := hactive
    have := Set.ncard_sdiff_singleton_add_one hmem h
    rw [Bool.toNat_true]
    omega
  | false =>
    have hmem : w ∉ s.activeWorkers := by
      intro hcontra
      have hactive' : (s.workers w).pc.active = true := hcontra
      rw [hactive] at hactive'
      cases hactive'
    rw [Set.sdiff_singleton_eq_self hmem]
    rfl

theorem Counted.move (h : s.Counted) {w : Nat} {worker : Worker C}
    (hworkers : s'.workers = Function.update s.workers w worker)
    (hcount : s'.m_activeThreadCount + (s.workers w).pc.active.toNat
      = s.m_activeThreadCount + worker.pc.active.toNat) : s'.Counted := by
  have hothers : s'.activeWorkers \ {w} = s.activeWorkers \ {w} := by
    ext v
    simp only [Set.mem_sdiff, Set.mem_singleton_iff, activeWorkers, Set.mem_ofPred_eq]
    by_cases hv : v = w
    . simp [hv]
    . rw [hworkers, Function.update_of_ne hv]
  have hfinite : s'.activeWorkers.Finite := by
    apply Set.Finite.of_sdiff _ (Set.finite_singleton w)
    rw [hothers]
    exact h.finite.sdiff
  have hself : (s'.workers w).pc = worker.pc := by
    rw [hworkers, Function.update_self]
  have hold := ncard_activeWorkers h.finite w
  have hnew := ncard_activeWorkers hfinite w
  have := h.count
  rw [hothers, hself] at hnew
  exact ⟨hfinite, by omega⟩

def Moves (s s' : Scheduler C) (w : Nat) : Prop :=
  ∃ worker, s'.workers = Function.update s.workers w worker
    ∧ s'.m_activeThreadCount + (s.workers w).pc.active.toNat
      = s.m_activeThreadCount + worker.pc.active.toNat

theorem goto_moves {t : Scheduler C} {w : Nat} {pc : Pc C}
    (hworkers : t.workers = s.workers ∨ ∃ cb_fiber, t.workers = (s.setCbFiber w cb_fiber).workers)
    (hcount : t.m_activeThreadCount + (s.workers w).pc.active.toNat
      = s.m_activeThreadCount + pc.active.toNat) : Moves s (t.goto w pc) w := by
  refine ⟨{ t.workers w with pc := pc }, ?_, hcount⟩
  rcases hworkers with hworkers | ⟨cb_fiber, hworkers⟩
  . simp [goto, hworkers]
  . simp [goto, hworkers, setCbFiber]

theorem dequeue_moves {w : Nat} (hpc : (s.workers w).pc = .loop) : Moves s (s.dequeue w) w := by
  unfold dequeue
  split
  . split
    . apply goto_moves
      . exact .inl rfl
      . rw [hpc]
        rfl
    . refine ⟨s.workers w, ?_, rfl⟩
      rw [Function.update_eq_self]
  . apply goto_moves
    . exact .inl rfl
    . rw [hpc]
      split <;> rfl

theorem dispatch_moves {w : Nat} {ft : FiberAndThread C} (hpc : (s.workers w).pc = .taken ft)
    (hpos : 0 < s.m_activeThreadCount) (h : s.dispatch w ft = .ok s') : Moves s s' w := by
  unfold dispatch at h
  split at h
  . cases h
    apply goto_moves
    . exact .inl rfl
    . rw [hpc]
      rfl
  . split at h
    . obtain ⟨s1, hreset, heq⟩ := Except.map_eq_ok h
      cases heq
      cases resetFiber_eq_ok hreset
      apply goto_moves
      . exact .inl rfl
      . rw [hpc]
        rfl
    . cases h
      apply goto_moves
      . exact .inr ⟨some s.fiberCount, rfl⟩
      . rw [hpc]
        rfl
  . cases h
    apply goto_moves
    . exact .inl rfl
    . rw [hpc]
      simp only [leave, Pc.active, Bool.toNat_true, Bool.toNat_false]
      omega

theorem schedule_count (s : Scheduler C) (ft : FiberAndThread C)
    : (s.schedule ft).m_activeThreadCount = s.m_activeThreadCount := by
  unfold schedule
  split
  . rfl
  . rfl

theorem work_moves {w : Nat} (hpos : (s.workers w).pc.active = true → 0 < s.m_activeThreadCount)
    (h : s.work w = .ok s') : Moves s s' w := by
  unfold work at h
  split at h
  . next hpc =>
    cases h
    exact dequeue_moves hpc
  . next hpc =>
    apply dispatch_moves hpc _ h
    apply hpos
    rw [hpc]
    rfl
  . next hpc =>
    split at h
    . cases h
    . cases h
      apply goto_moves
      . exact .inl rfl
      . rw [hpc]
        rfl
  . next hpc =>
    cases h
    apply goto_moves
    . exact .inl rfl
    . rw [hpc]
      rfl
  . next hpc =>
    cases h
    apply goto_moves
    . exact .inl rfl
    . rw [hpc]
      rfl
  . cases h
  . next hpc =>
    cases h
    apply goto_moves
    . exact .inl rfl
    . rw [hpc]
      rfl
  . next hpc =>
    have := hpos (by rw [hpc]; rfl)
    cases h
    apply goto_moves
    . exact .inl rfl
    . rw [hpc]
      simp only [leave, Pc.active, Bool.toNat_true, Bool.toNat_false]
      omega
  . next hpc =>
    cases h
    apply goto_moves
    . exact .inl rfl
    . rw [hpc]
      split <;> rfl
  . next f cb hpc =>
    cases h
    have hworkers := (schedule_workers s ⟨some f, none, none⟩).1
    have hcount := schedule_count s ⟨some f, none, none⟩
    apply goto_moves
    . split
      . right
        refine ⟨none, ?_⟩
        simp [setCbFiber, hworkers]
      . exact .inl hworkers
    . rw [hpc]
      split
      . exact congrArg (· + 0) hcount
      . exact congrArg (· + 0) hcount
  . next hpc =>
    split at h
    . cases h
      apply goto_moves
      . exact .inl rfl
      . rw [hpc]
        split <;> rfl
    . cases h
      apply goto_moves
      . exact .inl rfl
      . rw [hpc]
        rfl
  . next hpc =>
    cases h
    apply goto_moves
    . split
      . exact .inr ⟨none, rfl⟩
      . exact .inl rfl
    . rw [hpc]
      split <;> rfl
  . next hpc =>
    obtain ⟨s1, hreset, heq⟩ := Except.map_eq_ok h
    cases heq
    cases resetFiber_eq_ok hreset
    apply goto_moves
    . exact .inl rfl
    . rw [hpc]
      rfl
  . next hpc =>
    cases h
    refine ⟨_, rfl, ?_⟩
    rw [hpc]
    rfl
  . cases h

theorem fiberStep_moves {w : Nat} {a : FiberStep} (h : s.fiberStep w a = .ok s')
    : Moves s s' w := by
  unfold fiberStep at h
  split at h
  . next hpc =>
    cases a with
    | addEvent =>
      simp only at h
      split at h
      . cases h
        refine ⟨s.workers w, ?_, rfl⟩
        rw [Function.update_eq_self]
      . cases h
    | _ =>
      cases h
      apply goto_moves
      . exact .inl rfl
      . rw [hpc]
        rfl
  . cases h

theorem Counted.moves (h : s.Counted) {w : Nat} (hmoves : Moves s s' w) : s'.Counted := by
  obtain ⟨worker, hworkers, hcount⟩ := hmoves
  exact h.move hworkers hcount

theorem step_counted (h : s.Counted) {a : Action C} {u : Unit} (hstep : s.step a = .ok (s', u))
    : s'.Counted := by
  unfold step at hstep
  split at hstep
  . obtain ⟨s1, hret, heq⟩ := Except.map_eq_ok hstep
    cases heq
    exact h.moves (work_moves h.pos hret)
  . obtain ⟨s1, hret, heq⟩ := Except.map_eq_ok hstep
    cases heq
    exact h.moves (fiberStep_moves hret)
  . cases hstep
    exact h.congr rfl rfl
  . split at hstep
    . cases hstep
      exact h.congr (schedule_workers s _).1 (schedule_count s _)
    . cases hstep
  . split at hstep
    . cases hstep
    . cases hstep
      exact h.congr (schedule_workers _ _).1 (schedule_count _ _)
  . cases hstep
    exact h.congr rfl rfl

theorem schedule_queue (s : Scheduler C) (ft : FiberAndThread C)
    : (s.schedule ft).m_fibers = s.m_fibers ++ [ft].filter isTask := by
  unfold schedule
  split
  . next h =>
    have h : isTask ft = true := h
    rw [List.filter_cons_of_pos h]
    rfl
  . next h =>
    have h : ¬isTask ft = true := h
    rw [List.filter_cons_of_neg h, List.filter_nil, List.append_nil]

theorem scheduleRange_cons (s : Scheduler C) (ft : FiberAndThread C)
    (tasks : List (FiberAndThread C))
    : s.scheduleRange (ft :: tasks)
        = (s.schedule { ft with thread := none }).scheduleRange tasks := rfl

theorem scheduleRange_spec (s : Scheduler C) (tasks : List (FiberAndThread C))
    : (s.scheduleRange tasks).m_fibers
        = s.m_fibers
          ++ (tasks.map (fun ft => { ft with thread := none })).filter isTask
      ∧ (s.scheduleRange tasks).workers = s.workers
      ∧ (s.scheduleRange tasks).m_activeThreadCount = s.m_activeThreadCount := by
  induction tasks generalizing s with
  | nil => exact ⟨(List.append_nil _).symm, rfl, rfl⟩
  | cons ft tasks ih =>
    obtain ⟨hqueue, hworkers, hcount⟩ := ih (s.schedule { ft with thread := none })
    rw [scheduleRange_cons, hqueue, hworkers, hcount, schedule_queue, schedule_count,
      (schedule_workers s _).1, List.append_assoc, ← List.filter_append]
    exact ⟨rfl, rfl, rfl⟩

theorem event_counted (h : s.Counted) {e : Event C} {u : Unit} (hstep : s.event e = .ok (s', u))
    : s'.Counted := by
  cases e with
  | act a => exact step_counted h hstep
  | scheduleRange tasks =>
    unfold event at hstep
    simp only at hstep
    split at hstep
    . cases hstep
      obtain ⟨-, hworkers, hcount⟩ := scheduleRange_spec s tasks
      exact h.congr hworkers hcount
    . cases hstep
  | setState f state =>
    cases hstep
    exact h.congr rfl rfl

def remaining (s : Scheduler C) (e : Event C) : List (FiberAndThread C) :=
  match s.dequeued e with
  | none => s.m_fibers
  | some (_, it) => s.m_fibers.eraseIdx it

theorem dequeue_queue {w : Nat}
    : (s.dequeue w).m_fibers
        =
      match s.m_fibers.findIdx? (s.eligible w) with
      | none => s.m_fibers
      | some it => s.m_fibers.eraseIdx it := by
  unfold dequeue
  cases hit : s.m_fibers.findIdx? (s.eligible w) with
  | none => rfl
  | some it =>
    have hlt : it < s.m_fibers.length := (List.findIdx?_eq_some_iff_findIdx_eq.mp hit).1
    simp only [List.getElem?_eq_getElem hlt]
    rfl

theorem dispatch_queue {w : Nat} {ft : FiberAndThread C} (h : s.dispatch w ft = .ok s')
    : s'.m_fibers = s.m_fibers := by
  unfold dispatch at h
  split at h
  . cases h
    rfl
  . split at h
    . obtain ⟨s1, hreset, heq⟩ := Except.map_eq_ok h
      cases heq
      cases resetFiber_eq_ok hreset
      rfl
    . cases h
      rfl
  . cases h
    rfl

theorem work_queue {w : Nat} (h : s.work w = .ok s')
    : s'.m_fibers = s.remaining (.act (.work w)) ++ s.pushed (.act (.work w)) := by
  unfold work at h
  cases hpc : (s.workers w).pc with
  | loop =>
    simp only [hpc] at h
    cases h
    simp only [remaining, dequeued, pushed, hpc, List.append_nil]
    rw [dequeue_queue]
    cases s.m_fibers.findIdx? (s.eligible w) with
    | none => rfl
    | some it => rfl
  | taken ft =>
    simp only [hpc] at h
    simp only [remaining, dequeued, pushed, hpc, List.append_nil]
    exact dispatch_queue h
  | requeue f cb =>
    simp only [hpc] at h
    cases h
    simp only [remaining, dequeued, pushed, hpc]
    have hqueue : (s.schedule ⟨some f, none, none⟩).m_fibers = s.m_fibers ++ [⟨some f, none, none⟩] :=
      schedule_queue s ⟨some f, none, none⟩
    rw [← hqueue]
    cases cb with
    | true => rfl
    | false => rfl
  | swapIn f cb =>
    simp only [hpc] at h
    simp only [remaining, dequeued, pushed, hpc, List.append_nil]
    split at h
    . cases h
    . cases h
      rfl
  | settled f cb =>
    simp only [hpc] at h
    simp only [remaining, dequeued, pushed, hpc, List.append_nil]
    split at h
    . cases h
      rfl
    . cases h
      rfl
  | hold f cb =>
    simp only [hpc] at h
    simp only [remaining, dequeued, pushed, hpc, List.append_nil]
    cases h
    cases cb with
    | true => rfl
    | false => rfl
  | reset f =>
    simp only [hpc] at h
    simp only [remaining, dequeued, pushed, hpc, List.append_nil]
    obtain ⟨s1, hreset, heq⟩ := Except.map_eq_ok h
    cases heq
    cases resetFiber_eq_ok hreset
    rfl
  | running f cb =>
    simp only [hpc] at h
    cases h
  | exited =>
    simp only [hpc] at h
    cases h
  | _ =>
    simp only [hpc] at h
    simp only [remaining, dequeued, pushed, hpc, List.append_nil]
    cases h
    rfl

theorem fiberStep_queue {w : Nat} {a : FiberStep} (h : s.fiberStep w a = .ok s')
    : s'.m_fibers = s.m_fibers := by
  unfold fiberStep at h
  split at h
  . cases a with
    | addEvent =>
      simp only at h
      split at h
      . cases h
        rfl
      . cases h
    | _ =>
      cases h
      rfl
  . cases h

theorem event_queue {e : Event C} {u : Unit} (hstep : s.event e = .ok (s', u))
    : s'.m_fibers = s.remaining e ++ s.pushed e := by
  cases e with
  | act a =>
    cases a with
    | work w =>
      obtain ⟨s1, hret, heq⟩ := Except.map_eq_ok hstep
      cases heq
      exact work_queue hret
    | fiber w a =>
      obtain ⟨s1, hret, heq⟩ := Except.map_eq_ok hstep
      cases heq
      rw [fiberStep_queue hret]
      exact (List.append_nil _).symm
    | newFiber =>
      cases hstep
      exact (List.append_nil _).symm
    | schedule ft =>
      unfold event step at hstep
      simp only at hstep
      split at hstep
      . cases hstep
        exact schedule_queue s ft
      . cases hstep
    | triggerEvent k =>
      unfold event step at hstep
      simp only at hstep
      split at hstep
      . cases hstep
      . next f hf =>
        cases hstep
        rw [schedule_queue]
        simp [remaining, dequeued, pushed, hf, isTask]
    | stop =>
      cases hstep
      exact (List.append_nil _).symm
  | scheduleRange tasks =>
    unfold event at hstep
    simp only at hstep
    split at hstep
    . cases hstep
      exact (scheduleRange_spec s tasks).1
    . cases hstep
  | setState f state =>
    cases hstep
    exact (List.append_nil _).symm

def Takes (s : Scheduler C) (w : Nat) (ft : FiberAndThread C) : Prop :=
  (ft.thread = none ∨ ft.thread = some w) ∧ ∀ f, ft.fiber = some f → s.getState f ≠ .EXEC

theorem eligible_iff (w : Nat) (ft : FiberAndThread C) : s.eligible w ft = true ↔ s.Takes w ft := by
  unfold eligible Takes
  rw [Bool.and_eq_true, Bool.or_eq_true, Option.isNone_iff_eq_none, beq_iff_eq]
  cases ft.fiber with
  | none => simp
  | some f => simp

theorem findIdx?_eligible {w it : Nat} (h : s.m_fibers.findIdx? (s.eligible w) = some it)
    : ∃ ft, s.m_fibers[it]? = some ft ∧ s.Takes w ft
      ∧ ∀ j ft', j < it → s.m_fibers[j]? = some ft' → ¬s.Takes w ft' := by
  obtain ⟨hlt, htakes, hbefore⟩ := List.findIdx?_eq_some_iff_getElem.mp h
  refine ⟨s.m_fibers[it], List.getElem?_eq_getElem hlt, (eligible_iff w _).mp htakes, ?_⟩
  intro j ft' hj hft' hcontra
  obtain ⟨hjlt, heq⟩ := List.getElem?_eq_some_iff.mp hft'
  apply hbefore j hj
  rw [heq]
  exact (eligible_iff w ft').mpr hcontra

theorem dequeued_eq_some {e : Event C} {w it : Nat} (h : s.dequeued e = some (w, it))
    : e = .act (.work w) ∧ (s.workers w).pc = .loop
      ∧ s.m_fibers.findIdx? (s.eligible w) = some it := by
  unfold dequeued at h
  split at h
  . split at h
    . next hpc =>
      obtain ⟨it', hit, heq⟩ := Option.map_eq_some_iff.mp h
      cases heq
      exact ⟨rfl, hpc, hit⟩
    . cases h
  . cases h

structure Accounted (s : Scheduler C × Books C) : Prop where
  books : s.2.Balanced s.1.m_fibers
  tasks : ∀ ft ∈ s.2.tasks, isTask ft = true
  counted : s.1.Counted

theorem pushed_isTask (s : Scheduler C) (e : Event C) : ∀ ft ∈ s.pushed e, isTask ft = true := by
  intro ft hft
  unfold pushed at hft
  split at hft
  . split at hft
    . rw [List.mem_singleton] at hft
      rw [hft]
      rfl
    . cases hft
  . exact (List.mem_filter.mp hft).2
  . obtain ⟨f, -, rfl⟩ := List.mem_map.mp hft
    rfl
  . exact (List.mem_filter.mp hft).2
  . cases hft

theorem event_accounted {s s' : Scheduler C × Books C} (h : Accounted s) {e : Event C} {u : Unit}
    (hstep : eventBooks s e = .ok (s', u)) : Accounted s' := by
  obtain ⟨⟨s1, u1⟩, hret, heq⟩ := Except.map_eq_ok hstep
  cases heq
  have hqueue := event_queue hret
  unfold remaining at hqueue
  constructor
  . dsimp only
    rw [hqueue]
    apply Ledger.Balanced.put
    split
    . exact h.books
    . next w it hit =>
      apply h.books.take
      exact (List.findIdx?_eq_some_iff_findIdx_eq.mp (dequeued_eq_some hit).2.2).1
  . intro ft hft
    have htasks : ∀ led : Books C, led.tasks = s.2.tasks → ft ∈ led.tasks ++ s.1.pushed e
        → isTask ft = true := by
      intro led hled hmem
      rw [hled] at hmem
      rcases List.mem_append.mp hmem with hmem | hmem
      . exact h.tasks ft hmem
      . exact pushed_isTask s.1 e ft hmem
    dsimp only at hft
    split at hft
    . exact htasks s.2 rfl hft
    . refine htasks _ ?_ hft
      exact Ledger.take_tasks _ _ _
  . exact event_counted h.counted hret

theorem run_accounted {es : List (Event C × Unit)} {s : Scheduler C × Books C}
    (h : (events C).Run (new, Ledger.empty) es s) : Accounted s := by
  apply h.invariant
  . intro s l t hs hstep
    exact event_accounted hs hstep
  . exact ⟨Ledger.balanced_empty, nofun, counted_new⟩

theorem dequeue_taken {w it : Nat} {ft : FiberAndThread C}
    (hit : s.m_fibers.findIdx? (s.eligible w) = some it) (hft : s.m_fibers[it]? = some ft)
    : ((s.dequeue w).workers w).pc = .taken ft := by
  unfold dequeue
  simp [hit, hft, goto]

theorem run_tasks_dequeued_once {es : List (Event C × Unit)} {s : Scheduler C} {led : Books C}
    (h : (events C).Run (new, Ledger.empty) es (s, led))
    : led.Balanced s.m_fibers
      ∧ (∀ ft ∈ led.tasks, isTask ft = true)
      ∧ (∀ e s' led', (events C).step (s, led) (e, ()) (s', led')
          → s'.m_fibers = s.remaining e ++ s.pushed e
            ∧ ∀ w it, s.dequeued e = some (w, it)
              → ∃ ft, s.m_fibers[it]? = some ft ∧ s.Takes w ft
                ∧ (∀ j ft', j < it → s.m_fibers[j]? = some ft' → ¬s.Takes w ft')
                ∧ (s'.workers w).pc = .taken ft)
      ∧ (∀ w, (s.workers w).pc = .loop → s.dequeued (.act (.work w)) = none
          → ∀ ft ∈ s.m_fibers, ¬s.Takes w ft)
      ∧ s.activeWorkers.Finite
      ∧ s.m_activeThreadCount = s.activeWorkers.ncard
      ∧ (∀ w ∈ s.activeWorkers, 0 < s.m_activeThreadCount) := by
  have haccounted := run_accounted h
  have hcounted := haccounted.counted
  refine ⟨haccounted.books, haccounted.tasks, ?_, ?_, hcounted.finite, hcounted.count, ?_⟩
  . intro e s' led' hstep
    obtain ⟨⟨s1, u1⟩, hret, heq⟩ := Except.map_eq_ok hstep
    cases heq
    refine ⟨event_queue hret, ?_⟩
    intro w it hdequeued
    obtain ⟨he, hpc, hit⟩ := dequeued_eq_some hdequeued
    subst he
    obtain ⟨ft, hft, htakes, hbefore⟩ := findIdx?_eligible hit
    refine ⟨ft, hft, htakes, hbefore, ?_⟩
    obtain ⟨s2, hwork, heq⟩ := Except.map_eq_ok hret
    cases heq
    unfold work at hwork
    rw [hpc] at hwork
    cases hwork
    exact dequeue_taken hit hft
  . intro w hpc hnone ft hft htakes
    unfold dequeued at hnone
    simp only [hpc, Option.map_eq_none_iff] at hnone
    have := List.findIdx?_eq_none_iff.mp hnone ft hft
    rw [(eligible_iff w ft).mpr htakes] at this
    cases this
  . intro w hw
    exact hcounted.pos hw

theorem run_tasks_dequeued_once_pinned
    : let es : List (Event Unit × Unit) :=
        [
          (.act .newFiber, ()), (.act (.schedule ⟨some 0, none, some 1⟩), ()),
          (.scheduleRange [⟨none, some (), none⟩, ⟨none, none, none⟩, ⟨some 0, none, none⟩], ()),
          (.act (.work 0), ()), (.setState 0 .EXEC, ()), (.act (.work 2), ())
        ]
      ∃ (s : Scheduler Unit) (led : Books Unit), (events Unit).Run (new, Ledger.empty) es (s, led)
        ∧ led.removed = [(1, 0)] ∧ led.queued = [0, 2] ∧ led.Balanced s.m_fibers
        ∧ s.m_activeThreadCount = s.activeWorkers.ncard := by
  intro es
  have hrun : (events Unit).Run (new, Ledger.empty) es (_, _) := LTS.run_of_replay rfl
  obtain ⟨hbooks, -, -, -, -, hcount, -⟩ := run_tasks_dequeued_once hrun
  exact ⟨_, _, hrun, rfl, rfl, hbooks, hcount⟩

end Scheduler
end CXS
