import CXS.Util.LTS
import Mathlib.Logic.Function.Basic

/-!
This module contains `Scheduler::run` from `code/scheduler.cc` and the parts of `code/fiber.cc` it
runs, as steps of any number of worker threads that may follow each other in any order. One step is
one access to the memory that the threads share; what happens under the mutex of the scheduler is
one step.

A `Fiber::ptr` is the number of the fiber, in the order of creation. `saved` says whether the
context in `m_ctx` is the one to go on with: `makecontext` and the first half of the `swapcontext` in
`swapOut` store it, and the `swapcontext` in `swapIn` goes on with it. The idle fiber of a worker is
never on the queue, so a worker that runs it is at `idle`.
-/

namespace CXS

inductive FiberState where
  | INIT
  | HOLD
  | EXEC
  | TERM
  | READY
  | EXECEP
  deriving DecidableEq, Repr

structure Fiber where
  m_state : FiberState
  saved : Bool
  deriving DecidableEq, Repr

structure FiberAndThread (C : Type) where
  fiber : Option Nat
  cb : Option C
  thread : Option Nat
  deriving DecidableEq, Repr

namespace Scheduler

variable {C : Type}

/--
The places in `Scheduler::run` and in the functions of `Fiber` it calls. `cb` says whether the fiber
is `cb_fiber`.
-/
inductive Pc (C : Type) where
  | loop
  | taken (ft : FiberAndThread C)
  | swapIn (f : Nat) (cb : Bool)
  | exec (f : Nat) (cb : Bool)
  | switch (f : Nat) (cb : Bool)
  | running (f : Nat) (cb : Bool)
  | swapOut (f : Nat) (cb : Bool)
  | returned (f : Nat) (cb : Bool)
  | settle (f : Nat) (cb : Bool)
  | requeue (f : Nat) (cb : Bool)
  | settled (f : Nat) (cb : Bool)
  | hold (f : Nat) (cb : Bool)
  | reset (f : Nat)
  | idle
  | exited
  deriving DecidableEq, Repr

structure Worker (C : Type) where
  pc : Pc C
  cb_fiber : Option Nat
  idle_term : Bool
  deriving DecidableEq, Repr

end Scheduler

structure Scheduler (C : Type) where
  fibers : Nat → Fiber
  fiberCount : Nat
  workers : Nat → Scheduler.Worker C
  m_fibers : List (FiberAndThread C)
  m_activeThreadCount : Nat
  m_autoStop : Bool
  m_stopping : Bool
  waiting : List Nat

namespace Scheduler

variable {C : Type}

inductive Fault where
  | assertion
  | notPossible
  deriving DecidableEq, Repr

def new : Scheduler C where
  fibers := fun _ => ⟨.INIT, true⟩
  fiberCount := 0
  workers := fun _ => ⟨.loop, none, false⟩
  m_fibers := []
  m_activeThreadCount := 0
  m_autoStop := false
  m_stopping := false
  waiting := []

def getState (s : Scheduler C) (f : Nat) : FiberState :=
  (s.fibers f).m_state

def setState (s : Scheduler C) (f : Nat) (state : FiberState) : Scheduler C :=
  { s with fibers := Function.update s.fibers f { s.fibers f with m_state := state } }

def setSaved (s : Scheduler C) (f : Nat) (saved : Bool) : Scheduler C :=
  { s with fibers := Function.update s.fibers f { s.fibers f with saved := saved } }

def goto (s : Scheduler C) (w : Nat) (pc : Pc C) : Scheduler C :=
  { s with workers := Function.update s.workers w { s.workers w with pc := pc } }

def setCbFiber (s : Scheduler C) (w : Nat) (cb_fiber : Option Nat) : Scheduler C :=
  { s with workers := Function.update s.workers w { s.workers w with cb_fiber := cb_fiber } }

def schedule (s : Scheduler C) (ft : FiberAndThread C) : Scheduler C :=
  if ft.fiber.isSome || ft.cb.isSome then
    { s with m_fibers := s.m_fibers ++ [ft] }
  else
    s

def stopping (s : Scheduler C) : Bool :=
  s.m_autoStop && s.m_stopping && s.m_fibers.isEmpty && s.m_activeThreadCount == 0

def newFiber (s : Scheduler C) : Scheduler C :=
  { s with
    fibers := Function.update s.fibers s.fiberCount ⟨.INIT, true⟩
    fiberCount := s.fiberCount + 1
  }

def resetFiber (s : Scheduler C) (f : Nat) : Except Fault (Scheduler C) :=
  match s.getState f with
  | .TERM | .INIT | .EXECEP => .ok ((s.setSaved f true).setState f .INIT)
  | _ => .error .assertion

def eligible (s : Scheduler C) (w : Nat) (ft : FiberAndThread C) : Bool :=
  (ft.thread.isNone || ft.thread == some w)
    && !ft.fiber.any (fun f => s.getState f = .EXEC)

def dequeue (s : Scheduler C) (w : Nat) : Scheduler C :=
  match s.m_fibers.findIdx? (s.eligible w) with
  | some it =>
    match s.m_fibers[it]? with
    | some ft =>
      { s with
        m_fibers := s.m_fibers.eraseIdx it
        m_activeThreadCount := s.m_activeThreadCount + 1
      }.goto w (.taken ft)
    | none => s
  | none => s.goto w (if (s.workers w).idle_term then .exited else .idle)

def leave (s : Scheduler C) : Scheduler C :=
  { s with m_activeThreadCount := s.m_activeThreadCount - 1 }

def dispatch (s : Scheduler C) (w : Nat) (ft : FiberAndThread C) : Except Fault (Scheduler C) :=
  match ft.fiber.filter (fun f => s.getState f ≠ .TERM ∧ s.getState f ≠ .EXECEP), ft.cb with
  | some f, _ => .ok (s.goto w (.swapIn f false))
  | none, some _ =>
    match (s.workers w).cb_fiber with
    | some f => (s.resetFiber f).map fun s => s.goto w (.swapIn f true)
    | none => .ok ((s.newFiber.setCbFiber w (some s.fiberCount)).goto w (.swapIn s.fiberCount true))
  | none, none => .ok (s.leave.goto w .loop)

def work (s : Scheduler C) (w : Nat) : Except Fault (Scheduler C) :=
  match (s.workers w).pc with
  | .loop => .ok (s.dequeue w)
  | .taken ft => s.dispatch w ft
  | .swapIn f cb => if s.getState f = .EXEC then .error .assertion else .ok (s.goto w (.exec f cb))
  | .exec f cb => .ok ((s.setState f .EXEC).goto w (.switch f cb))
  | .switch f cb => .ok ((s.setSaved f false).goto w (.running f cb))
  | .running _ _ => .error .notPossible
  | .swapOut f cb => .ok ((s.setSaved f true).goto w (.returned f cb))
  | .returned f cb => .ok (s.leave.goto w (.settle f cb))
  | .settle f cb => .ok (s.goto w (if s.getState f = .READY then .requeue f cb else .settled f cb))
  | .requeue f cb =>
    let s := s.schedule ⟨some f, none, none⟩
    .ok ((if cb then s.setCbFiber w none else s).goto w .loop)
  | .settled f cb =>
    if s.getState f = .TERM ∨ s.getState f = .EXECEP then
      .ok (s.goto w (if cb then .reset f else .loop))
    else
      .ok (s.goto w (.hold f cb))
  | .hold f cb =>
    let s := s.setState f .HOLD
    .ok ((if cb then s.setCbFiber w none else s).goto w .loop)
  | .reset f => (s.resetFiber f).map fun s => s.goto w .loop
  | .idle =>
    let worker := { s.workers w with pc := .loop, idle_term := s.stopping }
    .ok { s with workers := Function.update s.workers w worker }
  | .exited => .error .notPossible

inductive FiberStep where
  | addEvent
  | yieldToHold
  | yieldToReady
  | term
  | except
  deriving DecidableEq, Repr

def fiberStep (s : Scheduler C) (w : Nat) (a : FiberStep) : Except Fault (Scheduler C) :=
  match (s.workers w).pc with
  | .running f cb =>
    match a with
    | .addEvent =>
      if s.getState f = .EXEC then .ok { s with waiting := s.waiting ++ [f] } else .error .assertion
    | .yieldToHold => .ok ((s.setState f .HOLD).goto w (.swapOut f cb))
    | .yieldToReady => .ok ((s.setState f .READY).goto w (.swapOut f cb))
    | .term => .ok ((s.setState f .TERM).goto w (.swapOut f cb))
    | .except => .ok ((s.setState f .EXECEP).goto w (.swapOut f cb))
  | _ => .error .notPossible

inductive Action (C : Type) where
  | work (w : Nat)
  | fiber (w : Nat) (a : FiberStep)
  | newFiber
  | schedule (ft : FiberAndThread C)
  | triggerEvent (k : Nat)
  | stop
  deriving DecidableEq, Repr

def step (s : Scheduler C) : Action C → Except Fault (Scheduler C × Unit)
  | .work w => (s.work w).map (·, ())
  | .fiber w a => (s.fiberStep w a).map (·, ())
  | .newFiber => .ok (s.newFiber, ())
  | .schedule ft =>
    if ft.fiber.all (· < s.fiberCount) then .ok (s.schedule ft, ()) else .error .notPossible
  | .triggerEvent k =>
    match s.waiting[k]? with
    | none => .error .notPossible
    | some f =>
      .ok ({ s with waiting := s.waiting.eraseIdx k }.schedule ⟨some f, none, none⟩, ())
  | .stop => .ok ({ s with m_autoStop := true, m_stopping := true }, ())

def lts (C : Type) : LTS (Scheduler C) (Action C × Unit) :=
  LTS.ofExcept step

end Scheduler
end CXS
