import CXS.Scheduler.Basic

/-!
This module contains the fibers of one thread from `code/fiber.cc`: their constructors and destructor,
`reset`, `swapIn`, `call`, `swapOut`, `back`, the two `YieldTo` functions and what `MainFunc` and
`CallerMainFunc` do when the function of the fiber ends.

A `Fiber *` is the number of the fiber, in the order of creation. The processor runs the code of one
stack, and `swapcontext` stores that code in one `ucontext_t` and goes on with the code in another one.
`saved` says for every stack which `m_ctx` holds the place it was left at; a context that was gone on
with, or whose stack was left again elsewhere, is stale. A step is a call that the running code makes,
and its result is the context that the processor goes on with.
-/

namespace CXS

namespace FiberThread

inductive Stack where
  | thread
  | own (f : Nat)
  deriving DecidableEq, Repr

inductive Entry where
  | thread
  | MainFunc
  | CallerMainFunc
  deriving DecidableEq, Repr

structure Code where
  stack : Stack
  entry : Entry
  deriving DecidableEq, Repr

-- `swapIn`, `call` and `swapOut` are behind their `swapcontext`, `ended` is the same in the last
-- `swapOut` or `back` of the function at the bottom
inductive Point where
  | constructed
  | start
  | swapIn
  | call
  | swapOut
  | ended
  deriving DecidableEq, Repr

structure Context where
  code : Code
  point : Point
  deriving DecidableEq, Repr

structure Fiber where
  m_id : Nat
  m_state : FiberState
  m_stack : Bool
  m_cb : Bool
  m_ctx : Context
  deriving DecidableEq, Repr

inductive Fault where
  | assertion
  | noFiber
  | stale
  | notPossible
  deriving DecidableEq, Repr

end FiberThread

structure FiberThread where
  fibers : Nat → Option FiberThread.Fiber
  count : Nat
  s_fiber_id : Nat
  s_fiber_count : Nat
  t_fiber : Option Nat
  t_threadFiber : Option Nat
  mainFiber : Option Nat
  cpu : FiberThread.Code
  saved : FiberThread.Stack → Option Nat

namespace FiberThread

def new : FiberThread where
  fibers := fun _ => none
  count := 0
  s_fiber_id := 0
  s_fiber_count := 0
  t_fiber := none
  t_threadFiber := none
  mainFiber := none
  cpu := ⟨.thread, .thread⟩
  saved := fun _ => none

def setFiber (t : FiberThread) (f : Nat) (x : Fiber) : FiberThread :=
  { t with fibers := Function.update t.fibers f (some x) }

def setThis (t : FiberThread) (f : Option Nat) : FiberThread :=
  { t with t_fiber := f }

-- a context with nothing of the stack behind it
def makecontext (t : FiberThread) (f : Nat) : FiberThread :=
  { t with saved := Function.update t.saved (.own f) (some f) }

-- `Fiber::Fiber()`
def createMain (t : FiberThread) : FiberThread :=
  { t with
    fibers := Function.update t.fibers t.count
      (some ⟨0, .EXEC, false, false, ⟨t.cpu, .constructed⟩⟩)
    count := t.count + 1
    s_fiber_count := t.s_fiber_count + 1
    t_fiber := some t.count
  }

-- `Fiber::Fiber(cb, stacksize, use_caller)`
def create (t : FiberThread) (cb use_caller : Bool) : FiberThread :=
  let entry := if use_caller then .CallerMainFunc else .MainFunc
  makecontext
    { t with
      fibers := Function.update t.fibers t.count
        (some ⟨t.s_fiber_id + 1, .INIT, true, cb, ⟨⟨.own t.count, entry⟩, .start⟩⟩)
      count := t.count + 1
      s_fiber_id := t.s_fiber_id + 1
      s_fiber_count := t.s_fiber_count + 1
    } t.count

def delete (t : FiberThread) (f : Nat) : Except Fault FiberThread :=
  match t.fibers f with
  | none => .error .noFiber
  | some x =>
    let t :=
      { t with fibers := Function.update t.fibers f none, s_fiber_count := t.s_fiber_count - 1 }
    if x.m_stack then
      if x.m_state = .TERM ∨ x.m_state = .EXECEP ∨ x.m_state = .INIT then .ok t else .error .assertion
    else if x.m_cb = false ∧ x.m_state = .EXEC then
      .ok (if t.t_fiber = some f then t.setThis none else t)
    else
      .error .assertion

def getThis (t : FiberThread) : FiberThread × Nat :=
  match t.t_fiber with
  | some f => (t, f)
  | none => ({ t.createMain with t_threadFiber := some t.count }, t.count)

def reset (t : FiberThread) (f : Nat) (cb : Bool) : Except Fault FiberThread :=
  match t.fibers f with
  | none => .error .noFiber
  | some x =>
    if x.m_stack ∧ (x.m_state = .TERM ∨ x.m_state = .INIT ∨ x.m_state = .EXECEP) then
      .ok ((t.setFiber f { x with
        m_cb := cb
        m_ctx := ⟨⟨.own f, .MainFunc⟩, .start⟩
        m_state := .INIT
      }).makecontext f)
    else
      .error .assertion

def setState (t : FiberThread) (f : Nat) (state : FiberState) : Except Fault FiberThread :=
  match t.fibers f with
  | none => .error .noFiber
  | some x => .ok (t.setFiber f { x with m_state := state })

-- `swapcontext(&out->m_ctx, &in->m_ctx)` in its two halves; `point` is the place it is called at
def save (t : FiberThread) (out : Option Nat) (point : Point) : Except Fault FiberThread :=
  match out with
  | none => .error .noFiber
  | some f =>
    match t.fibers f with
    | none => .error .noFiber
    | some x =>
      let t := t.setFiber f { x with m_ctx := ⟨t.cpu, point⟩ }
      .ok { t with saved := Function.update t.saved t.cpu.stack (some f) }

def resume (t : FiberThread) (f : Nat) : Except Fault (FiberThread × Context) :=
  match t.fibers f with
  | none => .error .noFiber
  | some x =>
    if t.saved x.m_ctx.code.stack = some f then
      if x.m_ctx.point = .ended then
        .error .assertion
      else
        .ok ({ t with
          cpu := x.m_ctx.code
          saved := Function.update t.saved x.m_ctx.code.stack none
        }, x.m_ctx)
    else
      .error .stale

def swapcontext (t : FiberThread) (out : Option Nat) (point : Point) (f : Nat)
    : Except Fault (FiberThread × Context) :=
  match t.save out point with
  | .error e => .error e
  | .ok t => t.resume f

def swapIn (t : FiberThread) (f : Nat) : Except Fault (FiberThread × Context) :=
  let t := t.setThis (some f)
  match t.fibers f with
  | none => .error .noFiber
  | some x =>
    if x.m_state = .EXEC then
      .error .assertion
    else
      swapcontext (t.setFiber f { x with m_state := .EXEC }) t.mainFiber .swapIn f

def call (t : FiberThread) (f : Nat) : Except Fault (FiberThread × Context) :=
  let t := t.setThis (some f)
  match t.setState f .EXEC with
  | .error e => .error e
  | .ok t => t.swapcontext t.t_threadFiber .call f

def swapOut (t : FiberThread) (f : Nat) (point : Point) : Except Fault (FiberThread × Context) :=
  match t.mainFiber with
  | none => .error .noFiber
  | some main => (t.setThis (some main)).swapcontext (some f) point main

def back (t : FiberThread) (f : Nat) (point : Point) : Except Fault (FiberThread × Context) :=
  match t.t_threadFiber with
  | none => .error .noFiber
  | some main => (t.setThis (some main)).swapcontext (some f) point main

def yieldTo (t : FiberThread) (state : FiberState) : Except Fault (FiberThread × Context) :=
  let (t, cur) := t.getThis
  match t.setState cur state with
  | .error e => .error e
  | .ok t => t.swapOut cur .swapOut

-- `MainFunc` and `CallerMainFunc` after the call of `m_cb`; the call of an empty `m_cb` throws
def finish (t : FiberThread) (returns : Bool) : Except Fault (FiberThread × Context) :=
  match t.cpu.stack with
  | .thread => .error .notPossible
  | .own f =>
    match t.fibers f with
    | none => .error .noFiber
    | some x =>
      let x := if returns ∧ x.m_cb then { x with m_cb := false, m_state := .TERM }
        else { x with m_state := .EXECEP }
      match t.cpu.entry with
      | .thread => .error .notPossible
      | .MainFunc => (t.setFiber f x).swapOut f .ended
      | .CallerMainFunc => (t.setFiber f x).back f .ended

inductive Call where
  | GetThis
  | create (cb use_caller : Bool)
  | delete (f : Nat)
  | reset (f : Nat) (cb : Bool)
  | setState (f : Nat) (state : FiberState)
  | setMainFiber (f : Nat)
  | swapIn (f : Nat)
  | call (f : Nat)
  | swapOut
  | YieldToReady
  | YieldToHold
  | finish (returns : Bool)
  deriving DecidableEq, Repr

def stays (t : Except Fault FiberThread) : Except Fault (FiberThread × Option Context) :=
  t.map fun t => (t, none)

def switches (t : Except Fault (FiberThread × Context)) : Except Fault (FiberThread × Option Context) :=
  t.map fun (t, ctx) => (t, some ctx)

def step (t : FiberThread) : Call → Except Fault (FiberThread × Option Context)
  | .GetThis => .ok (t.getThis.1, none)
  | .create cb use_caller => .ok (t.create cb use_caller, none)
  | .delete f => stays (t.delete f)
  | .reset f cb => stays (t.reset f cb)
  | .setState f state => stays (t.setState f state)
  | .setMainFiber f => .ok ({ t with mainFiber := some f }, none)
  | .swapIn f => switches (t.swapIn f)
  | .call f => switches (t.call f)
  | .swapOut => let (t, cur) := t.getThis; switches (t.swapOut cur .swapOut)
  | .YieldToReady => switches (t.yieldTo .READY)
  | .YieldToHold => switches (t.yieldTo .HOLD)
  | .finish returns => switches (t.finish returns)

def lts : LTS FiberThread (Call × Option Context) :=
  LTS.ofExcept step

end FiberThread

end CXS
