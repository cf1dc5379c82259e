import Mathlib.Algebra.Ring.Nat
import CXS.Util.LTS
import Mathlib.Logic.Function.Basic

/-!
This module contains `IOManager` from `code/iomanager.cc`, without its timers and its worker threads.

The only bits that occur in `FdContext::events` are those of `READ` and `WRITE`. A pointer to an
`FdContext` is its place in `m_fdContexts`. `scheduler` is left uninitialized by `new FdContext`, so
its first value is arbitrary. The state also holds the interest list of the kernel, the results of
`epoll_wait` that each thread has still to handle and everything that was put on the queue of a
scheduler, in order. Every call of `epoll_ctl` may fail, which is up to the argument `ctl`.
-/

namespace CXS

inductive Event where
  | READ
  | WRITE
  deriving DecidableEq, Repr

structure Events where
  read : Bool
  write : Bool
  deriving DecidableEq, Repr

namespace Events

def NONE : Events :=
  ⟨false, false⟩

def has (es : Events) : Event → Bool
  | .READ => es.read
  | .WRITE => es.write

def add (es : Events) : Event → Events
  | .READ => { es with read := true }
  | .WRITE => { es with write := true }

def remove (es : Events) : Event → Events
  | .READ => { es with read := false }
  | .WRITE => { es with write := false }

def inter (es real : Events) : Events :=
  ⟨es.read && real.read, es.write && real.write⟩

def diff (es real : Events) : Events :=
  ⟨es.read && !real.read, es.write && !real.write⟩

end Events

structure EpollBits where
  EPOLLIN : Bool
  EPOLLOUT : Bool
  EPOLLERR : Bool
  EPOLLHUP : Bool
  deriving DecidableEq, Repr

inductive EpollData where
  | fd
  | ptr (fd_ctx : Nat)
  deriving DecidableEq, Repr

structure Interest where
  events : Events
  data : EpollData
  deriving DecidableEq, Repr

inductive EpollOp where
  | ADD
  | MOD
  | DEL
  deriving DecidableEq, Repr

abbrev InterestList :=
  Nat → Option Interest

def epoll_ctl (epoll : InterestList) (op : EpollOp) (fd : Nat) (event : Interest) (ctl : Bool)
    : Option InterestList :=
  if ctl then
    match op, epoll fd with
    | .ADD, none => some (Function.update epoll fd (some event))
    | .MOD, some _ => some (Function.update epoll fd (some event))
    | .DEL, some _ => some (Function.update epoll fd none)
    | _, _ => none
  else
    none

-- the kernel reports `EPOLLERR` and `EPOLLHUP` also when they were not asked for
def Reportable (epoll : InterestList) (fd : Nat) (bits : EpollBits) : Bool :=
  match epoll fd with
  | none => false
  | some interest =>
    (!bits.EPOLLIN || interest.events.read) && (!bits.EPOLLOUT || interest.events.write)

variable {S F C : Type}

inductive Task (F C : Type) where
  | fiber (fiber : F)
  | cb (cb : C)
  deriving DecidableEq, Repr

structure EventContext (S F C : Type) where
  scheduler : Option S
  fiber : Option F
  cb : Option C
  deriving DecidableEq, Repr

structure FdContext (S F C : Type) where
  fd : Nat
  read : EventContext S F C
  write : EventContext S F C
  events : Events
  deriving DecidableEq, Repr

structure Scheduled (S F C : Type) where
  fd : Nat
  event : Event
  scheduler : S
  task : Task F C
  deriving DecidableEq, Repr

inductive Fault where
  | assertion
  | nullScheduler
  | outOfBounds
  | badAlloc
  | noResult
  deriving DecidableEq, Repr

namespace EventContext

def empty : EventContext S F C :=
  ⟨none, none, none⟩

def new (garbage : Option S) : EventContext S F C :=
  ⟨garbage, none, none⟩

def isEmpty (ctx : EventContext S F C) : Bool :=
  ctx.scheduler.isNone && ctx.fiber.isNone && ctx.cb.isNone

-- what `schedule(&ctx.cb)` or `schedule(&ctx.fiber)` swaps out of the slot, and what it leaves
-- there
def take (ctx : EventContext S F C) : Option (Task F C) × EventContext S F C :=
  match ctx.cb with
  | some cb => (some (.cb cb), { ctx with cb := none })
  | none => (ctx.fiber.map .fiber, { ctx with fiber := none })

end EventContext

namespace FdContext

def new (fd : Nat) (garbage : Event → Option S) : FdContext S F C where
  fd := fd
  read := .new (garbage .READ)
  write := .new (garbage .WRITE)
  events := .NONE

def getContext (fd_ctx : FdContext S F C) : Event → EventContext S F C
  | .READ => fd_ctx.read
  | .WRITE => fd_ctx.write

def setContext (fd_ctx : FdContext S F C) (ctx : EventContext S F C) : Event → FdContext S F C
  | .READ => { fd_ctx with read := ctx }
  | .WRITE => { fd_ctx with write := ctx }

def resetContext (fd_ctx : FdContext S F C) (event : Event) : FdContext S F C :=
  fd_ctx.setContext .empty event

def triggerEvent (fd_ctx : FdContext S F C) (event : Event)
    : Except Fault (FdContext S F C × List (Scheduled S F C)) :=
  if !fd_ctx.events.has event then
    .error .assertion
  else
    let fd_ctx := { fd_ctx with events := fd_ctx.events.remove event }
    let ctx := fd_ctx.getContext event
    match ctx.scheduler with
    | none => .error .nullScheduler
    | some scheduler =>
      let (task, ctx) := ctx.take
      let fd_ctx := fd_ctx.setContext { ctx with scheduler := none } event
      .ok (fd_ctx, task.toList.map (fun task => ⟨fd_ctx.fd, event, scheduler, task⟩))

end FdContext

structure IOManager (S F C : Type) where
  m_tickleFd : Nat
  m_pendingEventCount : Nat
  m_fdContexts : List (FdContext S F C)
  epoll : InterestList
  results : Nat → List (EpollData × EpollBits)
  scheduled : List (Scheduled S F C)

namespace IOManager

def increment (n : Nat) : Nat :=
  (n + 1) % 2 ^ 64

def decrement (n : Nat) : Nat :=
  (n + 2 ^ 64 - 1) % 2 ^ 64

def freshContexts (m_fdContexts : List (FdContext S F C)) (size : Nat)
    (garbage : Nat → Event → Option S) : List (FdContext S F C) :=
  (List.range' m_fdContexts.length (size - m_fdContexts.length)).map
    (fun i => FdContext.new i (garbage i))

-- there is no memory for `2 ^ 31` contexts, so the size always fits an `int`
def contextResize (m : IOManager S F C) (size : Nat) (garbage : Nat → Event → Option S)
    : Except Fault (IOManager S F C) :=
  if size < 2 ^ 31 then
    let m_fdContexts := m.m_fdContexts.take size ++ freshContexts m.m_fdContexts size garbage
    .ok { m with m_fdContexts := m_fdContexts }
  else
    .error .badAlloc

def new (tickleFd : Nat) (garbage : Nat → Event → Option S) : IOManager S F C where
  m_tickleFd := tickleFd
  m_pendingEventCount := 0
  m_fdContexts := freshContexts [] 32 garbage
  epoll := Function.update (fun _ => none) tickleFd (some ⟨⟨true, false⟩, .fd⟩)
  results := fun _ => []
  scheduled := []

-- what `addEvent` reads of the thread that calls it: `Scheduler::GetThis()`, `Fiber::GetThis()`
-- and whether the state of this fiber is `EXEC`
structure Caller (S F : Type) where
  scheduler : Option S
  fiber : F
  exec : Bool
  deriving DecidableEq, Repr

def Caller.context (caller : Caller S F) (cb : Option C) : EventContext S F C :=
  match cb with
  | some cb => ⟨caller.scheduler, none, some cb⟩
  | none => ⟨caller.scheduler, some caller.fiber, none⟩

def addEventAt (m : IOManager S F C) (caller : Caller S F) (fd : Nat) (event : Event)
    (cb : Option C) (ctl : Bool) : Except Fault (IOManager S F C × Int) :=
  match m.m_fdContexts[fd]? with
  | none => .error .outOfBounds
  | some fd_ctx =>
    if fd_ctx.events.has event then
      .error .assertion
    else
      let op := if fd_ctx.events = .NONE then EpollOp.ADD else .MOD
      let events := fd_ctx.events.add event
      match epoll_ctl m.epoll op fd ⟨events, .ptr fd⟩ ctl with
      | none => .ok (m, -1)
      | some epoll =>
        if !(fd_ctx.getContext event).isEmpty then
          .error .assertion
        else if cb.isNone && !caller.exec then
          .error .assertion
        else
          let fd_ctx := { fd_ctx with events := events }.setContext (caller.context cb) event
          .ok ({ m with
              m_pendingEventCount := increment m.m_pendingEventCount
              m_fdContexts := m.m_fdContexts.set fd fd_ctx
              epoll := epoll
            }, 0)

def addEvent (m : IOManager S F C) (caller : Caller S F) (fd : Int) (event : Event)
    (cb : Option C) (garbage : Nat → Event → Option S) (ctl : Bool)
    : Except Fault (IOManager S F C × Int) :=
  if fd < m.m_fdContexts.length then
    if fd < 0 then
      .error .outOfBounds
    else
      m.addEventAt caller fd.toNat event cb ctl
  else
    (m.contextResize (fd.toNat * 3 / 2) garbage).bind fun m =>
      m.addEventAt caller fd.toNat event cb ctl

def withdraw (m : IOManager S F C) (fd : Int) (registered : Events → Bool) (left : Events → Events)
    (ctl : Bool)
    (k : FdContext S F C → IOManager S F C → Except Fault (IOManager S F C × Bool))
    : Except Fault (IOManager S F C × Bool) :=
  if m.m_fdContexts.length ≤ fd then
    .ok (m, false)
  else if fd < 0 then
    .error .outOfBounds
  else
    match m.m_fdContexts[fd.toNat]? with
    | none => .error .outOfBounds
    | some fd_ctx =>
      if !registered fd_ctx.events then
        .ok (m, false)
      else
        let new_events := left fd_ctx.events
        let op := if new_events = .NONE then EpollOp.DEL else .MOD
        match epoll_ctl m.epoll op fd.toNat ⟨new_events, .ptr fd.toNat⟩ ctl with
        | none => .ok (m, false)
        | some epoll => k fd_ctx { m with epoll := epoll }

def delEvent (m : IOManager S F C) (fd : Int) (event : Event) (ctl : Bool)
    : Except Fault (IOManager S F C × Bool) :=
  m.withdraw fd (·.has event) (·.remove event) ctl fun fd_ctx m =>
    let fd_ctx := { fd_ctx with events := fd_ctx.events.remove event }.resetContext event
    .ok ({ m with
        m_fdContexts := m.m_fdContexts.set fd.toNat fd_ctx
        m_pendingEventCount := decrement m.m_pendingEventCount
      }, true)

-- `if (trigger) { fd_ctx->triggerEvent(event); --m_pendingEventCount; }`
def triggerIf (m : IOManager S F C) (fd_ctx : Nat) (trigger : Events → Bool) (event : Event)
    : Except Fault (IOManager S F C) :=
  match m.m_fdContexts[fd_ctx]? with
  | none => .error .outOfBounds
  | some ctx =>
    if trigger ctx.events then
      (ctx.triggerEvent event).map fun (ctx, scheduled) =>
        { m with
          m_fdContexts := m.m_fdContexts.set fd_ctx ctx
          m_pendingEventCount := decrement m.m_pendingEventCount
          scheduled := m.scheduled ++ scheduled
        }
    else
      .ok m

def cancelEvent (m : IOManager S F C) (fd : Int) (event : Event) (ctl : Bool)
    : Except Fault (IOManager S F C × Bool) :=
  m.withdraw fd (·.has event) (·.remove event) ctl fun _ m =>
    (m.triggerIf fd.toNat (fun _ => true) event).map (·, true)

def cancelAll (m : IOManager S F C) (fd : Int) (ctl : Bool)
    : Except Fault (IOManager S F C × Bool) :=
  m.withdraw fd (· ≠ .NONE) (fun _ => .NONE) ctl fun _ m =>
    (m.triggerIf fd.toNat (·.has .READ) .READ).bind fun m =>
    (m.triggerIf fd.toNat (·.has .WRITE) .WRITE).bind fun m =>
    if (m.m_fdContexts[fd.toNat]?).all (·.events = .NONE) then
      .ok (m, true)
    else
      .error .assertion

def realEvents (bits : EpollBits) : Events :=
  let bits :=
    if bits.EPOLLERR || bits.EPOLLHUP then
      { bits with EPOLLIN := true, EPOLLOUT := true }
    else
      bits
  ⟨bits.EPOLLIN, bits.EPOLLOUT⟩

def dispatch (m : IOManager S F C) (data : EpollData) (bits : EpollBits) (ctl : Bool)
    : Except Fault (IOManager S F C × Events) :=
  match data with
  | .fd => .ok (m, .NONE)
  | .ptr i =>
    match m.m_fdContexts[i]? with
    | none => .error .outOfBounds
    | some fd_ctx =>
      let real_events := realEvents bits
      if fd_ctx.events.inter real_events = .NONE then
        .ok (m, .NONE)
      else
        let left_events := fd_ctx.events.diff real_events
        let op := if left_events = .NONE then EpollOp.DEL else .MOD
        match epoll_ctl m.epoll op fd_ctx.fd ⟨left_events, data⟩ ctl with
        | none => .ok (m, .NONE)
        | some epoll =>
          ({ m with epoll := epoll }.triggerIf i (fun _ => real_events.has .READ) .READ).bind fun m =>
          (m.triggerIf i (fun _ => real_events.has .WRITE) .WRITE).map (·, real_events)

def epoll_wait (m : IOManager S F C) (thread : Nat) (ready : List (Nat × EpollBits))
    : Except Fault (IOManager S F C × Nat) :=
  if (m.results thread).isEmpty && ready.length ≤ 64 && (ready.map Prod.fst).Nodup
      && ready.all (fun (fd, bits) => Reportable m.epoll fd bits) then
    let results := ready.filterMap (fun (fd, bits) => (m.epoll fd).map (fun i => (i.data, bits)))
    .ok ({ m with results := Function.update m.results thread results }, results.length)
  else
    .error .noResult

def handleResult (m : IOManager S F C) (thread : Nat) (ctl : Bool)
    : Except Fault (IOManager S F C × Events) :=
  match m.results thread with
  | [] => .error .noResult
  | (data, bits) :: rest =>
    { m with results := Function.update m.results thread rest }.dispatch data bits ctl

inductive Call (S F C : Type) where
  | addEvent (caller : Caller S F) (fd : Int) (event : Event) (cb : Option C)
      (garbage : Nat → Event → Option S) (ctl : Bool)
  | delEvent (fd : Int) (event : Event) (ctl : Bool)
  | cancelEvent (fd : Int) (event : Event) (ctl : Bool)
  | cancelAll (fd : Int) (ctl : Bool)
  | epoll_wait (thread : Nat) (ready : List (Nat × EpollBits))
  | handleResult (thread : Nat) (ctl : Bool)

inductive Result where
  | int (rt : Int)
  | bool (ret : Bool)
  | ready (n : Nat)
  | triggered (events : Events)
  deriving DecidableEq, Repr

def call (m : IOManager S F C) : Call S F C → Except Fault (IOManager S F C × Result)
  | .addEvent caller fd event cb garbage ctl =>
    (m.addEvent caller fd event cb garbage ctl).map fun (m, rt) => (m, .int rt)
  | .delEvent fd event ctl => (m.delEvent fd event ctl).map fun (m, ret) => (m, .bool ret)
  | .cancelEvent fd event ctl => (m.cancelEvent fd event ctl).map fun (m, ret) => (m, .bool ret)
  | .cancelAll fd ctl => (m.cancelAll fd ctl).map fun (m, ret) => (m, .bool ret)
  | .epoll_wait thread ready => (m.epoll_wait thread ready).map fun (m, n) => (m, .ready n)
  | .handleResult thread ctl =>
    (m.handleResult thread ctl).map fun (m, events) => (m, .triggered events)

def lts (S F C : Type) : LTS (IOManager S F C) (Call S F C × Result) :=
  LTS.ofExcept call

end IOManager
end CXS
