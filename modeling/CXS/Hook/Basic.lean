import CXS.IOManager.Waiters
import CXS.Timer.Sections

/-!
This module contains `do_io`, `connect_with_timeout`, `close`, `socket` and `accept` from
`code/hook.cc` together with `FdCtx` and `FdManager` from `code/fd_manager.cc`.

One fiber is in `do_io` or `connect_with_timeout`, and everything it shares is changed by other
threads at any point between two of its steps: they collect timers and run the callbacks, dispatch
events, run other tasks and call `close`, `socket` and `accept`. A step is what is done under one
lock or in one system call. A worker that takes a task removes it from `scheduled`, which is
therefore the queue here. The results of system calls are up to the arguments of the step.
-/

namespace CXS

def EBADF : Nat := 9
def EAGAIN : Nat := 11
def EINTR : Nat := 4
def ETIMEDOUT : Nat := 110
def EINPROGRESS : Nat := 115

def forever : Nat := 2 ^ 64 - 1

inductive TimeoutSo where
  | SO_RCVTIMEO
  | SO_SNDTIMEO
  deriving DecidableEq, Repr

-- an open file of the kernel, which descriptors refer to by number
structure File where
  id : Nat
  isSocket : Bool
  deriving DecidableEq, Repr

structure FdCtx where
  m_isInit : Bool
  m_isSocket : Bool
  m_sysNonbool : Bool
  m_isClose : Bool
  m_userNonblock : Bool
  m_recvTimeout : Nat
  m_sendTimeout : Nat
  m_fd : Int
  deriving DecidableEq, Repr

namespace FdCtx

def new (fd : Int) (stat : Option File) : FdCtx where
  m_isInit := stat.isSome
  m_isSocket := stat.any File.isSocket
  m_sysNonbool := stat.any File.isSocket
  m_isClose := false
  m_userNonblock := false
  m_recvTimeout := forever
  m_sendTimeout := forever
  m_fd := fd

def setTimeout (ctx : FdCtx) (type : TimeoutSo) (v : Nat) : FdCtx :=
  match type with
  | .SO_RCVTIMEO => { ctx with m_recvTimeout := v }
  | .SO_SNDTIMEO => { ctx with m_sendTimeout := v }

def getTimeout (ctx : FdCtx) : TimeoutSo → Nat
  | .SO_RCVTIMEO => ctx.m_recvTimeout
  | .SO_SNDTIMEO => ctx.m_sendTimeout

end FdCtx

/--
A `FdCtx::ptr` is the place of the object in `ctxs`, which lists all of them in the order of their
creation. An object stays there when `m_datas` lets go of it, as another owner may still read it.
-/
structure FdManager where
  ctxs : List FdCtx
  m_datas : List (Option Nat)
  deriving DecidableEq, Repr

namespace FdManager

def new : FdManager where
  ctxs := []
  m_datas := List.replicate 64 none

-- `get(fd)`, and the part of `get(fd, true)` under the read lock
def get (m : FdManager) (fd : Int) : Except Fault (Option Nat) :=
  if m.m_datas.length ≤ fd then
    .ok none
  else if fd < 0 then
    .error .outOfBounds
  else
    .ok m.m_datas[fd.toNat]?.join

-- the part of `get(fd, true)` under the write lock, which does not look at the entry again
def create (m : FdManager) (fd : Int) (stat : Option File) : Except Fault FdManager :=
  if fd < 0 then
    .error .outOfBounds
  else
    let m_datas :=
      if m.m_datas.length ≤ fd then
        m.m_datas ++ List.replicate (fd.toNat * 3 / 2 - m.m_datas.length) none
      else
        m.m_datas
    .ok { ctxs := m.ctxs ++ [.new fd stat], m_datas := m_datas.set fd.toNat (some m.ctxs.length) }

def del (m : FdManager) (fd : Int) : Except Fault FdManager :=
  if m.m_datas.length ≤ fd then
    .ok m
  else if fd < 0 then
    .error .outOfBounds
  else
    .ok { m with m_datas := m.m_datas.set fd.toNat none }

end FdManager

-- what a timer calls. `timeout` is the callback that `do_io` and `connect_with_timeout` bind to
-- `OnTimer`.
inductive TimerCb (C : Type) where
  | timeout (winfo : Nat) (fd : Int) (event : Event)
  | other (cb : C)
  deriving DecidableEq, Repr

def TimerCb.isOther {C : Type} : TimerCb C → Bool
  | .timeout _ _ _ => false
  | .other _ => true

-- a collected callback that has not returned yet, before it tests `cancelled` or after it has set it
inductive Collected (C : Type) where
  | ready (cb : TimerCb C)
  | cancelling (winfo : Nat) (fd : Int) (event : Event)
  deriving DecidableEq, Repr

-- the `timer_info` of one call, which a `weak_ptr` refers to by `addr`
structure TimerInfo where
  addr : Nat
  cancelled : Nat
  deriving DecidableEq, Repr

inductive HookFun where
  | do_io (event : Event) (timeout_so : TimeoutSo)
  | connect_with_timeout (timeout_ms : Nat)
  deriving DecidableEq, Repr

def HookFun.event : HookFun → Event
  | .do_io event _ => event
  | .connect_with_timeout _ => .WRITE

def HookFun.isConnect : HookFun → Bool
  | .do_io _ _ => false
  | .connect_with_timeout _ => true

inductive Pc where
  | get
  | check (ctx : Nat)
  | direct
  | origin
  | addTimer
  | addEvent (timer : Option Nat)
  | YieldToHold (timer : Option Nat)
  | hold (timer : Option Nat)
  | cancel (timer : Option Nat)
  | test
  | giveUp (timer : Option Nat)
  | getsockopt
  deriving DecidableEq, Repr

structure Activation where
  fn : HookFun
  fd : Int
  file : Option File
  timeout : Nat
  tinfo : Option TimerInfo
  pc : Pc
  deriving DecidableEq, Repr

inductive ClosePc where
  | cancelAll
  | del
  | close_f
  deriving DecidableEq, Repr

inductive Peer where
  | out
  | close (fd : Int) (pc : ClosePc)
  | get (fd : Int)
  | create (fd : Int)
  deriving DecidableEq, Repr

structure Hook (S F C : Type) where
  iom : IOManager S F C
  timers : TimerManager (TimerCb C)
  cbs : List (Collected C)
  fds : FdManager
  files : Int → Option File
  opened : Nat
  infos : Nat
  peers : Nat → Peer
  call : Option Activation
  errno : Nat

namespace Hook

inductive Halt where
  | fault (fault : Fault)
  | timers (fault : TimerManager.Fault)
  | disabled
  deriving DecidableEq, Repr

inductive FiberStep (S : Type) where
  | enter (fn : HookFun) (fd : Int) (t_hook_enable : Bool)
  | get
  | check
  | origin (n : Int) (errno : Nat)
  | addTimer (addr now : Nat)
  | addEvent (garbage : Nat → Event → Option S) (ctl : Bool) (errno : Nat)
  | YieldToHold
  | resume (place : Nat)
  | cancel
  | test
  | getsockopt (rt : Int) (error errno : Nat)

inductive PeerStep where
  | close (fd : Int) (t_hook_enable hasIom : Bool)
  | cancelAll (ctl : Bool)
  | del
  | close_f
  | open (fd : Int) (isSocket t_hook_enable : Bool)
  | get
  | create
  | setTimeout (ctx : Nat) (type : TimeoutSo) (v : Nat)
  | setUserNonblock (ctx : Nat) (v : Bool)
  deriving DecidableEq, Repr

inductive Act (S F C : Type) where
  | fiber (step : FiberStep S)
  | collect (now addr : Nat)
  | runCb (place : Nat)
  | cancelEvent (place : Nat) (ctl : Bool)
  | timers (c : TimerManager.Call (TimerCb C))
  | iom (c : IOManager.Call S F C)
  | take (place : Nat)
  | peer (th : Nat) (step : PeerStep)

variable {S F C : Type}

-- the state after a step, and what the call returned if it did
abbrev Next (S F C : Type) :=
  Except Halt (Hook S F C × Option Int)

def onIom (s : Hook S F C) (c : IOManager.Call S F C)
    (k : Hook S F C → IOManager.Result → Hook S F C × Option Int) : Next S F C :=
  match s.iom.call c with
  | .error fault => .error (.fault fault)
  | .ok (iom, r) => .ok (k { s with iom := iom } r)

def onTimers (s : Hook S F C) (c : TimerManager.Call (TimerCb C))
    (k : Hook S F C → TimerManager.Result (TimerCb C) → Hook S F C × Option Int) : Next S F C :=
  match s.timers.callLocked c with
  | none => .error .disabled
  | some (.error fault) => .error (.timers fault)
  | some (.ok (timers, r)) => .ok (k { s with timers := timers } r)

def onFds (s : Hook S F C) (fds : Except Fault FdManager) (k : Hook S F C → Hook S F C)
    : Next S F C :=
  match fds with
  | .error fault => .error (.fault fault)
  | .ok fds => .ok (k { s with fds := fds }, none)

def goto (s : Hook S F C) (a : Activation) (pc : Pc) : Hook S F C × Option Int :=
  ({ s with call := some { a with pc := pc } }, none)

def leave (s : Hook S F C) (n : Int) (errno : Nat) : Hook S F C × Option Int :=
  ({ s with call := none, errno := errno }, some n)

def newInfo (s : Hook S F C) (a : Activation) (pc : Pc) : Hook S F C × Option Int :=
  { s with infos := s.infos + 1 }.goto { a with tinfo := some ⟨s.infos, 0⟩ } pc

-- `if (timer) { timer->cancel(); }`
def cancelTimer (s : Hook S F C) (timer : Option Nat)
    (k : Hook S F C → Hook S F C × Option Int) : Next S F C :=
  match timer with
  | none => .ok (k s)
  | some t => s.onTimers (.cancel t) fun s _ => k s

def originNext (s : Hook S F C) (a : Activation) (n : Int) (errno : Nat) : Hook S F C × Option Int :=
  match a.fn with
  | .do_io _ _ =>
    if n = -1 ∧ errno = EINTR then
      s.goto a .origin
    else if n = -1 ∧ errno = EAGAIN then
      { s with errno := 0 }.goto a .addTimer
    else
      s.leave n errno
  | .connect_with_timeout _ =>
    if n = 0 then
      s.leave 0 errno
    else if n ≠ -1 ∨ errno ≠ EINPROGRESS then
      s.leave n errno
    else
      s.newInfo a .addTimer

def checkNext (s : Hook S F C) (a : Activation) (ctx : FdCtx) : Hook S F C × Option Int :=
  if ctx.m_isClose then
    s.leave (-1) EBADF
  else if !ctx.m_isSocket || ctx.m_userNonblock then
    s.goto a .direct
  else
    match a.fn with
    | .do_io _ timeout_so => s.newInfo { a with timeout := ctx.getTimeout timeout_so } .origin
    | .connect_with_timeout timeout_ms => s.goto { a with timeout := timeout_ms } .origin

def testNext (s : Hook S F C) (a : Activation) (info : TimerInfo) : Hook S F C × Option Int :=
  if info.cancelled ≠ 0 then
    s.leave (-1) info.cancelled
  else
    match a.fn with
    | .do_io _ _ => s.goto a .origin
    | .connect_with_timeout _ => s.goto a .getsockopt

def isFiber [DecidableEq F] (fiber : F) : Task F C → Bool
  | .fiber f => f == fiber
  | .cb _ => false

def fiberNext [DecidableEq F] (fiber : F) (scheduler : S) (s : Hook S F C) (a : Activation)
    : Pc → FiberStep S → Next S F C
  | .get, .get =>
    match s.fds.get a.fd with
    | .error fault => .error (.fault fault)
    | .ok (some ctx) => .ok (s.goto a (.check ctx))
    | .ok none =>
      match a.fn with
      | .do_io _ _ => .ok (s.goto a .direct)
      | .connect_with_timeout _ => .ok (s.leave (-1) EBADF)
  | .check i, .check =>
    match s.fds.ctxs[i]? with
    | none => .error .disabled
    | some ctx => .ok (s.checkNext a ctx)
  | .direct, .origin n errno => .ok (s.leave n errno)
  | .origin, .origin n errno => .ok (s.originNext a n errno)
  | .addTimer, .addTimer addr now =>
    match a.tinfo with
    | none => .error .disabled
    | some info =>
      if a.timeout ≠ forever then
        s.onTimers (.addTimer addr a.timeout (.timeout info.addr a.fd a.fn.event) false now) fun s r =>
          match r with
          | .timer t _ => s.goto a (.addEvent (some t))
          | _ => s.goto a (.addEvent none)
      else
        .ok (s.goto a (.addEvent none))
  | .addEvent timer, .addEvent garbage ctl errno =>
    s.onIom (.addEvent ⟨some scheduler, fiber, true⟩ a.fd a.fn.event none garbage ctl) fun s r =>
      if r = .int 0 then
        s.goto a (.YieldToHold timer)
      else
        { s with errno := errno }.goto a (.giveUp timer)
  | .YieldToHold timer, .YieldToHold => .ok (s.goto a (.hold timer))
  | .hold timer, .resume place =>
    if (s.iom.scheduled[place]?).any (fun x => isFiber fiber x.task) then
      .ok ({ s with iom := { s.iom with scheduled := s.iom.scheduled.eraseIdx place } }.goto a
        (.cancel timer))
    else
      .error .disabled
  | .cancel timer, .cancel => s.cancelTimer timer fun s => s.goto a .test
  | .test, .test =>
    match a.tinfo with
    | none => .error .disabled
    | some info => .ok (s.testNext a info)
  | .giveUp timer, .cancel =>
    s.cancelTimer timer fun s =>
      match a.fn with
      | .do_io _ _ => s.leave (-1) s.errno
      | .connect_with_timeout _ => s.goto a .getsockopt
  | .getsockopt, .getsockopt rt error errno =>
    if rt = -1 then
      .ok (s.leave (-1) errno)
    else if error = 0 then
      .ok (s.leave 0 s.errno)
    else
      .ok (s.leave (-1) error)
  | _, _ => .error .disabled

def enter (s : Hook S F C) (fn : HookFun) (fd : Int) (t_hook_enable : Bool) : Hook S F C :=
  { s with
    call := some
      {
        fn := fn
        fd := fd
        file := s.files fd
        timeout := forever
        tinfo := none
        pc := if t_hook_enable then .get else .direct
      }
  }

def fiberStep [DecidableEq F] (fiber : F) (scheduler : S) (s : Hook S F C) (step : FiberStep S)
    : Next S F C :=
  match s.call, step with
  | none, .enter fn fd t_hook_enable => .ok (s.enter fn fd t_hook_enable, none)
  | some a, step => s.fiberNext fiber scheduler a a.pc step
  | none, _ => .error .disabled

-- `winfo.lock()`, which fails once the call that owns the `timer_info` has returned
def lock (s : Hook S F C) (winfo : Nat) : Option (Activation × TimerInfo) :=
  s.call.bind fun a => (a.tinfo.filter (·.addr == winfo)).map (a, ·)

-- a callback up to `t->cancelled = ETIMEDOUT`. What the other callbacks do is the steps of other
-- threads.
def runCb (s : Hook S F C) (place : Nat) : Next S F C :=
  match s.cbs[place]? with
  | some (.ready (.timeout winfo fd event)) =>
    match s.lock winfo with
    | none => .ok ({ s with cbs := s.cbs.eraseIdx place }, none)
    | some (a, info) =>
      if info.cancelled ≠ 0 then
        .ok ({ s with cbs := s.cbs.eraseIdx place }, none)
      else
        .ok ({ s with
            cbs := s.cbs.set place (.cancelling winfo fd event)
            call := some { a with tinfo := some { info with cancelled := ETIMEDOUT } }
          }, none)
  | some (.ready (.other _)) => .ok ({ s with cbs := s.cbs.eraseIdx place }, none)
  | _ => .error .disabled

def cancelEvent (s : Hook S F C) (place : Nat) (ctl : Bool) : Next S F C :=
  match s.cbs[place]? with
  | some (.cancelling _ fd event) =>
    { s with cbs := s.cbs.eraseIdx place }.onIom (.cancelEvent fd event ctl) fun s _ => (s, none)
  | _ => .error .disabled

-- the section of `listExpiredTimer` under the write lock. `idle` hands on what it took, without the
-- empty functions.
def collect (s : Hook S F C) (now addr : Nat) : Next S F C :=
  match s.timers.takeExpired now addr with
  | .error fault => .error (.timers fault)
  | .ok (timers, _, cbs) =>
    .ok ({ s with timers := timers, cbs := s.cbs ++ cbs.filterMap (·.map .ready) }, none)

-- the fiber shows its timers to nobody
def foreignTimer (heap : List (Timer (TimerCb C))) (t : Nat) : Bool :=
  (heap[t]?.bind Timer.m_cb).all TimerCb.isOther

def foreignTimers (heap : List (Timer (TimerCb C))) : TimerManager.Call (TimerCb C) → Bool
  | .addTimer _ _ cb _ _ => cb.isOther
  | .cancel t => foreignTimer heap t
  | .refresh t _ => foreignTimer heap t
  | .reset t _ _ _ => foreignTimer heap t
  | .getNextTimer _ => true
  | .listExpiredTimer _ _ => false

-- nothing calls `delEvent`
def foreignCall [DecidableEq F] (fiber : F) : IOManager.Call S F C → Bool
  | .addEvent caller _ _ _ _ _ => caller.fiber != fiber
  | .delEvent _ _ _ => false
  | _ => true

def setPeer (s : Hook S F C) (th : Nat) (peer : Peer) : Hook S F C :=
  { s with peers := Function.update s.peers th peer }

def setCtx (s : Hook S F C) (i : Nat) (f : FdCtx → FdCtx) : Hook S F C :=
  { s with fds := { s.fds with ctxs := s.fds.ctxs.modify i f } }

def closeNext (s : Hook S F C) (fd : Int) (t_hook_enable hasIom : Bool) : Except Fault ClosePc :=
  if !t_hook_enable then
    .ok .close_f
  else
    (s.fds.get fd).map fun ctx =>
      if ctx.isNone then .close_f else if hasIom then .cancelAll else .del

def peerNext (s : Hook S F C) (th : Nat) : Peer → PeerStep → Next S F C
  | .out, .close fd t_hook_enable hasIom =>
    match s.closeNext fd t_hook_enable hasIom with
    | .error fault => .error (.fault fault)
    | .ok pc => .ok (s.setPeer th (.close fd pc), none)
  | .close fd .cancelAll, .cancelAll ctl =>
    s.onIom (.cancelAll fd ctl) fun s _ => (s.setPeer th (.close fd .del), none)
  | .close fd .del, .del => s.onFds (s.fds.del fd) fun s => s.setPeer th (.close fd .close_f)
  | .close fd .close_f, .close_f =>
    .ok ({ s with files := Function.update s.files fd none }.setPeer th .out, none)
  | .out, .open fd isSocket t_hook_enable =>
    if (s.files fd).isNone then
      .ok ({ s with
          files := Function.update s.files fd (some ⟨s.opened, isSocket⟩)
          opened := s.opened + 1
        }.setPeer th (if t_hook_enable then .get fd else .out), none)
    else
      .error .disabled
  | .get fd, .get =>
    match s.fds.get fd with
    | .error fault => .error (.fault fault)
    | .ok (some _) => .ok (s.setPeer th .out, none)
    | .ok none => .ok (s.setPeer th (.create fd), none)
  | .create fd, .create => s.onFds (s.fds.create fd (s.files fd)) fun s => s.setPeer th .out
  | _, .setTimeout ctx type v => .ok (s.setCtx ctx (·.setTimeout type v), none)
  | _, .setUserNonblock ctx v => .ok (s.setCtx ctx ({ · with m_userNonblock := v }), none)
  | _, _ => .error .disabled

def step [DecidableEq F] (fiber : F) (scheduler : S) (s : Hook S F C) : Act S F C → Next S F C
  | .fiber step => s.fiberStep fiber scheduler step
  | .collect now addr => s.collect now addr
  | .runCb place => s.runCb place
  | .cancelEvent place ctl => s.cancelEvent place ctl
  | .timers c =>
    if foreignTimers s.timers.heap c then
      s.onTimers c fun s _ => (s, none)
    else
      .error .disabled
  | .iom c =>
    if foreignCall fiber c then
      s.onIom c fun s _ => (s, none)
    else
      .error .disabled
  | .take place =>
    if (s.iom.scheduled[place]?).any (fun x => !isFiber fiber x.task) then
      .ok ({ s with iom := { s.iom with scheduled := s.iom.scheduled.eraseIdx place } }, none)
    else
      .error .disabled
  | .peer th step => s.peerNext th (s.peers th) step

def lts [DecidableEq F] (fiber : F) (scheduler : S) (C : Type)
    : LTS (Hook S F C) (Act S F C × Option Int) :=
  LTS.ofExcept (step fiber scheduler)

-- no call has begun. The descriptors that are open already have files of their own.
structure Init (s : Hook S F C) : Prop where
  iom : s.iom.Init
  timers : ∃ now, s.timers = .new now
  cbs : s.cbs = []
  fds : s.fds = .new
  files : ∀ fd file, s.files fd = some file → file.id < s.opened
  peers : ∀ th, s.peers th = .out
  call : s.call = none

def start (tickleFd now : Nat) (garbage : Nat → Event → Option S) : Hook S F C where
  iom := .new tickleFd garbage
  timers := .new now
  cbs := []
  fds := .new
  files := fun _ => none
  opened := 0
  infos := 0
  peers := fun _ => .out
  call := none
  errno := 0

theorem start_init (tickleFd now : Nat) (garbage : Nat → Event → Option S)
    : (start tickleFd now garbage : Hook S F C).Init where
  iom := ⟨tickleFd, garbage, rfl⟩
  timers := ⟨now, rfl⟩
  cbs := rfl
  fds := rfl
  files := by
    intro fd file h
    cases h
  peers := fun _ => rfl
  call := rfl

end Hook
end CXS
