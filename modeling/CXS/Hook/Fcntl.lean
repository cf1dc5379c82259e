import CXS.Hook.Flags

/-!
This module contains `fcntl` and `ioctl` from `code/hook.cc` on any descriptor, with the calls that
they make of the functions behind them.

As in `HookedFd`, the functions take the depth of the call stack as their last argument. What
`fcntl_f` and `ioctl_f` return is the argument `ret`, and `memory` has what a pointer to `int` points
to, which is nothing for the null pointer.
-/

namespace CXS
namespace Fcntl

abbrev Word := BitVec 64

inductive Arg where
  | int (arg : CInt)
  | pointer (arg : Word)
  deriving DecidableEq, Repr

structure FcntlCall where
  fd : Int
  cmd : FcntlCmd
  arg : Arg
  deriving DecidableEq, Repr

structure IoctlCall where
  fd : Int
  request : Word
  arg : Word
  deriving DecidableEq, Repr

def FIONBIO : Word :=
  0x5421#64

inductive Ends where
  | returns (ret : CInt)
  | nullCtx
  | nullArg
  | outOfBounds
  | unfinished
  deriving DecidableEq, Repr

structure Outcome (κ : Type) where
  m : FdManager
  calls : List κ
  ends : Ends
  deriving DecidableEq, Repr

def context (m : FdManager) (fd : Int) : Except Fault (Option (Nat × FdCtx)) :=
  (m.get fd).map fun ptr => ptr.bind fun i => m.ctxs[i]?.map fun ctx => (i, ctx)

def setUserNonblock (m : FdManager) (i : Nat) (v : Bool) : FdManager :=
  { m with ctxs := m.ctxs.modify i ({ · with m_userNonblock := v }) }

section Fcntl

variable (m : FdManager) (fd : Int) (cmd : FcntlCmd) (ret : CInt)

def fcntl_f (arg : Arg) : Outcome FcntlCall where
  m := m
  calls := [⟨fd, cmd, arg⟩]
  ends := .returns ret

-- the case of `F_SETFL`
def fcntlSet (arg : CInt) : Outcome FcntlCall :=
  match context m fd with
  | .error _ => ⟨m, [], .outOfBounds⟩
  | .ok none => fcntl_f m fd cmd ret (.int arg)
  | .ok (some (i, ctx)) =>
    if ctx.m_isClose || !ctx.m_isSocket then
      fcntl_f m fd cmd ret (.int arg)
    else
      let m := setUserNonblock m i (nonblock arg)
      let arg := if ctx.m_sysNonbool then arg ||| O_NONBLOCK else arg &&& ~~~O_NONBLOCK
      fcntl_f m fd cmd ret (.int arg)

-- the case of `F_GETFL` once the call of `fcntl` in it has returned `arg`
def getfl (arg : CInt) : Ends :=
  match context m fd with
  | .error _ => .outOfBounds
  | .ok none => .nullCtx
  | .ok (some (_, ctx)) =>
    if !ctx.m_isClose && ctx.m_isSocket then
      .returns arg
    else if ctx.m_userNonblock then
      .returns (arg ||| O_NONBLOCK)
    else
      .returns (arg &&& ~~~O_NONBLOCK)

def vaInt (arg : Word) : CInt :=
  arg.setWidth 32

def fcntl (arg : Word) (depth : Nat) : Outcome FcntlCall :=
  match depth with
  | 0 => ⟨m, [], .unfinished⟩
  | depth + 1 =>
    match cmd with
    | .F_DUPFD => fcntlSet m fd cmd ret (vaInt arg)
    | .F_DUPFD_CLOEXEC => fcntlSet m fd cmd ret (vaInt arg)
    | .F_SETFD => fcntlSet m fd cmd ret (vaInt arg)
    | .F_SETFL => fcntlSet m fd cmd ret (vaInt arg)
    | .F_GETFL =>
      let outcome := fcntl arg depth
      match outcome.ends with
      | .returns arg => { outcome with ends := getfl outcome.m fd arg }
      | _ => outcome
    | .F_SETOWN => fcntl_f m fd cmd ret (.int (vaInt arg))
    | .F_SETSIG => fcntl_f m fd cmd ret (.int (vaInt arg))
    | .F_SETLEASE => fcntl_f m fd cmd ret (.int (vaInt arg))
    | .F_NOTIFY => fcntl_f m fd cmd ret (.int (vaInt arg))
    | .F_SETPIPE_SZ => fcntl_f m fd cmd ret (.int (vaInt arg))
    | .F_GETFD => fcntl arg depth
    | .F_GETOWN => fcntl arg depth
    | .F_GETSIG => fcntl arg depth
    | .F_GETLEASE => fcntl arg depth
    | .F_GETPIPE_SZ => fcntl arg depth
    | .F_SETLK => fcntl_f m fd cmd ret (.pointer arg)
    | .F_SETLKW => fcntl_f m fd cmd ret (.pointer arg)
    | .F_GETLK => fcntl_f m fd cmd ret (.pointer arg)
    | .F_GETOWN_EX => fcntl_f m fd cmd ret (.pointer arg)
    | .F_SETOWN_EX => fcntl_f m fd cmd ret (.pointer arg)
    | .other _ => fcntl arg depth

end Fcntl

section Ioctl

variable (memory : Word → Option CInt) (m : FdManager) (fd : Int) (request arg : Word) (ret : CInt)

def ioctl_f : Outcome IoctlCall where
  m := m
  calls := [⟨fd, request, arg⟩]
  ends := .returns ret

def ioctl (depth : Nat) : Outcome IoctlCall :=
  match depth with
  | 0 => ⟨m, [], .unfinished⟩
  | depth + 1 =>
    if FIONBIO = request then
      match memory arg with
      | none => ⟨m, [], .nullArg⟩
      | some _ =>
        match context m fd with
        | .error _ => ⟨m, [], .outOfBounds⟩
        | .ok none => ioctl depth
        | .ok (some (_, ctx)) =>
          if ctx.m_isClose || !ctx.m_isSocket then
            ioctl depth
          else
            ioctl_f m fd request arg ret
    else
      ioctl_f m fd request arg ret

end Ioctl

/--
The call returns once the stack is deep enough, having called the function behind the hook once and
with what `is` says, and at no depth it uses a context that is not there.
-/
def CallsOnce {κ : Type} (call : Nat → Outcome κ) (is : κ → Prop) : Prop :=
  (∃ depth ret c, (call depth).ends = .returns ret ∧ (call depth).calls = [c] ∧ is c)
  ∧ ∀ depth, (call depth).ends ≠ .nullCtx

def isOpenSocket (m : FdManager) (fd : Int) : Bool :=
  match context m fd with
  | .ok (some (_, ctx)) => !ctx.m_isClose && ctx.m_isSocket
  | _ => false

-- the commands that are passed on, of which those that look for the context need an index for it
def Passed (fd : Int) (cmd : FcntlCmd) : Prop :=
  HookedFd.loops cmd = false ∧ (HookedFd.setsUser cmd = true → 0 ≤ fd)

instance (fd : Int) (cmd : FcntlCmd) : Decidable (Passed fd cmd) :=
  inferInstanceAs (Decidable (_ ∧ _))

section Context

variable {m : FdManager} {fd : Int}

theorem context_of_neg (h : fd < 0) : ∃ fault, context m fd = .error fault := by
  refine ⟨.outOfBounds, ?_⟩
  unfold context FdManager.get
  rw [if_neg (by omega), if_pos h]
  rfl

theorem context_of_nonneg (h : 0 ≤ fd) : ∃ ptr, context m fd = .ok ptr := by
  unfold context FdManager.get
  split
  . exact ⟨_, rfl⟩
  . rw [if_neg (by omega)]
    exact ⟨_, rfl⟩

theorem ctxs_of_context {i : Nat} {ctx : FdCtx} (h : context m fd = .ok (some (i, ctx)))
    : m.ctxs[i]? = some ctx := by
  unfold context at h
  obtain ⟨ptr, -, hptr⟩ := Except.map_eq_ok h
  obtain ⟨j, -, hj⟩ := Option.bind_eq_some_iff.mp hptr
  obtain ⟨ctx', hctx', heq⟩ := Option.map_eq_some_iff.mp hj
  cases heq
  exact hctx'

theorem or_not_eq (a b : Bool) : (a || !b) = !(!a && b) := by
  rw [Bool.not_and, Bool.not_not]

end Context

section CallsOnce

variable {κ : Type} {call : Nat → Outcome κ} {is : κ → Prop}

theorem not_callsOnce_of_ends (h : ∀ depth ret, (call depth).ends ≠ .returns ret)
    : ¬ CallsOnce call is := by
  intro ⟨⟨depth, ret, c, hends, _⟩, _⟩
  exact h depth ret hends

theorem callsOnce_of_returns (ret : CInt) (hzero : (call 0).ends = .unfinished)
    (h : ∀ depth, ∃ c, (call (depth + 1)).calls = [c] ∧ (call (depth + 1)).ends = .returns ret ∧ is c)
    : CallsOnce call is := by
  constructor
  . obtain ⟨c, hcalls, hends, hc⟩ := h 0
    exact ⟨1, ret, c, hends, hcalls, hc⟩
  . intro depth hnull
    cases depth with
    | zero =>
      rw [hzero] at hnull
      cases hnull
    | succ depth =>
      obtain ⟨c, _, hends, _⟩ := h depth
      rw [hends] at hnull
      cases hnull

end CallsOnce

section Fcntl

variable (m : FdManager) (fd : Int) (ret : CInt)

theorem fcntl_unfinished {cmd : FcntlCmd} (h : HookedFd.loops cmd = true) (arg : Word) (depth : Nat)
    : fcntl m fd cmd ret arg depth = ⟨m, [], .unfinished⟩ := by
  induction depth with
  | zero => rfl
  | succ depth ih =>
    unfold fcntl
    cases cmd with
    | F_GETFL =>
      dsimp only
      rw [ih]
    | F_GETFD => exact ih
    | F_GETOWN => exact ih
    | F_GETSIG => exact ih
    | F_GETLEASE => exact ih
    | F_GETPIPE_SZ => exact ih
    | other cmd => exact ih
    | _ => cases h

theorem fcntl_of_setsUser {cmd : FcntlCmd} (h : HookedFd.setsUser cmd = true) (arg : Word)
    (depth : Nat) : fcntl m fd cmd ret arg (depth + 1) = fcntlSet m fd cmd ret (vaInt arg) := by
  cases cmd with
  | F_DUPFD => rfl
  | F_DUPFD_CLOEXEC => rfl
  | F_SETFD => rfl
  | F_SETFL => rfl
  | _ => cases h

theorem fcntl_of_passed {cmd : FcntlCmd} (hloops : HookedFd.loops cmd = false)
    (hsets : HookedFd.setsUser cmd = false) (arg : Word) (depth : Nat)
    : ∃ arg', fcntl m fd cmd ret arg (depth + 1) = fcntl_f m fd cmd ret arg' := by
  cases cmd with
  | F_SETOWN => exact ⟨_, rfl⟩
  | F_SETSIG => exact ⟨_, rfl⟩
  | F_SETLEASE => exact ⟨_, rfl⟩
  | F_NOTIFY => exact ⟨_, rfl⟩
  | F_SETPIPE_SZ => exact ⟨_, rfl⟩
  | F_SETLK => exact ⟨_, rfl⟩
  | F_SETLKW => exact ⟨_, rfl⟩
  | F_GETLK => exact ⟨_, rfl⟩
  | F_GETOWN_EX => exact ⟨_, rfl⟩
  | F_SETOWN_EX => exact ⟨_, rfl⟩
  | F_DUPFD => cases hsets
  | F_DUPFD_CLOEXEC => cases hsets
  | F_SETFD => cases hsets
  | F_SETFL => cases hsets
  | _ => cases hloops

theorem fcntlSet_of_neg (h : fd < 0) (cmd : FcntlCmd) (arg : CInt)
    : fcntlSet m fd cmd ret arg = ⟨m, [], .outOfBounds⟩ := by
  obtain ⟨fault, hcontext⟩ := context_of_neg (m := m) h
  unfold fcntlSet
  rw [hcontext]

theorem fcntlSet_of_nonneg (h : 0 ≤ fd) (cmd : FcntlCmd) (arg : CInt)
    : ∃ m' arg', fcntlSet m fd cmd ret arg = fcntl_f m' fd cmd ret arg' := by
  obtain ⟨ptr, hcontext⟩ := context_of_nonneg (m := m) h
  unfold fcntlSet
  rw [hcontext]
  cases ptr with
  | none => exact ⟨m, _, rfl⟩
  | some ctx =>
    dsimp only
    split
    . exact ⟨m, _, rfl⟩
    . exact ⟨_, _, rfl⟩

theorem fcntl_returns {cmd : FcntlCmd} (h : Passed fd cmd) (arg : Word) (depth : Nat)
    : ∃ m' arg', fcntl m fd cmd ret arg (depth + 1) = fcntl_f m' fd cmd ret arg' := by
  obtain ⟨hloops, hfd⟩ := h
  cases hsets : HookedFd.setsUser cmd with
  | true =>
    rw [fcntl_of_setsUser m fd ret hsets]
    exact fcntlSet_of_nonneg m fd ret (hfd hsets) cmd (vaInt arg)
  | false => exact ⟨m, fcntl_of_passed m fd ret hloops hsets arg depth⟩

theorem fcntl_not_returns {cmd : FcntlCmd} (h : ¬ Passed fd cmd) (arg : Word) (depth : Nat)
    (ret' : CInt) : (fcntl m fd cmd ret arg depth).ends ≠ .returns ret' := by
  unfold Passed at h
  cases hloops : HookedFd.loops cmd with
  | true =>
    rw [fcntl_unfinished m fd ret hloops]
    nofun
  | false =>
    rw [hloops, eq_self_iff_true, true_and, Classical.not_imp] at h
    obtain ⟨hsets, hfd⟩ := h
    cases depth with
    | zero => nofun
    | succ depth =>
      rw [fcntl_of_setsUser m fd ret hsets, fcntlSet_of_neg m fd ret (by omega)]
      nofun

theorem fcntl_callsOnce_iff (cmd : FcntlCmd) (arg : Word)
    : CallsOnce (fcntl m fd cmd ret arg) (fun c => c.fd = fd ∧ c.cmd = cmd) ↔ Passed fd cmd := by
  constructor
  . intro h
    by_contra hnot
    exact not_callsOnce_of_ends (fcntl_not_returns m fd ret hnot arg) h
  . intro h
    apply callsOnce_of_returns ret rfl
    intro depth
    obtain ⟨m', arg', heq⟩ := fcntl_returns m fd ret h arg depth
    rw [heq]
    exact ⟨_, rfl, rfl, rfl, rfl⟩

end Fcntl

section Ioctl

variable (memory : Word → Option CInt) (m : FdManager) (fd : Int) (request arg : Word) (ret : CInt)

theorem ioctl_of_ne (h : FIONBIO ≠ request) (depth : Nat)
    : ioctl memory m fd request arg ret (depth + 1) = ioctl_f m fd request arg ret := by
  unfold ioctl
  rw [if_neg h]

theorem ioctl_of_open {v : CInt} (harg : memory arg = some v) (h : isOpenSocket m fd = true)
    (depth : Nat)
    : ioctl memory m fd request arg ret (depth + 1) = ioctl_f m fd request arg ret := by
  unfold isOpenSocket at h
  unfold ioctl
  rw [harg]
  split at h
  . next i ctx hcontext =>
    have htest : ¬ (ctx.m_isClose || !ctx.m_isSocket) = true := by
      rw [or_not_eq, h]
      decide
    rw [hcontext]
    dsimp only
    rw [if_neg htest, ite_self]
  . cases h

theorem ioctl_not_returns (h : (memory arg).isSome → isOpenSocket m fd = false) (depth : Nat)
    (ret' : CInt) : (ioctl memory m fd FIONBIO arg ret depth).ends ≠ .returns ret' := by
  induction depth with
  | zero => nofun
  | succ depth ih =>
    unfold ioctl
    rw [if_pos rfl]
    split
    . nofun
    . next v harg =>
      rw [harg] at h
      have hopen := h rfl
      unfold isOpenSocket at hopen
      split
      . nofun
      . exact ih
      . next i ctx hcontext =>
        rw [hcontext] at hopen
        dsimp only at hopen
        rw [or_not_eq, hopen, if_pos (by decide)]
        exact ih

theorem ioctl_callsOnce_iff
    : CallsOnce (ioctl memory m fd request arg ret) (fun c => c.fd = fd ∧ c.request = request)
        ↔ (request = FIONBIO → (memory arg).isSome ∧ isOpenSocket m fd = true) := by
  constructor
  . rintro hcalls rfl
    by_contra hnot
    refine not_callsOnce_of_ends (ioctl_not_returns memory m fd arg ret ?_) hcalls
    intro hsome
    rw [← Bool.not_eq_true]
    intro hopen
    exact hnot ⟨hsome, hopen⟩
  . intro h
    apply callsOnce_of_returns ret rfl
    intro depth
    have heq : ioctl memory m fd request arg ret (depth + 1) = ioctl_f m fd request arg ret := by
      by_cases hrequest : request = FIONBIO
      . obtain ⟨hsome, hopen⟩ := h hrequest
        obtain ⟨v, harg⟩ := Option.isSome_iff_exists.mp hsome
        exact ioctl_of_open memory m fd request arg ret harg hopen depth
      . exact ioctl_of_ne memory m fd request arg ret (Ne.symm hrequest) depth
    rw [heq]
    exact ⟨_, rfl, rfl, rfl, rfl⟩

end Ioctl

section HookedFd

def Arg.toInt : Arg → CInt
  | .int arg => arg
  | .pointer arg => arg.setWidth 32

def perform (s : HookedFd) (i : Nat) (outcome : Outcome FcntlCall) (k : KernelResult)
    : Option (HookedFd × CInt) :=
  match outcome.m.ctxs[i]?, outcome.calls with
  | some ctx, [call] => some (({ s with ctx := ctx } : HookedFd).fcntl_f call.cmd call.arg.toInt k)
  | _, _ => none

variable {s : HookedFd} {m : FdManager} {fd : Int} {i : Nat}
  (hcontext : context m fd = .ok (some (i, s.ctx)))

include hcontext in
theorem perform_fcntl_f (cmd : FcntlCmd) (arg : Arg) (ret : CInt) (k : KernelResult)
    : perform s i (fcntl_f m fd cmd ret arg) k = some (s.fcntl_f cmd arg.toInt k) := by
  unfold perform fcntl_f
  rw [ctxs_of_context hcontext]

include hcontext in
theorem perform_fcntlSet (cmd : FcntlCmd) (arg ret : CInt) (k : KernelResult)
    : perform s i (fcntlSet m fd cmd ret arg) k = some (s.fcntlSet cmd arg k) := by
  unfold fcntlSet HookedFd.fcntlSet
  rw [hcontext]
  dsimp only
  split
  . exact perform_fcntl_f hcontext cmd (.int arg) ret k
  . unfold perform fcntl_f setUserNonblock
    dsimp only
    rw [List.getElem?_modify_eq, ctxs_of_context hcontext]
    rfl

include hcontext in
/-- On a descriptor with a context the functions here do what those of `HookedFd` do. -/
theorem perform_fcntl (cmd : FcntlCmd) (arg : Word) (ret : CInt) (k : KernelResult) (depth : Nat)
    : perform s i (fcntl m fd cmd ret arg depth) k = s.fcntl depth cmd (vaInt arg) k := by
  cases hloops : HookedFd.loops cmd with
  | true =>
    rw [fcntl_unfinished m fd ret hloops, HookedFd.fcntl_loops hloops]
    unfold perform
    rw [ctxs_of_context hcontext]
  | false =>
    cases depth with
    | zero =>
      unfold perform fcntl
      rw [ctxs_of_context hcontext]
      rfl
    | succ depth =>
      cases cmd with
      | F_DUPFD => exact perform_fcntlSet hcontext _ _ ret k
      | F_DUPFD_CLOEXEC => exact perform_fcntlSet hcontext _ _ ret k
      | F_SETFD => exact perform_fcntlSet hcontext _ _ ret k
      | F_SETFL => exact perform_fcntlSet hcontext _ _ ret k
      | F_GETFL => cases hloops
      | F_GETFD => cases hloops
      | F_GETOWN => cases hloops
      | F_GETSIG => cases hloops
      | F_GETLEASE => cases hloops
      | F_GETPIPE_SZ => cases hloops
      | other cmd => cases hloops
      | _ => exact perform_fcntl_f hcontext _ _ ret k

def hookedRequest (request : Word) (v : CInt) : IoctlRequest :=
  if FIONBIO = request then .fionbio v else .other request.toNat

def performIoctl (s : HookedFd) (i : Nat) (v : CInt) (outcome : Outcome IoctlCall) (k : KernelResult)
    : Option (HookedFd × CInt) :=
  match outcome.m.ctxs[i]?, outcome.calls with
  | some ctx, [call] =>
    some (({ s with ctx := ctx } : HookedFd).ioctl_f (hookedRequest call.request v) k)
  | _, _ => none

include hcontext in
theorem perform_ioctl {memory : Word → Option CInt} {arg : Word} {v : CInt}
    (harg : memory arg = some v) (request : Word) (ret : CInt) (k : KernelResult) (depth : Nat)
    : performIoctl s i v (ioctl memory m fd request arg ret depth) k
        = s.ioctl depth (hookedRequest request v) k := by
  induction depth with
  | zero =>
    unfold performIoctl ioctl
    rw [ctxs_of_context hcontext]
    rfl
  | succ depth ih =>
    have hperform : performIoctl s i v (ioctl_f m fd request arg ret) k
        = some (s.ioctl_f (hookedRequest request v) k) := by
      unfold performIoctl ioctl_f
      rw [ctxs_of_context hcontext]
    unfold ioctl HookedFd.ioctl
    rw [harg, hcontext]
    by_cases hrequest : FIONBIO = request
    . have heq : hookedRequest request v = .fionbio v := if_pos hrequest
      rw [if_pos hrequest]
      rw [heq] at hperform ih ⊢
      dsimp only
      split
      . exact ih
      . exact hperform
    . have heq : hookedRequest request v = .other request.toNat := if_neg hrequest
      rw [if_neg hrequest]
      rw [heq] at hperform ⊢
      exact hperform

end HookedFd

theorem hooks_callOnce_iff (memory : Word → Option CInt) (m : FdManager) (fd : Int) (cmd : FcntlCmd)
    (request arg : Word) (ret : CInt)
    : (CallsOnce (fcntl m fd cmd ret arg) (fun c => c.fd = fd ∧ c.cmd = cmd) ↔ Passed fd cmd)
      ∧ (CallsOnce (ioctl memory m fd request arg ret) (fun c => c.fd = fd ∧ c.request = request)
        ↔ (request = FIONBIO → (memory arg).isSome ∧ isOpenSocket m fd = true)) :=
  ⟨fcntl_callsOnce_iff m fd ret cmd arg, ioctl_callsOnce_iff memory m fd request arg ret⟩

-- the recursion, an index below 0 and a null pointer
theorem hooks_callThemselves
    : (¬ CallsOnce (fcntl .new 5 .F_GETFD 0 0) (fun c => c.fd = 5 ∧ c.cmd = .F_GETFD))
      ∧ (¬ CallsOnce (ioctl (fun _ => some 1) .new 5 FIONBIO 8 0)
        (fun c => c.fd = 5 ∧ c.request = FIONBIO))
      ∧ (¬ CallsOnce (fcntl .new (-1) .F_SETFL 0 0) (fun c => c.fd = -1 ∧ c.cmd = .F_SETFL))
      ∧ ¬ CallsOnce (ioctl (fun _ => none) .new 5 FIONBIO 0 0)
        (fun c => c.fd = 5 ∧ c.request = FIONBIO) := by
  refine ⟨?_, ?_, ?_, ?_⟩
  . rw [fcntl_callsOnce_iff]
    decide
  . rw [ioctl_callsOnce_iff]
    intro h
    exact absurd (h rfl).2 (by decide)
  . rw [fcntl_callsOnce_iff]
    decide
  . rw [ioctl_callsOnce_iff]
    intro h
    exact absurd (h rfl).1 (by decide)

end Fcntl
end CXS
