import CXS.Hook.Basic

/-!
This module contains `fcntl` and `ioctl` from `code/hook.cc` on a descriptor that has a context, and
how the two non-blocking flags of the descriptor develop: the one of the kernel and the one that the
user has asked for.

A call of `fcntl` in the body of `fcntl` is the hook itself and not `fcntl_f`, so the functions take
the depth of the call stack as their first argument, and a call that returns at no depth never
returns. Whether the kernel accepts a command, and the values that it returns for the commands that
are passed on, are up to the argument `k`.
-/

namespace CXS

abbrev CInt := BitVec 32

def O_NONBLOCK : CInt :=
  BitVec.twoPow 32 11

def SETFL_MASK : CInt :=
  0x46c00#32

def nonblock (arg : CInt) : Bool :=
  arg &&& O_NONBLOCK != 0#32

inductive FcntlCmd where
  | F_DUPFD
  | F_DUPFD_CLOEXEC
  | F_SETFD
  | F_SETFL
  | F_GETFL
  | F_SETOWN
  | F_SETSIG
  | F_SETLEASE
  | F_NOTIFY
  | F_SETPIPE_SZ
  | F_GETFD
  | F_GETOWN
  | F_GETSIG
  | F_GETLEASE
  | F_GETPIPE_SZ
  | F_SETLK
  | F_SETLKW
  | F_GETLK
  | F_GETOWN_EX
  | F_SETOWN_EX
  | other (cmd : CInt)
  deriving DecidableEq, Repr

inductive IoctlRequest where
  | fionbio (arg : CInt)
  | other (request : Nat)
  deriving DecidableEq, Repr

structure KernelResult where
  fails : Bool
  ret : CInt
  deriving DecidableEq, Repr

structure HookedFd where
  ctx : FdCtx
  flags : CInt
  deriving DecidableEq, Repr

namespace HookedFd

def fcntl_f (s : HookedFd) (cmd : FcntlCmd) (arg : CInt) (k : KernelResult) : HookedFd × CInt :=
  if k.fails then
    (s, -1)
  else
    match cmd with
    | .F_SETFL => ({ s with flags := (s.flags &&& ~~~SETFL_MASK) ||| (arg &&& SETFL_MASK) }, 0)
    | .F_GETFL => (s, s.flags)
    | _ => (s, k.ret)

def ioctl_f (s : HookedFd) (request : IoctlRequest) (k : KernelResult) : HookedFd × CInt :=
  match request with
  | .fionbio arg =>
    if arg != 0#32 then
      ({ s with flags := s.flags ||| O_NONBLOCK }, 0)
    else
      ({ s with flags := s.flags &&& ~~~O_NONBLOCK }, 0)
  | .other _ => (s, k.ret)

def setUserNonblock (s : HookedFd) (v : Bool) : HookedFd :=
  { s with ctx := { s.ctx with m_userNonblock := v } }

-- the case of `F_SETFL`, which the three commands before it fall into
def fcntlSet (s : HookedFd) (cmd : FcntlCmd) (arg : CInt) (k : KernelResult) : HookedFd × CInt :=
  if s.ctx.m_isClose || !s.ctx.m_isSocket then
    s.fcntl_f cmd arg k
  else
    let s := s.setUserNonblock (nonblock arg)
    let arg := if s.ctx.m_sysNonbool then arg ||| O_NONBLOCK else arg &&& ~~~O_NONBLOCK
    s.fcntl_f cmd arg k

def fcntl (depth : Nat) (s : HookedFd) (cmd : FcntlCmd) (arg : CInt) (k : KernelResult)
    : Option (HookedFd × CInt) :=
  match depth with
  | 0 => none
  | depth + 1 =>
    match cmd with
    | .F_DUPFD => some (s.fcntlSet cmd arg k)
    | .F_DUPFD_CLOEXEC => some (s.fcntlSet cmd arg k)
    | .F_SETFD => some (s.fcntlSet cmd arg k)
    | .F_SETFL => some (s.fcntlSet cmd arg k)
    | .F_GETFL =>
      match fcntl depth s cmd arg k with
      | none => none
      | some (s, arg) =>
        if !s.ctx.m_isClose && s.ctx.m_isSocket then
          some (s, arg)
        else if s.ctx.m_userNonblock then
          some (s, arg ||| O_NONBLOCK)
        else
          some (s, arg &&& ~~~O_NONBLOCK)
    | .F_SETOWN => some (s.fcntl_f cmd arg k)
    | .F_SETSIG => some (s.fcntl_f cmd arg k)
    | .F_SETLEASE => some (s.fcntl_f cmd arg k)
    | .F_NOTIFY => some (s.fcntl_f cmd arg k)
    | .F_SETPIPE_SZ => some (s.fcntl_f cmd arg k)
    | .F_GETFD => fcntl depth s cmd arg k
    | .F_GETOWN => fcntl depth s cmd arg k
    | .F_GETSIG => fcntl depth s cmd arg k
    | .F_GETLEASE => fcntl depth s cmd arg k
    | .F_GETPIPE_SZ => fcntl depth s cmd arg k
    | .F_SETLK => some (s.fcntl_f cmd arg k)
    | .F_SETLKW => some (s.fcntl_f cmd arg k)
    | .F_GETLK => some (s.fcntl_f cmd arg k)
    | .F_GETOWN_EX => some (s.fcntl_f cmd arg k)
    | .F_SETOWN_EX => some (s.fcntl_f cmd arg k)
    | .other _ => fcntl depth s cmd arg k

def ioctl (depth : Nat) (s : HookedFd) (request : IoctlRequest) (k : KernelResult)
    : Option (HookedFd × CInt) :=
  match depth with
  | 0 => none
  | depth + 1 =>
    match request with
    | .fionbio _ =>
      if s.ctx.m_isClose || !s.ctx.m_isSocket then
        ioctl depth s request k
      else
        some (s.ioctl_f request k)
    | .other _ => some (s.ioctl_f request k)

inductive Call where
  | fcntl (cmd : FcntlCmd) (arg : CInt) (k : KernelResult)
  | ioctl (request : IoctlRequest) (k : KernelResult)
  deriving DecidableEq, Repr

def call (depth : Nat) (s : HookedFd) : Call → Option (HookedFd × CInt)
  | .fcntl cmd arg k => s.fcntl depth cmd arg k
  | .ioctl request k => s.ioctl depth request k

def lts : LTS HookedFd Call where
  step s c s' := ∃ depth ret, s.call depth c = some (s', ret)

def start (fd : Int) (file : Nat) (flags : CInt) : HookedFd where
  ctx := .new fd (some ⟨file, true⟩)
  flags := flags ||| O_NONBLOCK

def setsFlag (last : Bool) : Call → Bool
  | .fcntl .F_SETFL arg _ => nonblock arg
  | .ioctl (.fionbio arg) _ => arg != 0#32
  | _ => last

def lastSet (calls : List Call) : Bool :=
  calls.foldl setsFlag false

/--
In every state that the calls reach the kernel's flag is set and the user's flag is the one of the
last call that sets it, and every `F_GETFL` among the calls returns and reports the user's flag.
-/
structure KeepsFlags (s₀ : HookedFd) (calls : List Call) : Prop where
  kernel : ∀ pre post s, calls = pre ++ post → lts.Run s₀ pre s → nonblock s.flags = true
  user : ∀ pre post s, calls = pre ++ post → lts.Run s₀ pre s → s.ctx.m_userNonblock = lastSet pre
  reports : ∀ pre arg k post s, calls = pre ++ .fcntl .F_GETFL arg k :: post → lts.Run s₀ pre s
    → ∃ depth s' ret, s.call depth (.fcntl .F_GETFL arg k) = some (s', ret)
      ∧ nonblock ret = s.ctx.m_userNonblock

def Translated (s : HookedFd) : Call → Bool
  | .fcntl .F_DUPFD arg _ => nonblock arg == s.ctx.m_userNonblock
  | .fcntl .F_DUPFD_CLOEXEC arg _ => nonblock arg == s.ctx.m_userNonblock
  | .fcntl .F_SETFD arg _ => nonblock arg == s.ctx.m_userNonblock
  | .fcntl .F_GETFL _ _ => false
  | .ioctl (.fionbio arg) _ => arg != 0#32 && s.ctx.m_userNonblock
  | _ => true

section Bits

theorem nonblock_eq (arg : CInt) : nonblock arg = arg.getLsbD 11 := by
  unfold nonblock O_NONBLOCK
  rw [BitVec.and_twoPow]
  cases arg.getLsbD 11 with
  | true => decide
  | false => decide

theorem nonblock_or (arg : CInt) : nonblock (arg ||| O_NONBLOCK) = true := by
  have hbit : O_NONBLOCK.getLsbD 11 = true := by decide
  rw [nonblock_eq, BitVec.getLsbD_or, hbit, Bool.or_true]

theorem nonblock_clear (arg : CInt) : nonblock (arg &&& ~~~O_NONBLOCK) = false := by
  have hbit : (~~~O_NONBLOCK).getLsbD 11 = false := by decide
  rw [nonblock_eq, BitVec.getLsbD_and, hbit, Bool.and_false]

theorem nonblock_setfl (flags arg : CInt)
    : nonblock ((flags &&& ~~~SETFL_MASK) ||| (arg &&& SETFL_MASK)) = nonblock arg := by
  have hmask : SETFL_MASK.getLsbD 11 = true := by decide
  have hclear : (~~~SETFL_MASK).getLsbD 11 = false := by decide
  rw [nonblock_eq, nonblock_eq, BitVec.getLsbD_or, BitVec.getLsbD_and, BitVec.getLsbD_and, hmask,
    hclear, Bool.and_false, Bool.false_or, Bool.and_true]

end Bits

def loops : FcntlCmd → Bool
  | .F_GETFL => true
  | .F_GETFD => true
  | .F_GETOWN => true
  | .F_GETSIG => true
  | .F_GETLEASE => true
  | .F_GETPIPE_SZ => true
  | .other _ => true
  | _ => false

section Step

variable {s s' : HookedFd} {c : Call}

theorem fcntl_loops {cmd : FcntlCmd} (h : loops cmd = true) (depth : Nat) (s : HookedFd) (arg : CInt)
    (k : KernelResult) : s.fcntl depth cmd arg k = none := by
  induction depth with
  | zero => rfl
  | succ depth ih =>
    unfold fcntl
    cases cmd with
    | F_GETFL =>
      dsimp only
      rw [ih]
    | F_GETFD => exact ih
    | F_GETOWN => exact ih
    | F_GETSIG => exact ih
    | F_GETLEASE => exact ih
    | F_GETPIPE_SZ => exact ih
    | other cmd => exact ih
    | _ => cases h

structure Hooked (s : HookedFd) : Prop where
  isSocket : s.ctx.m_isSocket = true
  isClose : s.ctx.m_isClose = false
  sysNonblock : s.ctx.m_sysNonbool = true

def setsUser : FcntlCmd → Bool
  | .F_DUPFD => true
  | .F_DUPFD_CLOEXEC => true
  | .F_SETFD => true
  | .F_SETFL => true
  | _ => false

def userAfter (s : HookedFd) : Call → Bool
  | .fcntl cmd arg _ => if setsUser cmd then nonblock arg else s.ctx.m_userNonblock
  | .ioctl _ _ => s.ctx.m_userNonblock

def kernelAfter : Call → Bool
  | .ioctl (.fionbio arg) _ => arg != 0#32
  | _ => true

structure Moves (s s' : HookedFd) (c : Call) : Prop where
  hooked : Hooked s'
  user : s'.ctx.m_userNonblock = userAfter s c
  kernel : nonblock s.flags = true → nonblock s'.flags = kernelAfter c

theorem fcntl_returns {depth : Nat} {cmd : FcntlCmd} {arg ret : CInt} {k : KernelResult}
    (h : s.fcntl depth cmd arg k = some (s', ret))
    : if setsUser cmd then s.fcntlSet cmd arg k = (s', ret)
      else s.fcntl_f cmd arg k = (s', ret) := by
  by_cases hloops : loops cmd = true
  . rw [fcntl_loops hloops] at h
    cases h
  . cases depth with
    | zero => cases h
    | succ depth =>
      unfold fcntl at h
      cases cmd with
      | F_GETFL => exact absurd rfl hloops
      | F_GETFD => exact absurd rfl hloops
      | F_GETOWN => exact absurd rfl hloops
      | F_GETSIG => exact absurd rfl hloops
      | F_GETLEASE => exact absurd rfl hloops
      | F_GETPIPE_SZ => exact absurd rfl hloops
      | other cmd => exact absurd rfl hloops
      | _ => exact Option.some.inj h

theorem fcntl_f_keeps (h : Hooked s) {cmd : FcntlCmd} {arg : CInt} (k : KernelResult)
    (harg : cmd = .F_SETFL → nonblock arg = true)
    : Hooked (s.fcntl_f cmd arg k).1
      ∧ (s.fcntl_f cmd arg k).1.ctx.m_userNonblock = s.ctx.m_userNonblock
      ∧ (nonblock s.flags = true → nonblock (s.fcntl_f cmd arg k).1.flags = true) := by
  unfold fcntl_f
  split
  . exact ⟨h, rfl, id⟩
  . split
    . refine ⟨⟨h.isSocket, h.isClose, h.sysNonblock⟩, rfl, ?_⟩
      intro _
      dsimp only
      rw [nonblock_setfl]
      exact harg rfl
    . exact ⟨h, rfl, id⟩
    . exact ⟨h, rfl, id⟩

theorem fcntlSet_keeps (h : Hooked s) (cmd : FcntlCmd) (arg : CInt) (k : KernelResult)
    : Hooked (s.fcntlSet cmd arg k).1
      ∧ (s.fcntlSet cmd arg k).1.ctx.m_userNonblock = nonblock arg
      ∧ (nonblock s.flags = true → nonblock (s.fcntlSet cmd arg k).1.flags = true) := by
  have hset : Hooked (s.setUserNonblock (nonblock arg)) := ⟨h.isSocket, h.isClose, h.sysNonblock⟩
  unfold fcntlSet
  rw [h.isSocket, h.isClose, if_neg (by decide)]
  dsimp only
  rw [hset.sysNonblock, if_pos rfl]
  apply fcntl_f_keeps hset
  intro _
  apply nonblock_or

theorem ioctl_moves (h : Hooked s) {depth : Nat} {request : IoctlRequest} {k : KernelResult}
    {ret : CInt} (hcall : s.ioctl depth request k = some (s', ret))
    : Moves s s' (.ioctl request k) := by
  cases depth with
  | zero => cases hcall
  | succ depth =>
    unfold ioctl at hcall
    cases request with
    | fionbio arg =>
      dsimp only at hcall
      rw [h.isSocket, h.isClose, if_neg (by decide)] at hcall
      unfold ioctl_f at hcall
      dsimp only at hcall
      split at hcall
      next harg =>
        cases hcall
        refine ⟨⟨h.isSocket, h.isClose, h.sysNonblock⟩, rfl, ?_⟩
        intro _
        dsimp only [kernelAfter]
        rw [harg]
        apply nonblock_or
      next harg =>
        cases hcall
        refine ⟨⟨h.isSocket, h.isClose, h.sysNonblock⟩, rfl, ?_⟩
        intro _
        dsimp only [kernelAfter]
        rw [Bool.eq_false_of_not_eq_true harg]
        apply nonblock_clear
    | other request =>
      cases hcall
      exact ⟨h, rfl, id⟩

theorem step_moves (h : Hooked s) (hstep : lts.step s c s') : Moves s s' c := by
  obtain ⟨depth, ret, hcall⟩ := hstep
  cases c with
  | ioctl request k => exact ioctl_moves h hcall
  | fcntl cmd arg k =>
    have hret := fcntl_returns hcall
    split at hret
    next hsets =>
      obtain ⟨hooked, huser, hkernel⟩ := fcntlSet_keeps h cmd arg k
      rw [hret] at hooked huser hkernel
      refine ⟨hooked, ?_, hkernel⟩
      dsimp only [userAfter]
      rw [if_pos hsets]
      exact huser
    next hsets =>
      have harg : cmd = .F_SETFL → nonblock arg = true := by
        intro hcmd
        rw [hcmd] at hsets
        exact absurd rfl hsets
      obtain ⟨hooked, huser, hkernel⟩ := fcntl_f_keeps h k harg
      rw [hret] at hooked huser hkernel
      refine ⟨hooked, ?_, hkernel⟩
      dsimp only [userAfter]
      rw [if_neg hsets]
      exact huser

theorem translated_iff (hc : ∀ arg k, c ≠ .fcntl .F_GETFL arg k)
    : Translated s c = true
      ↔ kernelAfter c = true ∧ userAfter s c = setsFlag s.ctx.m_userNonblock c := by
  cases c with
  | fcntl cmd arg k =>
    cases cmd with
    | F_DUPFD => simp [Translated, kernelAfter, userAfter, setsUser, setsFlag]
    | F_DUPFD_CLOEXEC => simp [Translated, kernelAfter, userAfter, setsUser, setsFlag]
    | F_SETFD => simp [Translated, kernelAfter, userAfter, setsUser, setsFlag]
    | F_GETFL => exact absurd rfl (hc arg k)
    | _ => simp [Translated, kernelAfter, userAfter, setsUser, setsFlag]
  | ioctl request k =>
    cases request with
    | fionbio arg =>
      dsimp only [Translated, kernelAfter, userAfter, setsFlag]
      cases arg != 0#32 with
      | true => simp
      | false => simp
    | other request => simp [Translated, kernelAfter, userAfter, setsFlag]

end Step

section Run

variable {fd : Int} {file : Nat} {flags : CInt} {calls : List Call} {s s' : HookedFd} {c : Call}

structure Synced (calls : List Call) (s : HookedFd) : Prop where
  hooked : Hooked s
  kernel : nonblock s.flags = true
  user : s.ctx.m_userNonblock = lastSet calls

theorem start_synced : Synced [] (start fd file flags) where
  hooked := ⟨rfl, rfl, rfl⟩
  kernel := nonblock_or flags
  user := rfl

theorem lastSet_append (calls : List Call) (c : Call)
    : lastSet (calls ++ [c]) = setsFlag (lastSet calls) c := by
  unfold lastSet
  rw [List.foldl_append]
  rfl

theorem Synced.step (h : Synced calls s) (hc : Translated s c = true) (hstep : lts.step s c s')
    : Synced (calls ++ [c]) s' := by
  have hmoves := step_moves h.hooked hstep
  have hne : ∀ arg k, c ≠ .fcntl .F_GETFL arg k := by
    intro arg k heq
    rw [heq] at hc
    cases hc
  obtain ⟨hkernel, huser⟩ := (translated_iff hne).mp hc
  constructor
  . exact hmoves.hooked
  . rw [hmoves.kernel h.kernel, hkernel]
  . rw [hmoves.user, huser, h.user, lastSet_append]

theorem run_synced
    (hcond : ∀ pre c post s, calls = pre ++ c :: post → lts.Run (start fd file flags) pre s
      → Translated s c = true)
    (hrun : lts.Run (start fd file flags) calls s) : Synced calls s := by
  have hrestrict : (lts.restrict (Translated · · = true)).Run (start fd file flags) calls s := by
    apply hrun.restrict_of
    intro pre c post u u' heq hpre _
    exact hcond pre c post u heq hpre
  rw [← List.nil_append calls]
  apply hrestrict.history (I := Synced) ?_ start_synced
  intro pre u c u' hsynced hstep
  exact hsynced.step hstep.1 hstep.2

theorem exists_step (h : Hooked s) (hc : Translated s c = false)
    (hne : ∀ arg k, c ≠ .fcntl .F_GETFL arg k) : ∃ s', lts.step s c s' := by
  cases c with
  | fcntl cmd arg k =>
    cases cmd with
    | F_DUPFD => exact ⟨_, 1, _, rfl⟩
    | F_DUPFD_CLOEXEC => exact ⟨_, 1, _, rfl⟩
    | F_SETFD => exact ⟨_, 1, _, rfl⟩
    | F_GETFL => exact absurd rfl (hne arg k)
    | _ => cases hc
  | ioctl request k =>
    cases request with
    | fionbio arg =>
      refine ⟨(s.ioctl_f (.fionbio arg) k).1, 1, (s.ioctl_f (.fionbio arg) k).2, ?_⟩
      unfold call ioctl
      dsimp only
      rw [h.isSocket, h.isClose]
      rfl
    | other request => cases hc

theorem run_hooked (h : lts.Run (start fd file flags) calls s) : Hooked s := by
  apply h.invariant (I := Hooked)
  . intro u c u' hu hstep
    exact (step_moves hu hstep).hooked
  . exact ⟨rfl, rfl, rfl⟩

theorem KeepsFlags.translated (h : KeepsFlags (start fd file flags) calls) (pre post : List Call)
    (heq : calls = pre ++ c :: post) (hpre : lts.Run (start fd file flags) pre s)
    : Translated s c = true := by
  by_cases hne : ∀ arg k, c ≠ .fcntl .F_GETFL arg k
  . by_contra hc
    have hs := run_hooked hpre
    obtain ⟨s', hstep⟩ := exists_step hs (Bool.eq_false_of_not_eq_true hc) hne
    have heq' : calls = (pre ++ [c]) ++ post := by rw [heq, List.append_cons]
    have hmoves := step_moves hs hstep
    apply hc
    rw [translated_iff hne]
    constructor
    . rw [← hmoves.kernel (h.kernel pre _ s heq hpre)]
      exact h.kernel _ post s' heq' (hpre.snoc hstep)
    . rw [← hmoves.user, h.user _ post s' heq' (hpre.snoc hstep), lastSet_append,
        h.user pre _ s heq hpre]
  . push Not at hne
    obtain ⟨arg, k, hc⟩ := hne
    rw [hc] at heq
    obtain ⟨depth, s', ret, hcall, -⟩ := h.reports pre arg k post s heq hpre
    dsimp only [call] at hcall
    rw [fcntl_loops rfl] at hcall
    cases hcall

theorem keepsFlags_iff (fd : Int) (file : Nat) (flags : CInt) (calls : List Call)
    : KeepsFlags (start fd file flags) calls
      ↔ ∀ pre c post s, calls = pre ++ c :: post → lts.Run (start fd file flags) pre s
        → Translated s c = true := by
  constructor
  . intro h pre c post s heq hpre
    exact h.translated pre post heq hpre
  . intro hcond
    have hsynced : ∀ pre post s, calls = pre ++ post → lts.Run (start fd file flags) pre s
        → Synced pre s := by
      intro pre post s heq hrun
      apply run_synced ?_ hrun
      intro pre' c post' s' heq' hrun'
      apply hcond pre' c (post' ++ post) s' ?_ hrun'
      rw [heq, heq', List.append_assoc, List.cons_append]
    constructor
    . intro pre post s heq hrun
      exact (hsynced pre post s heq hrun).kernel
    . intro pre post s heq hrun
      exact (hsynced pre post s heq hrun).user
    . intro pre arg k post s heq hrun
      cases hcond pre _ post s heq hrun

-- `FIONBIO` with 0 clears the kernel's flag and with 1 does not set the user's, `F_SETFD` sets the
-- user's flag, and `F_GETFL` does not return
theorem not_keepsFlags_blocking
    : ¬ KeepsFlags (start 7 1 0) [.ioctl (.fionbio 0) ⟨false, 0⟩]
      ∧ ¬ KeepsFlags (start 7 1 0) [.ioctl (.fionbio 1) ⟨false, 0⟩]
      ∧ ¬ KeepsFlags (start 7 1 0) [.fcntl .F_SETFD O_NONBLOCK ⟨false, 0⟩]
      ∧ ¬ KeepsFlags (start 7 1 0) [.fcntl .F_GETFL 0 ⟨false, 0⟩] := by
  refine ⟨?_, ?_, ?_, ?_⟩
  . intro h
    cases h.translated [] [] rfl (.nil _)
  . intro h
    cases h.translated [] [] rfl (.nil _)
  . intro h
    cases h.translated [] [] rfl (.nil _)
  . intro h
    cases h.translated [] [] rfl (.nil _)

end Run

end HookedFd
end CXS
