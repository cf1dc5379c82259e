import CXS.Hook.Moves

namespace CXS

def HookFun.blocked : HookFun → Int × Nat
  | .do_io _ _ => (-1, EAGAIN)
  | .connect_with_timeout _ => (-1, EINPROGRESS)

def Pc.fresh : Pc → Bool
  | .get => true
  | .check _ => true
  | .direct => true
  | _ => false

def Pc.blocks : Pc → Bool
  | .addTimer => true
  | .addEvent _ => true
  | .YieldToHold _ => true
  | .hold _ => true
  | .cancel _ => true
  | .test => true
  | .giveUp _ => true
  | .getsockopt => true
  | _ => false

theorem Pc.fresh_of_blocks {pc : Pc} (h : pc.blocks = true) : pc.fresh = false := by
  cases pc <;> first | rfl | cases h

namespace Hook

variable {S F C : Type}

-- what the original function has returned since the last call began
def resultsStep (rs : List (Int × Nat)) : Act S F C → List (Int × Nat)
  | .fiber (.enter _ _ _) => []
  | .fiber (.origin n errno) => rs ++ [(n, errno)]
  | _ => rs

def results (ls : List (Act S F C × Option Int)) : List (Int × Nat) :=
  ls.foldl (fun rs l => resultsStep rs l.1) []

-- the last `errno` that `addEvent` has left
def refusalStep (e : Nat) : Act S F C → Nat
  | .fiber (.addEvent _ _ errno) => errno
  | _ => e

def refusal (ls : List (Act S F C × Option Int)) : Nat :=
  ls.foldl (fun e l => refusalStep e l.1) 0

def TriesAgain (fn : HookFun) (r : Int × Nat) : Prop :=
  r = fn.blocked ∨ fn.isConnect = false ∧ r = (-1, EINTR)

structure Tries (a : Activation) (rs : List (Int × Nat)) : Prop where
  again : ∀ r ∈ rs, TriesAgain a.fn r
  fresh : a.pc.fresh = true → rs = []
  blocked : a.pc.blocks = true → rs.getLast? = some a.fn.blocked
  once : a.fn.isConnect = true → rs.length ≤ 1 ∧ (a.pc = .origin → rs = [])
  cancelled : ∀ info, a.tinfo = some info → info.cancelled = 0 ∨ info.cancelled = ETIMEDOUT

-- what a call returns for the result of `getsockopt` and the error that it has read
inductive Reads (rt : Int) (error e : Nat) : Int → Nat → Prop where
  | fails (h : rt = -1) : Reads rt error e (-1) e
  | succeeds {errno : Nat} (h : rt ≠ -1) (hnone : error = 0) : Reads rt error e 0 errno
  | reports (h : rt ≠ -1) (herror : error ≠ 0) : Reads rt error e (-1) error

/--
What the call returns in its last step, when the original function has returned `rs` and `addEvent`
has left `e`.
-/
inductive Answers (a : Activation) (rs : List (Int × Nat)) (e : Nat) (step : FiberStep S) (n : Int)
    (errno : Nat) : Prop where
  | origin (hlast : rs.getLast? = some (n, errno))
    (hfinal : a.pc = .direct ∨ ¬ TriesAgain a.fn (n, errno))
  | badFile (hnone : rs = []) (hn : n = -1) (herrno : errno = EBADF)
  | timedOut (hlast : rs.getLast? = some a.fn.blocked) (hn : n = -1)
    (herrno : errno = ETIMEDOUT)
  | refused {timer : Option Nat} (hpc : a.pc = .giveUp timer) (hfn : a.fn.isConnect = false)
    (hlast : rs.getLast? = some a.fn.blocked) (hn : n = -1) (herrno : errno = e)
  | getsockopt {rt : Int} {error e' : Nat} (hstep : step = .getsockopt rt error e')
    (hpc : a.pc = .getsockopt) (hlast : rs.getLast? = some a.fn.blocked)
    (hreads : Reads rt error e' n errno)

section Call

variable {s s' : Hook S F C} {a : Activation} {rs : List (Int × Nat)} {out : Option Int} {e : Nat}
  {step : FiberStep S}

def Behaves (a : Activation) (rs : List (Int × Nat)) (e : Nat) (step : FiberStep S)
    (s' : Hook S F C) : Option Int → Prop
  | none => ∃ a', s'.call = some a' ∧ Tries a' rs
  | some n => s'.call = none ∧ (∀ r ∈ rs.dropLast, TriesAgain a.fn r)
    ∧ (a.fn.isConnect = true → rs.length ≤ 1) ∧ Answers a rs e step n s'.errno

theorem Tries.goto {a' : Activation} (h : Tries a rs) (hfn : a'.fn = a.fn)
    (hfresh : a'.pc.fresh = true → rs = [])
    (hblocks : a'.pc.blocks = true → rs.getLast? = some a.fn.blocked)
    (horigin : a'.pc = .origin → a.fn.isConnect = true → rs = [])
    (hinfo : a'.tinfo = a.tinfo ∨ ∃ addr, a'.tinfo = some ⟨addr, 0⟩) : Tries a' rs where
  again := by
    rw [hfn]
    exact h.again
  fresh := hfresh
  blocked := by
    rw [hfn]
    exact hblocks
  once hconnect := by
    rw [hfn] at hconnect
    exact ⟨(h.once hconnect).1, fun hpc => horigin hpc hconnect⟩
  cancelled info hsome := by
    rcases hinfo with hsame | ⟨addr, hnew⟩
    . rw [hsame] at hsome
      exact h.cancelled info hsome
    . rw [hnew, Option.some.injEq] at hsome
      rw [← hsome]
      exact .inl rfl

theorem Tries.goto_blocked {pc : Pc} (h : Tries a rs) (hold : a.pc.blocks = true)
    (hnew : pc.blocks = true) : Tries { a with pc := pc } rs := by
  refine h.goto rfl ?_ ?_ ?_ (.inl rfl)
  . intro hfresh
    rw [Pc.fresh_of_blocks hnew] at hfresh
    cases hfresh
  . intro _
    exact h.blocked hold
  . intro hpc
    change pc = .origin at hpc
    rw [hpc] at hnew
    cases hnew

theorem Tries.answers (h : Tries a rs) {n : Int} (hout : out = some n) (hcall : s'.call = none)
    (hanswer : Answers a rs e step n s'.errno) : Behaves a rs e step s' out := by
  subst hout
  refine ⟨hcall, ?_, fun hfn => (h.once hfn).1, hanswer⟩
  intro r hr
  exact h.again r (List.dropLast_subset rs hr)

theorem Tries.answers_origin (h : Tries a rs) {n : Int} {errno : Nat} (hout : out = some n)
    (hcall : s'.call = none) (herrno : s'.errno = errno)
    (honce : a.fn.isConnect = true → rs = [])
    (hfinal : a.pc = .direct ∨ ¬ TriesAgain a.fn (n, errno))
    : Behaves a (rs ++ [(n, errno)]) e step s' out := by
  subst hout herrno
  refine ⟨hcall, ?_, ?_, ?_⟩
  . rw [List.dropLast_concat]
    exact h.again
  . intro hfn
    rw [honce hfn]
    exact Nat.le_refl 1
  . exact .origin List.getLast?_concat hfinal

theorem checkNext_behaves {ctx : FdCtx} (h : Tries a rs) (hfresh : a.pc.fresh = true)
    (hnext : s.checkNext a ctx = (s', out)) : Behaves a rs e step s' out := by
  have hnone := h.fresh hfresh
  unfold checkNext at hnext
  split at hnext
  . cases hnext
    exact h.answers rfl rfl (.badFile hnone rfl rfl)
  . split at hnext
    . cases hnext
      exact ⟨_, rfl, h.goto rfl (fun _ => hnone) nofun nofun (.inl rfl)⟩
    . split at hnext
      . cases hnext
        exact ⟨_, rfl, h.goto rfl nofun nofun (fun _ _ => hnone) (.inr ⟨_, rfl⟩)⟩
      . cases hnext
        exact ⟨_, rfl, h.goto rfl nofun nofun (fun _ _ => hnone) (.inl rfl)⟩

theorem Tries.retries {r : Int × Nat} (h : Tries a rs) (hpc : a.pc = .origin) {pc : Pc}
    (hr : TriesAgain a.fn r) (hfresh : pc.fresh = false)
    (hblocks : pc.blocks = true → r = a.fn.blocked) (horigin : pc = .origin → a.fn.isConnect = false)
    : Tries { a with pc := pc } (rs ++ [r]) where
  again q hq := by
    rw [List.mem_append, List.mem_singleton] at hq
    rcases hq with hq | rfl
    . exact h.again q hq
    . exact hr
  fresh hpc' := by
    rw [hfresh] at hpc'
    cases hpc'
  blocked hpc' := by
    rw [List.getLast?_concat, hblocks hpc']
  once hconnect := by
    constructor
    . rw [(h.once hconnect).2 hpc]
      exact Nat.le_refl 1
    . intro hpc'
      rw [horigin hpc'] at hconnect
      cases hconnect
  cancelled := h.cancelled

theorem originNext_behaves {n : Int} {errno : Nat} (h : Tries a rs) (hpc : a.pc = .origin)
    (hnext : s.originNext a n errno = (s', out))
    : Behaves a (rs ++ [(n, errno)]) e step s' out := by
  have honce : a.fn.isConnect = true → rs = [] := fun hfn => (h.once hfn).2 hpc
  unfold originNext at hnext
  split at hnext
  . next event so hfn =>
    have hconnect : a.fn.isConnect = false := by rw [hfn]; rfl
    split at hnext
    . next hintr =>
      obtain ⟨rfl, rfl⟩ := hintr
      cases hnext
      exact ⟨_, rfl, h.retries hpc (.inr ⟨hconnect, rfl⟩) rfl nofun fun _ => hconnect⟩
    . next hintr =>
      split at hnext
      . next hagain =>
        obtain ⟨rfl, rfl⟩ := hagain
        cases hnext
        have hblocked : ((-1, EAGAIN) : Int × Nat) = a.fn.blocked := by rw [hfn]; rfl
        exact ⟨_, rfl, h.retries hpc (.inl hblocked) rfl (fun _ => hblocked) nofun⟩
      . next hagain =>
        cases hnext
        refine h.answers_origin rfl rfl rfl honce (.inr ?_)
        rintro (hblocked | ⟨-, heq⟩)
        . rw [hfn] at hblocked
          injection hblocked with hn herrno
          exact hagain ⟨hn, herrno⟩
        . injection heq with hn herrno
          exact hintr ⟨hn, herrno⟩
  . next ms hfn =>
    have hconnect : a.fn.isConnect = true := by rw [hfn]; rfl
    have hagain : ∀ {r}, TriesAgain a.fn r → r = (-1, EINPROGRESS) := by
      rintro r (hblocked | ⟨hnot, -⟩)
      . rw [hblocked, hfn]
        rfl
      . rw [hconnect] at hnot
        cases hnot
    split at hnext
    . next hzero =>
      subst hzero
      cases hnext
      refine h.answers_origin rfl rfl rfl honce (.inr ?_)
      intro htries
      cases hagain htries
    . split at hnext
      . next hother =>
        cases hnext
        refine h.answers_origin rfl rfl rfl honce (.inr ?_)
        intro htries
        cases hagain htries
        exact hother.elim (fun hn => hn rfl) fun herrno => herrno rfl
      . next hblocked =>
        rw [not_or, not_not, not_not] at hblocked
        obtain ⟨rfl, rfl⟩ := hblocked
        cases hnext
        have hblocked : ((-1, EINPROGRESS) : Int × Nat) = a.fn.blocked := by rw [hfn]; rfl
        have htries : Tries { a with pc := .addTimer } (rs ++ [(-1, EINPROGRESS)]) :=
          h.retries hpc (.inl hblocked) rfl (fun _ => hblocked) nofun
        refine ⟨_, rfl, htries.goto rfl nofun ?_ nofun (.inr ⟨_, rfl⟩)⟩
        intro _
        exact htries.blocked rfl

theorem testNext_behaves {info : TimerInfo} (h : Tries a rs) (hpc : a.pc = .test)
    (hinfo : a.tinfo = some info) (hnext : s.testNext a info = (s', out))
    : Behaves a rs e step s' out := by
  have hblocks : a.pc.blocks = true := by rw [hpc]; rfl
  unfold testNext at hnext
  split at hnext
  . next hcancelled =>
    cases hnext
    refine h.answers rfl rfl (.timedOut (h.blocked hblocks) rfl ?_)
    exact (h.cancelled info hinfo).resolve_left hcancelled
  . split at hnext
    . next event so hfn =>
      cases hnext
      refine ⟨_, rfl, h.goto rfl nofun nofun ?_ (.inl rfl)⟩
      intro _ hconnect
      rw [hfn] at hconnect
      cases hconnect
    . cases hnext
      exact ⟨_, rfl, h.goto_blocked hblocks rfl⟩

variable {fiber : F} {scheduler : S}

theorem fiberNext_behaves [DecidableEq F] (h : Tries a rs)
    (herrno : ∀ timer, a.pc = .giveUp timer → s.errno = e)
    (hnext : s.fiberNext fiber scheduler a a.pc step = .ok (s', out))
    : Behaves a (resultsStep rs (.fiber step : Act S F C)) e step s' out := by
  unfold fiberNext at hnext
  split at hnext
  . next hpc =>
    have hfresh : a.pc.fresh = true := by rw [hpc]; rfl
    have hnone := h.fresh hfresh
    split at hnext
    . cases hnext
    . cases hnext
      exact ⟨_, rfl, h.goto rfl (fun _ => hnone) nofun nofun (.inl rfl)⟩
    . split at hnext
      . cases hnext
        exact ⟨_, rfl, h.goto rfl (fun _ => hnone) nofun nofun (.inl rfl)⟩
      . cases hnext
        exact h.answers rfl rfl (.badFile hnone rfl rfl)
  . next hpc =>
    split at hnext
    . cases hnext
    . injection hnext with hnext
      exact checkNext_behaves h (by rw [hpc]; rfl) hnext
  . next hpc =>
    have hnone := h.fresh (by rw [hpc]; rfl)
    cases hnext
    exact h.answers_origin rfl rfl rfl (fun _ => hnone) (.inl hpc)
  . next hpc =>
    injection hnext with hnext
    exact originNext_behaves h hpc hnext
  . next hpc =>
    have hblocks : a.pc.blocks = true := by rw [hpc]; rfl
    split at hnext
    . cases hnext
    . split at hnext
      . obtain ⟨timers, r, hcall, hk⟩ := onTimers_eq_ok hnext
        split at hk
        . cases hk
          exact ⟨_, rfl, h.goto_blocked hblocks rfl⟩
        . cases hk
          exact ⟨_, rfl, h.goto_blocked hblocks rfl⟩
      . cases hnext
        exact ⟨_, rfl, h.goto_blocked hblocks rfl⟩
  . next hpc =>
    have hblocks : a.pc.blocks = true := by rw [hpc]; rfl
    obtain ⟨iom, r, hcall, hk⟩ := onIom_eq_ok hnext
    split at hk
    . cases hk
      exact ⟨_, rfl, h.goto_blocked hblocks rfl⟩
    . cases hk
      exact ⟨_, rfl, h.goto_blocked hblocks rfl⟩
  . next hpc =>
    cases hnext
    exact ⟨_, rfl, h.goto_blocked (by rw [hpc]; rfl) rfl⟩
  . next hpc =>
    split at hnext
    . cases hnext
      exact ⟨_, rfl, h.goto_blocked (by rw [hpc]; rfl) rfl⟩
    . cases hnext
  . next hpc =>
    obtain ⟨timers, hcancels, hk⟩ := cancelTimer_eq_ok hnext
    cases hk
    exact ⟨_, rfl, h.goto_blocked (by rw [hpc]; rfl) rfl⟩
  . next hpc =>
    split at hnext
    . cases hnext
    . next info hinfo =>
      injection hnext with hnext
      exact testNext_behaves h hpc hinfo hnext
  . next hpc =>
    have hblocks : a.pc.blocks = true := by rw [hpc]; rfl
    obtain ⟨timers, hcancels, hk⟩ := cancelTimer_eq_ok hnext
    split at hk
    . next hfn =>
      cases hk
      have hconnect : a.fn.isConnect = false := by rw [hfn]; rfl
      exact h.answers rfl rfl (.refused hpc hconnect (h.blocked hblocks) rfl (herrno _ hpc))
    . cases hk
      exact ⟨_, rfl, h.goto_blocked hblocks rfl⟩
  . next hpc =>
    have hlast := h.blocked (by rw [hpc]; rfl)
    split at hnext
    . next hrt =>
      cases hnext
      exact h.answers rfl rfl (.getsockopt rfl hpc hlast (.fails hrt))
    . next hrt =>
      split at hnext
      . next hnone =>
        cases hnext
        exact h.answers rfl rfl (.getsockopt rfl hpc hlast (.succeeds hrt hnone))
      . next hnone =>
        cases hnext
        exact h.answers rfl rfl (.getsockopt rfl hpc hlast (.reports hrt hnone))
  . cases hnext

def Refused (s : Hook S F C) (e : Nat) : Prop :=
  ∀ a timer, s.call = some a → a.pc = .giveUp timer → s.errno = e

theorem Refused.of_pc {a' : Activation} (hcall : s.call = some a')
    (hpc : ∀ timer, a'.pc ≠ .giveUp timer) : Refused s e := by
  intro a timer hcall' hpc'
  rw [hcall, Option.some.injEq] at hcall'
  rw [← hcall'] at hpc'
  exact absurd hpc' (hpc timer)

theorem Refused.of_leave (hcall : s.call = none) : Refused s e := by
  intro a timer hcall'
  rw [hcall] at hcall'
  cases hcall'

theorem checkNext_refused {ctx : FdCtx} (hnext : s.checkNext a ctx = (s', out)) : Refused s' e := by
  unfold checkNext at hnext
  split at hnext
  . cases hnext
    exact .of_leave rfl
  . split at hnext
    . cases hnext
      exact .of_pc rfl nofun
    . split at hnext
      . cases hnext
        exact .of_pc rfl nofun
      . cases hnext
        exact .of_pc rfl nofun

theorem originNext_refused {n : Int} {errno : Nat} (hnext : s.originNext a n errno = (s', out))
    : Refused s' e := by
  unfold originNext at hnext
  split at hnext
  . split at hnext
    . cases hnext
      exact .of_pc rfl nofun
    . split at hnext
      . cases hnext
        exact .of_pc rfl nofun
      . cases hnext
        exact .of_leave rfl
  . split at hnext
    . cases hnext
      exact .of_leave rfl
    . split at hnext
      . cases hnext
        exact .of_leave rfl
      . cases hnext
        exact .of_pc rfl nofun

theorem testNext_refused {info : TimerInfo} (hnext : s.testNext a info = (s', out))
    : Refused s' e := by
  unfold testNext at hnext
  split at hnext
  . cases hnext
    exact .of_leave rfl
  . split at hnext
    . cases hnext
      exact .of_pc rfl nofun
    . cases hnext
      exact .of_pc rfl nofun

theorem fiberNext_refused [DecidableEq F]
    (hnext : s.fiberNext fiber scheduler a a.pc step = .ok (s', out))
    : Refused s' (refusalStep e (.fiber step : Act S F C)) := by
  unfold fiberNext at hnext
  split at hnext
  . split at hnext
    . cases hnext
    . cases hnext
      exact .of_pc rfl fun _ h => by cases h
    . split at hnext
      . cases hnext
        exact .of_pc rfl fun _ h => by cases h
      . cases hnext
        exact .of_leave rfl
  . split at hnext
    . cases hnext
    . injection hnext with hnext
      exact checkNext_refused hnext
  . cases hnext
    exact .of_leave rfl
  . injection hnext with hnext
    exact originNext_refused hnext
  . split at hnext
    . cases hnext
    . split at hnext
      . obtain ⟨timers, r, hcall, hk⟩ := onTimers_eq_ok hnext
        split at hk
        . cases hk
          exact .of_pc rfl fun _ h => by cases h
        . cases hk
          exact .of_pc rfl fun _ h => by cases h
      . cases hnext
        exact .of_pc rfl fun _ h => by cases h
  . obtain ⟨iom, r, hcall, hk⟩ := onIom_eq_ok hnext
    split at hk
    . cases hk
      exact .of_pc rfl fun _ h => by cases h
    . cases hk
      intro a' timer' hcall' hpc'
      rfl
  . cases hnext
    exact .of_pc rfl fun _ h => by cases h
  . split at hnext
    . cases hnext
      exact .of_pc rfl fun _ h => by cases h
    . cases hnext
  . obtain ⟨timers, hcancels, hk⟩ := cancelTimer_eq_ok hnext
    cases hk
    exact .of_pc rfl fun _ h => by cases h
  . split at hnext
    . cases hnext
    . injection hnext with hnext
      exact testNext_refused hnext
  . obtain ⟨timers, hcancels, hk⟩ := cancelTimer_eq_ok hnext
    split at hk
    . cases hk
      exact .of_leave rfl
    . cases hk
      exact .of_pc rfl fun _ h => by cases h
  . split at hnext
    . cases hnext
      exact .of_leave rfl
    . split at hnext
      . cases hnext
        exact .of_leave rfl
      . cases hnext
        exact .of_leave rfl
  . cases hnext

end Call

section Run

variable {fiber : F} {scheduler : S} {s s' : Hook S F C} {act : Act S F C} {out : Option Int}
  {rs : List (Int × Nat)} {a : Activation}

theorem PeerMoves.call {peer : Peer} {step : PeerStep} (h : PeerMoves s peer step s')
    : s'.call = s.call := by
  cases h with
  | aside => rfl
  | cancelAll => rfl
  | close_f => rfl
  | «open» => rfl

theorem onFds_out {fds : Except Fault FdManager} {k : Hook S F C → Hook S F C}
    (h : s.onFds fds k = .ok (s', out)) : out = none := by
  unfold onFds at h
  split at h
  . cases h
  . cases h
    rfl

theorem peerNext_out {th : Nat} {peer : Peer} {step : PeerStep}
    (h : s.peerNext th peer step = .ok (s', out)) : out = none := by
  unfold peerNext at h
  split at h
  . split at h
    . cases h
    . cases h
      rfl
  . obtain ⟨iom, r, hcall, hk⟩ := onIom_eq_ok h
    cases hk
    rfl
  . exact onFds_out h
  . cases h
    rfl
  . split at h
    . cases h
      rfl
    . cases h
  . split at h
    . cases h
    . cases h
      rfl
    . cases h
      rfl
  . exact onFds_out h
  . cases h
    rfl
  . cases h
    rfl
  . cases h

theorem tries_enter (s : Hook S F C) (fn : HookFun) (fd : Int) (t_hook_enable : Bool)
    (hcall : (s.enter fn fd t_hook_enable).call = some a) : Tries a [] := by
  cases hcall
  refine ⟨nofun, fun _ => rfl, ?_, fun _ => ⟨Nat.zero_le 1, fun _ => rfl⟩, nofun⟩
  intro hblocks
  cases t_hook_enable <;> cases hblocks

theorem Tries.timeOut {info : TimerInfo} (h : Tries a rs)
    : Tries { a with tinfo := some { info with cancelled := ETIMEDOUT } } rs where
  again := h.again
  fresh := h.fresh
  blocked := h.blocked
  once := h.once
  cancelled info' hinfo := by
    rw [← Option.some.inj hinfo]
    exact .inr rfl

theorem PeerMoves.errno {peer : Peer} {step : PeerStep} (h : PeerMoves s peer step s')
    : s'.errno = s.errno := by
  cases h with
  | aside => rfl
  | cancelAll => rfl
  | close_f => rfl
  | «open» => rfl

theorem step_refused [DecidableEq F] {e : Nat} (h : Refused s e)
    (hstep : s.step fiber scheduler act = .ok (s', out)) : Refused s' (refusalStep e act) := by
  have hstep' := step_steps hstep
  cases hstep' with
  | @enter fn fd t_hook_enable =>
    apply Refused.of_pc rfl
    intro timer
    cases t_hook_enable <;> nofun
  | fiber hcall hnext => exact fiberNext_refused hnext
  | collect => exact h
  | dropCb => exact h
  | timeOut hplace hlock =>
    intro a' timer hcall hpc
    rw [← Option.some.inj hcall] at hpc
    exact h _ timer (lock_eq_some hlock).1 hpc
  | cancelEvent => exact h
  | timers => exact h
  | iom => exact h
  | take => exact h
  | peer hmoves =>
    intro a' timer hcall hpc
    rw [PeerMoves.call hmoves] at hcall
    rw [PeerMoves.errno hmoves]
    exact h a' timer hcall hpc

theorem step_behaves [DecidableEq F] {e : Nat} (h : ∀ a, s.call = some a → Tries a rs)
    (hrefused : Refused s e) (hstep : s.step fiber scheduler act = .ok (s', out))
    : (∀ a, s'.call = some a → Tries a (resultsStep rs act))
      ∧ ∀ n, out = some n → ∃ a step, act = .fiber step ∧ s.call = some a
        ∧ Behaves a (resultsStep rs act) e step s' (some n) := by
  have hstep' := step_steps hstep
  cases hstep' with
  | @enter fn fd t_hook_enable =>
    exact ⟨fun a hcall => tries_enter s fn fd t_hook_enable hcall, nofun⟩
  | @fiber a step _ _ hcall hnext =>
    have hbehaves := fiberNext_behaves (h a hcall) (fun timer => hrefused a timer hcall) hnext
    constructor
    . intro a' hcall'
      cases out with
      | none =>
        obtain ⟨a'', hcall'', htries⟩ := hbehaves
        rw [hcall', Option.some.injEq] at hcall''
        rw [hcall'']
        exact htries
      | some n =>
        rw [hbehaves.1] at hcall'
        cases hcall'
    . rintro n rfl
      exact ⟨a, step, rfl, hcall, hbehaves⟩
  | collect => exact ⟨h, nofun⟩
  | dropCb => exact ⟨h, nofun⟩
  | timeOut hplace hlock =>
    refine ⟨?_, nofun⟩
    intro a' hcall
    rw [← Option.some.inj hcall]
    exact (h _ (lock_eq_some hlock).1).timeOut
  | cancelEvent => exact ⟨h, nofun⟩
  | timers => exact ⟨h, nofun⟩
  | iom => exact ⟨h, nofun⟩
  | take => exact ⟨h, nofun⟩
  | @peer th step _ _ hmoves =>
    constructor
    . intro a' hcall
      rw [PeerMoves.call hmoves] at hcall
      exact h a' hcall
    . rintro n rfl
      cases peerNext_out hstep

theorem results_snoc (ls : List (Act S F C × Option Int)) (l : Act S F C × Option Int)
    : results (ls ++ [l]) = resultsStep (results ls) l.1 := by
  unfold results
  rw [List.foldl_append]
  rfl

theorem refusal_snoc (ls : List (Act S F C × Option Int)) (l : Act S F C × Option Int)
    : refusal (ls ++ [l]) = refusalStep (refusal ls) l.1 := by
  unfold refusal
  rw [List.foldl_append]
  rfl

theorem run_tries [DecidableEq F] {s₀ : Hook S F C} {ls : List (Act S F C × Option Int)}
    (hinit : s₀.Init) (hrun : (lts fiber scheduler C).Run s₀ ls s)
    : (∀ a, s.call = some a → Tries a (results ls)) ∧ Refused s (refusal ls) := by
  have hstep : ∀ (pre : List (Act S F C × Option Int)) (s : Hook S F C)
      (l : Act S F C × Option Int) (s' : Hook S F C),
      (∀ a, s.call = some a → Tries a (results pre)) ∧ Refused s (refusal pre)
        → (lts fiber scheduler C).step s l s'
        → (∀ a, s'.call = some a → Tries a (results (pre ++ [l])))
          ∧ Refused s' (refusal (pre ++ [l])) := by
    intro pre s l s' h hstep
    rw [results_snoc, refusal_snoc]
    exact ⟨(step_behaves h.1 h.2 hstep).1, step_refused h.2 hstep⟩
  have hall : (∀ a, s.call = some a → Tries a (results ([] ++ ls)))
      ∧ Refused s (refusal ([] ++ ls)) := by
    apply hrun.history hstep
    refine ⟨?_, .of_leave hinit.call⟩
    intro a hcall
    rw [hinit.call] at hcall
    cases hcall
  exact hall

/--
When a hooked call returns, whatever the other threads do: the results of the original function before
the last one were all of the kind that transfers nothing, and the call returns the last one unless it
has given up waiting after one of this kind, when it returns the reason. `connect` calls the original
function at most once.
-/
theorem run_answers [DecidableEq F] {s₀ : Hook S F C} {ls : List (Act S F C × Option Int)} {n : Int}
    (hinit : s₀.Init) (hrun : (lts fiber scheduler C).Run s₀ ls s)
    (hstep : s.step fiber scheduler act = .ok (s', some n))
    : ∃ a step, act = .fiber step ∧ s.call = some a ∧ s'.call = none
      ∧ (∀ r ∈ (results (ls ++ [(act, some n)])).dropLast, TriesAgain a.fn r)
      ∧ (a.fn.isConnect = true → (results (ls ++ [(act, some n)])).length ≤ 1)
      ∧ Answers a (results (ls ++ [(act, some n)])) (refusal ls) step n s'.errno := by
  obtain ⟨htries, hrefused⟩ := run_tries hinit hrun
  obtain ⟨a, step, hact, hcall, hbehaves⟩ := (step_behaves htries hrefused hstep).2 n rfl
  rw [results_snoc]
  exact ⟨a, step, hact, hcall, hbehaves⟩

def readInterrupted : List (Act Unit Nat Nat × Option Int) :=
  [
    (.peer 0 (.open 5 true true), none),
    (.peer 0 .get, none),
    (.peer 0 .create, none),
    (.fiber (.enter (.do_io .READ .SO_RCVTIMEO) 5 true), none),
    (.fiber .get, none),
    (.fiber .check, none),
    (.fiber (.origin (-1) EINTR), none)
  ]

theorem run_answers_interrupted
    : ∃ (s' : Hook Unit Nat Nat) (a : Activation), s'.call = none
      ∧ (∀ r ∈ [((-1 : Int), EINTR)], TriesAgain a.fn r)
      ∧ Answers a [(-1, EINTR), (3, 0)] 0 (.origin 3 0 : FiberStep Unit) 3 s'.errno := by
  have hreplay : (LTS.replay (step 7 ()) (start 4 0 (fun _ _ => none))
      (readInterrupted ++ [(.fiber (.origin 3 0), some 3)])).isSome = true := by
    decide +kernel
  rw [Option.isSome_iff_exists] at hreplay
  obtain ⟨s', hs'⟩ := hreplay
  obtain ⟨s, hrun, hlast⟩ := (LTS.run_of_replay hs').of_append
  cases hlast with
  | cons hstep hnil =>
    cases hnil
    obtain ⟨a, step, hact, -, hcall, hagain, -, hanswers⟩ :=
      run_answers (start_init 4 0 _) hrun hstep
    cases hact
    exact ⟨s', a, hcall, hagain, hanswers⟩

end Run

end Hook

end CXS
