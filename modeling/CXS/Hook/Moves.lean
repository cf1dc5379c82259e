import CXS.Hook.Basic
import CXS.IOManager.Dispatch

namespace CXS

variable {S F C : Type}

namespace IOManager

variable {m m' : IOManager S F C} {c : Call S F C} {r : Result} {i : Nat} {e : Event} {scheduler : S}
  {task : Task F C}

theorem Effect.scheduled_subset (h : Effect m m' c r) : m.scheduled ⊆ m'.scheduled := by
  cases h with
  | keep _ hframe =>
    rw [hframe.scheduled]
    apply List.Subset.refl
  | register hframe _ hedit =>
    rw [hedit.scheduled, hframe.scheduled]
    apply List.subset_append_left
  | del _ hedit =>
    rw [hedit.scheduled]
    apply List.subset_append_left
  | trigger hframe _ _ hedit =>
    rw [hedit.scheduled, hframe.scheduled]
    apply List.subset_append_left

theorem mem_scheduled_of_scheduledFor {x : Scheduled S F C} {l : List (Scheduled S F C)}
    (h : m.scheduledFor i e = l ++ [x]) : x ∈ m.scheduled := by
  have hx : x ∈ m.scheduledFor i e := by
    rw [h]
    apply List.mem_append_right
    apply List.mem_singleton_self
  apply List.mem_of_mem_filter hx

theorem pending_or_scheduled (hinv : m.Inv) (h : Effect m m' c r)
    (hdel : ∀ fd e ctl, c ≠ .delEvent fd e ctl) (hp : Pending m i e scheduler task)
    : Pending m' i e scheduler task ∨ ∃ x ∈ m'.scheduled, x.task = task := by
  rcases pending_step hinv h hp with ⟨hp', -⟩ | ⟨-, ⟨hdeletes, -⟩ | ⟨-, hscheduled⟩⟩
  . left
    apply hp'
  . obtain ⟨ctl, heq⟩ := hdeletes
    injection heq with heq
    exact absurd heq (hdel _ _ _)
  . right
    exact ⟨_, mem_scheduled_of_scheduledFor hscheduled, rfl⟩

theorem cancelEvent_eq_true {fd : Int} {ctx : FdContext S F C} (hinv : m.Inv)
    (h : m.call (.cancelEvent fd e true) = .ok (m', r))
    (hget : m.m_fdContexts[fd.toNat]? = some ctx) (hhas : ctx.events.has e = true)
    : r = .bool true := by
  obtain ⟨⟨m1, ret⟩, hcall, heq⟩ := Except.map_eq_ok h
  injection heq with _ hr
  rw [← hr]
  unfold cancelEvent withdraw at hcall
  split at hcall
  . next hle =>
    have := (List.getElem?_eq_some_iff.mp hget).1
    omega
  . split at hcall
    . cases hcall
    . have hepoll := hinv.epoll_eq hget (Events.ne_none_of_has hhas)
      have hctl := epoll_ctl_isSome (ctx.events.remove e) ⟨ctx.events.remove e, .ptr fd.toNat⟩ true
        hepoll
      rw [hget] at hcall
      simp only [hhas, Bool.not_true, Bool.false_eq_true, if_false] at hcall
      split at hcall
      . next hnone =>
        rw [hnone] at hctl
        cases hctl
      . obtain ⟨_, -, heq⟩ := Except.map_eq_ok hcall
        injection heq with _ heq
        rw [heq]

theorem cancelEvent_scheduled {fd : Int} (hinv : m.Inv)
    (h : m.call (.cancelEvent fd e true) = .ok (m', r))
    (hp : Pending m fd.toNat e scheduler task) : ∃ x ∈ m'.scheduled, x.task = task := by
  have hslot := hp
  unfold Pending slot at hslot
  rw [Option.map_eq_some_iff] at hslot
  obtain ⟨ctx, hget, hx⟩ := hslot
  injection hx with hhas hctx
  have hr := cancelEvent_eq_true hinv h hget hhas
  cases call_effect hinv h with
  | keep hne _ => exact absurd hr hne.2
  | @trigger _ _ m1 j es ctx1 hframe hc _ hedit =>
    have hes : fd = j ∧ es = .single e := by
      rcases hc with ⟨e', ctl, hc, -, rfl⟩ | ⟨ctl, hc, -⟩ | ⟨thread, ctl, hc, -⟩
      . injection hc with hfd he
        rw [he]
        exact ⟨hfd, rfl⟩
      . cases hc
      . cases hc
    obtain ⟨rfl, rfl⟩ := hes
    have hget1 := hframe.get_old hget
    rw [Int.toNat_natCast, hedit.get] at hget1
    injection hget1 with heq
    refine ⟨⟨ctx.fd, e, scheduler, task⟩, ?_, rfl⟩
    rw [hedit.scheduled, FdContext.entries_single, heq, FdContext.entry_eq hctx]
    apply List.mem_append_right
    apply List.mem_singleton_self

end IOManager

namespace TimerManager

variable {Cb : Type} {tm tm' : TimerManager Cb} {c : Call Cb} {r : Result Cb} {t : Nat} {cb : Cb}

def cbOf (heap : List (Timer Cb)) (t : Nat) : Option Cb :=
  heap[t]?.bind Timer.m_cb

theorem lt_of_cbOf {heap : List (Timer Cb)} (h : cbOf heap t = some cb) : t < heap.length := by
  unfold cbOf at h
  rw [Option.bind_eq_some_iff] at h
  obtain ⟨timer, hget, -⟩ := h
  apply (List.getElem?_eq_some_iff.mp hget).1

theorem mem_of_cbOf (hinv : Inv tm.heap tm.m_timers []) (h : cbOf tm.heap t = some cb)
    : t ∈ tm.m_timers := by
  unfold cbOf at h
  rw [Option.bind_eq_some_iff] at h
  obtain ⟨timer, hget, hcb⟩ := h
  have hmem := (hinv.mem_iff t timer hget).mpr (by rw [hcb, Option.isSome_some])
  simpa using hmem

theorem CallSpec.cbOf (h : CallSpec tm c tm' r) (hcb : cbOf tm'.heap t = some cb)
    : TimerManager.cbOf tm.heap t = some cb
      ∨ ∃ addr ms recurring now, c = .addTimer addr ms cb recurring now := by
  unfold TimerManager.cbOf at hcb
  rw [Option.bind_eq_some_iff] at hcb
  obtain ⟨timer, hget, hcb⟩ := hcb
  by_cases hlt : t < tm.heap.length
  . left
    obtain ⟨old, hold, -, heq⟩ := h.old hget hlt
    rw [hcb] at heq
    unfold TimerManager.cbOf
    rw [hold, Option.bind_some]
    apply (heq.resolve_right (by simp)).symm
  . right
    rcases h.length with hlen | ⟨addr, ms, cb', recurring, now, n, timer', hc, -, hheap, hcb'⟩
    . have := (List.getElem?_eq_some_iff.mp hget).1
      omega
    . have hlen := (List.getElem?_eq_some_iff.mp hget).1
      rw [hheap, List.length_append, List.length_singleton] at hlen
      have ht : t = tm.heap.length := by omega
      rw [hheap, ht, List.getElem?_concat_length] at hget
      injection hget with hget
      rw [← hget, hcb'] at hcb
      injection hcb with hcb
      rw [hc, hcb]
      exact ⟨addr, ms, recurring, now, rfl⟩

theorem cbOf_addTimer {addr ms now : Nat} {recurring : Bool}
    (h : tm.callLocked (.addTimer addr ms cb recurring now) = some (.ok (tm', r)))
    : ∃ t n, r = .timer t n ∧ cbOf tm'.heap t = some cb := by
  injection h with h
  obtain ⟨⟨tm1, t, n⟩, hret, heq⟩ := Except.map_eq_ok h
  cases heq
  unfold addTimer at hret
  split at hret
  . cases hret
  . simp only [Except.ok.injEq, Prod.mk.injEq] at hret
    obtain ⟨rfl, rfl, -⟩ := hret
    refine ⟨_, _, rfl, ?_⟩
    unfold cbOf
    rw [insertTimer_heap, List.getElem?_concat_length, Option.bind_some]

theorem cbOf_takeExpired {now addr : Nat} {ts : List Nat} {cbs : List (Option Cb)}
    (hinv : Inv tm.heap tm.m_timers []) (h : tm.takeExpired now addr = .ok (tm', ts, cbs))
    (hcb : cbOf tm.heap t = some cb) : cbOf tm'.heap t = some cb ∨ some cb ∈ cbs := by
  by_cases ht : t ∈ ts
  . right
    obtain ⟨-, -, -, rfl⟩ := (takeExpired_spec hinv h).expired ts cbs rfl
    rw [List.mem_map]
    exact ⟨t, ht, hcb⟩
  . left
    unfold cbOf
    rw [takeExpired_untouched h ht]
    apply hcb

theorem cbOf_of_collected {now addr : Nat} {ts : List Nat} {cbs : List (Option Cb)}
    (hinv : Inv tm.heap tm.m_timers []) (h : tm.takeExpired now addr = .ok (tm', ts, cbs))
    (hcb : some cb ∈ cbs) : ∃ t, cbOf tm.heap t = some cb := by
  obtain ⟨-, -, -, rfl⟩ := (takeExpired_spec hinv h).expired ts cbs rfl
  rw [List.mem_map] at hcb
  obtain ⟨t, -, ht⟩ := hcb
  exact ⟨t, ht⟩

end TimerManager

namespace Hook

theorem not_touches_of_foreign {heap : List (Timer (TimerCb C))} {t winfo : Nat} {fd : Int}
    {event : Event} {c : TimerManager.Call (TimerCb C)} (h : foreignTimers heap c = true)
    (hcb : TimerManager.cbOf heap t = some (.timeout winfo fd event)) : c.touches t = false := by
  have hne : ∀ {a : Nat}, foreignTimer heap a = true → (a == t) = false := by
    intro a ha
    rw [beq_eq_false_iff_ne]
    intro heq
    rw [heq] at ha
    unfold foreignTimer at ha
    unfold TimerManager.cbOf at hcb
    rw [hcb] at ha
    cases ha
  cases c with
  | cancel a => apply hne h
  | refresh a now => apply hne h
  | reset a ms from_now now => apply hne h
  | addTimer addr ms cb recurring now => rfl
  | getNextTimer now => rfl
  | listExpiredTimer now addr => rfl

theorem cbOf_foreign {tm tm' : TimerManager (TimerCb C)} {t winfo : Nat} {fd : Int} {event : Event}
    {c : TimerManager.Call (TimerCb C)} {r : TimerManager.Result (TimerCb C)}
    (hforeign : foreignTimers tm.heap c = true) (h : tm.callLocked c = some (.ok (tm', r)))
    (hcb : TimerManager.cbOf tm.heap t = some (.timeout winfo fd event))
    : TimerManager.cbOf tm'.heap t = some (.timeout winfo fd event) := by
  unfold TimerManager.cbOf
  rw [TimerManager.callLocked_untouched h (TimerManager.lt_of_cbOf hcb)
    (not_touches_of_foreign hforeign hcb)]
  apply hcb

section Fiber

variable {fiber : F} {scheduler : S} {s s' : Hook S F C} {a : Activation} {out : Option Int}

theorem onIom_eq_ok {c : IOManager.Call S F C}
    {k : Hook S F C → IOManager.Result → Hook S F C × Option Int}
    (h : s.onIom c k = .ok (s', out))
    : ∃ iom r, s.iom.call c = .ok (iom, r) ∧ k { s with iom := iom } r = (s', out) := by
  unfold onIom at h
  split at h
  . cases h
  . next iom r hcall =>
    injection h with h
    exact ⟨iom, r, hcall, h⟩

theorem onTimers_eq_ok {c : TimerManager.Call (TimerCb C)}
    {k : Hook S F C → TimerManager.Result (TimerCb C) → Hook S F C × Option Int}
    (h : s.onTimers c k = .ok (s', out))
    : ∃ timers r, s.timers.callLocked c = some (.ok (timers, r))
      ∧ k { s with timers := timers } r = (s', out) := by
  unfold onTimers at h
  split at h
  . cases h
  . cases h
  . next timers r hcall =>
    injection h with h
    exact ⟨timers, r, hcall, h⟩

def Cancels (timers : TimerManager (TimerCb C)) (timer : Option Nat)
    (timers' : TimerManager (TimerCb C)) : Prop :=
  match timer with
  | none => timers' = timers
  | some t => ∃ r, timers.callLocked (.cancel t) = some (.ok (timers', r))

theorem cancelTimer_eq_ok {timer : Option Nat} {k : Hook S F C → Hook S F C × Option Int}
    (h : s.cancelTimer timer k = .ok (s', out))
    : ∃ timers, Cancels s.timers timer timers ∧ k { s with timers := timers } = (s', out) := by
  cases timer with
  | none =>
    injection h with h
    exact ⟨s.timers, rfl, h⟩
  | some t =>
    unfold cancelTimer at h
    obtain ⟨timers, r, hcall, hk⟩ := onTimers_eq_ok h
    exact ⟨timers, ⟨r, hcall⟩, hk⟩

inductive Walks (a : Activation) : Pc → Prop where
  | found {ctx : Nat} (hpc : a.pc = .get) : Walks a (.check ctx)
  | direct (hpc : a.pc = .get ∨ ∃ ctx, a.pc = .check ctx) : Walks a .direct
  | interrupted (hpc : a.pc = .origin) : Walks a .origin
  | blocked (hpc : a.pc = .origin) : Walks a .addTimer
  | untimed (hpc : a.pc = .addTimer) (htimeout : a.timeout = forever) : Walks a (.addEvent none)
  | hold {timer : Option Nat} (hpc : a.pc = .YieldToHold timer) : Walks a (.hold timer)
  | retry {info : TimerInfo} (hpc : a.pc = .test) (hinfo : a.tinfo = some info)
    (hcancelled : info.cancelled = 0) : Walks a .origin
  | connected {info : TimerInfo} (hpc : a.pc = .test) (hinfo : a.tinfo = some info)
    (hcancelled : info.cancelled = 0) (hfn : a.fn.isConnect = true) : Walks a .getsockopt

inductive Leaves (a : Activation) : Int → Prop where
  | badFile (hpc : a.pc = .get ∨ ∃ ctx, a.pc = .check ctx) : Leaves a (-1)
  | origin {n : Int} (hpc : a.pc = .direct ∨ a.pc = .origin) : Leaves a n
  | timedOut (hpc : a.pc = .test) : Leaves a (-1)
  | getsockopt {n : Int} (hpc : a.pc = .getsockopt) : Leaves a n

/--
Everything a step of the fiber in the call `a` can do.
-/
inductive Moves (fiber : F) (scheduler : S) (s : Hook S F C) (a : Activation)
    : Hook S F C → Option Int → Prop where
  | walk {pc : Pc} {errno : Nat} (hwalks : Walks a pc)
    : Moves fiber scheduler s a { s with call := some { a with pc := pc }, errno := errno } none
  | inform {pc : Pc} {timeout : Nat}
    (hpc : (∃ ctx, a.pc = .check ctx) ∧ pc = .origin ∨ a.pc = .origin ∧ pc = .addTimer)
    : Moves fiber scheduler s a
        { s with
          infos := s.infos + 1
          call := some
            { a with timeout := timeout, tinfo := some ⟨s.infos, 0⟩, pc := pc }
        } none
  | connect {ctx timeout : Nat} (hpc : a.pc = .check ctx)
    : Moves fiber scheduler s a
        { s with call := some { a with timeout := timeout, pc := .origin } } none
  | addTimer {info : TimerInfo} {timers : TimerManager (TimerCb C)} {addr now t : Nat} {n : Bool}
    (hpc : a.pc = .addTimer) (hinfo : a.tinfo = some info)
    (hcall : s.timers.callLocked
        (.addTimer addr a.timeout (.timeout info.addr a.fd a.fn.event) false now)
      = some (.ok (timers, .timer t n)))
    : Moves fiber scheduler s a
        { s with timers := timers, call := some { a with pc := .addEvent (some t) } } none
  | addEvent {timer : Option Nat} {iom : IOManager S F C} {garbage : Nat → Event → Option S}
    {ctl : Bool} (hpc : a.pc = .addEvent timer)
    (hcall : s.iom.call (.addEvent ⟨some scheduler, fiber, true⟩ a.fd a.fn.event none garbage ctl)
      = .ok (iom, .int 0))
    : Moves fiber scheduler s a
        { s with iom := iom, call := some { a with pc := .YieldToHold timer } } none
  | refused {timer : Option Nat} {iom : IOManager S F C} {c : IOManager.Call S F C}
    {r : IOManager.Result} {errno : Nat} (hpc : a.pc = .addEvent timer)
    (hcall : s.iom.call c = .ok (iom, r))
    : Moves fiber scheduler s a
        { s with iom := iom, call := some { a with pc := .giveUp timer }, errno := errno } none
  | resume {timer : Option Nat} {place : Nat} (hpc : a.pc = .hold timer)
    : Moves fiber scheduler s a
        { s with
          iom := { s.iom with scheduled := s.iom.scheduled.eraseIdx place }
          call := some { a with pc := .cancel timer }
        } none
  | cancel {timer : Option Nat} {timers : TimerManager (TimerCb C)} {pc : Pc}
    (hpc : a.pc = .cancel timer ∧ pc = .test
      ∨ a.pc = .giveUp timer ∧ a.fn.isConnect = true ∧ pc = .getsockopt)
    (hcancels : Cancels s.timers timer timers)
    : Moves fiber scheduler s a { s with timers := timers, call := some { a with pc := pc } } none
  | giveUp {timer : Option Nat} {timers : TimerManager (TimerCb C)} {errno : Nat}
    (hpc : a.pc = .giveUp timer) (hcancels : Cancels s.timers timer timers)
    : Moves fiber scheduler s a
        { s with timers := timers, call := none, errno := errno } (some (-1))
  | leave {n : Int} {errno : Nat} (hleaves : Leaves a n)
    : Moves fiber scheduler s a { s with call := none, errno := errno } (some n)

theorem checkNext_moves {i : Nat} (ctx : FdCtx) (hpc : a.pc = .check i)
    (h : s.checkNext a ctx = (s', out)) : Moves fiber scheduler s a s' out := by
  unfold checkNext at h
  split at h
  . cases h
    apply Moves.leave
    apply Leaves.badFile
    exact .inr ⟨i, hpc⟩
  . split at h
    . cases h
      apply Moves.walk
      apply Walks.direct
      exact .inr ⟨i, hpc⟩
    . split at h
      . cases h
        apply Moves.inform
        exact .inl ⟨⟨i, hpc⟩, rfl⟩
      . cases h
        apply Moves.connect hpc

theorem originNext_moves {n : Int} {errno : Nat} (hpc : a.pc = .origin)
    (h : s.originNext a n errno = (s', out)) : Moves fiber scheduler s a s' out := by
  have hleave : ∀ n, Leaves a n := fun n => .origin (.inr hpc)
  unfold originNext at h
  split at h
  . split at h
    . cases h
      apply Moves.walk
      apply Walks.interrupted hpc
    . split at h
      . cases h
        apply Moves.walk
        apply Walks.blocked hpc
      . cases h
        apply Moves.leave
        apply hleave
  . split at h
    . cases h
      apply Moves.leave
      apply hleave
    . split at h
      . cases h
        apply Moves.leave
        apply hleave
      . cases h
        apply Moves.inform
        exact .inr ⟨hpc, rfl⟩

theorem testNext_moves {info : TimerInfo} (hpc : a.pc = .test) (hinfo : a.tinfo = some info)
    (h : s.testNext a info = (s', out)) : Moves fiber scheduler s a s' out := by
  unfold testNext at h
  split at h
  . cases h
    apply Moves.leave
    apply Leaves.timedOut hpc
  . next hcancelled =>
    rw [not_not] at hcancelled
    split at h
    . cases h
      apply Moves.walk
      apply Walks.retry hpc hinfo hcancelled
    . next hfn =>
      cases h
      apply Moves.walk
      apply Walks.connected hpc hinfo hcancelled
      rw [hfn]
      rfl

theorem fiberNext_moves [DecidableEq F] {step : FiberStep S}
    (h : s.fiberNext fiber scheduler a a.pc step = .ok (s', out))
    : Moves fiber scheduler s a s' out := by
  unfold fiberNext at h
  split at h
  . next hpc =>
    split at h
    . cases h
    . cases h
      apply Moves.walk
      apply Walks.found hpc
    . split at h
      . cases h
        apply Moves.walk
        apply Walks.direct
        exact .inl hpc
      . cases h
        apply Moves.leave
        apply Leaves.badFile
        exact .inl hpc
  . next hpc =>
    split at h
    . cases h
    . injection h with h
      apply checkNext_moves _ hpc h
  . next hpc =>
    cases h
    apply Moves.leave
    apply Leaves.origin
    exact .inl hpc
  . next hpc =>
    injection h with h
    apply originNext_moves hpc h
  . next hpc =>
    split at h
    . cases h
    . next info hinfo =>
      split at h
      . obtain ⟨timers, r, hcall, hk⟩ := onTimers_eq_ok h
        obtain ⟨t, n, rfl, -⟩ := TimerManager.cbOf_addTimer hcall
        cases hk
        apply Moves.addTimer hpc hinfo hcall
      . next htimeout =>
        cases h
        apply Moves.walk
        apply Walks.untimed hpc
        simpa using htimeout
  . next hpc =>
    obtain ⟨iom, r, hcall, hk⟩ := onIom_eq_ok h
    split at hk
    . next hr =>
      rw [hr] at hcall
      cases hk
      apply Moves.addEvent hpc hcall
    . cases hk
      apply Moves.refused hpc hcall
  . next hpc =>
    cases h
    apply Moves.walk
    apply Walks.hold hpc
  . next hpc =>
    split at h
    . cases h
      apply Moves.resume hpc
    . cases h
  . next hpc =>
    obtain ⟨timers, hcancels, hk⟩ := cancelTimer_eq_ok h
    cases hk
    apply Moves.cancel _ hcancels
    exact .inl ⟨hpc, rfl⟩
  . next hpc =>
    split at h
    . cases h
    . next info hinfo =>
      injection h with h
      apply testNext_moves hpc hinfo h
  . next hpc =>
    obtain ⟨timers, hcancels, hk⟩ := cancelTimer_eq_ok h
    split at hk
    . cases hk
      apply Moves.giveUp hpc hcancels
    . next hfn =>
      cases hk
      apply Moves.cancel _ hcancels
      right
      rw [hfn]
      exact ⟨hpc, rfl, rfl⟩
  . next hpc =>
    split at h
    . cases h
      apply Moves.leave
      apply Leaves.getsockopt hpc
    . split at h
      . cases h
        apply Moves.leave
        apply Leaves.getsockopt hpc
      . cases h
        apply Moves.leave
        apply Leaves.getsockopt hpc
  . cases h

end Fiber

section Peer

variable {s s' : Hook S F C} {th : Nat} {peer : Peer} {step : PeerStep} {out : Option Int}

inductive PeerMoves (s : Hook S F C) (peer : Peer) (step : PeerStep) : Hook S F C → Prop where
  | aside {fds : FdManager} {peers : Nat → Peer}
    : PeerMoves s peer step { s with fds := fds, peers := peers }
  | cancelAll {fd : Int} {ctl : Bool} {iom : IOManager S F C} {r : IOManager.Result}
    {peers : Nat → Peer} (hcall : s.iom.call (.cancelAll fd ctl) = .ok (iom, r))
    : PeerMoves s peer step { s with iom := iom, peers := peers }
  | close_f {fd : Int} {peers : Nat → Peer} (hpeer : peer = .close fd .close_f)
    (hstep : step = .close_f)
    : PeerMoves s peer step
        { s with files := Function.update s.files fd none, peers := peers }
  | open {fd : Int} {isSocket : Bool} {peers : Nat → Peer} (hnone : s.files fd = none)
    : PeerMoves s peer step
        { s with
          files := Function.update s.files fd (some ⟨s.opened, isSocket⟩)
          opened := s.opened + 1
          peers := peers
        }

theorem onFds_moves {fds : Except Fault FdManager} {p : Peer}
    (h : s.onFds fds (·.setPeer th p) = .ok (s', out)) : PeerMoves s peer step s' := by
  unfold onFds at h
  split at h
  . cases h
  . cases h
    apply PeerMoves.aside

theorem peerNext_moves (h : s.peerNext th peer step = .ok (s', out)) : PeerMoves s peer step s' := by
  unfold peerNext at h
  split at h
  . split at h
    . cases h
    . cases h
      apply PeerMoves.aside
  . obtain ⟨iom, r, hcall, hk⟩ := onIom_eq_ok h
    cases hk
    apply PeerMoves.cancelAll hcall
  . apply onFds_moves h
  . cases h
    apply PeerMoves.close_f rfl rfl
  . split at h
    . next hnone =>
      cases h
      apply PeerMoves.open
      simpa using hnone
    . cases h
  . split at h
    . cases h
    . cases h
      apply PeerMoves.aside
    . cases h
      apply PeerMoves.aside
  . apply onFds_moves h
  . cases h
    apply PeerMoves.aside
  . cases h
    apply PeerMoves.aside
  . cases h

end Peer

section Step

variable {fiber : F} {scheduler : S} {s s' : Hook S F C} {act : Act S F C} {out : Option Int}

theorem lock_eq_some {winfo : Nat} {a : Activation} {info : TimerInfo}
    (h : s.lock winfo = some (a, info))
    : s.call = some a ∧ a.tinfo = some info ∧ info.addr = winfo := by
  unfold lock at h
  rw [Option.bind_eq_some_iff] at h
  obtain ⟨a', hcall, h⟩ := h
  rw [Option.map_eq_some_iff] at h
  obtain ⟨info', hfilter, heq⟩ := h
  cases heq
  rw [Option.filter_eq_some_iff, beq_iff_eq] at hfilter
  exact ⟨hcall, hfilter.1, hfilter.2⟩

theorem lock_of_info {a : Activation} {info : TimerInfo} (hcall : s.call = some a)
    (hinfo : a.tinfo = some info) : s.lock info.addr = some (a, info) := by
  unfold lock
  rw [hcall, Option.bind_some, hinfo, Option.filter_some, if_pos (beq_self_eq_true _),
    Option.map_some]

inductive Steps [DecidableEq F] (fiber : F) (scheduler : S) (s : Hook S F C)
    : Act S F C → Option Int → Hook S F C → Prop where
  | enter {fn : HookFun} {fd : Int} {t_hook_enable : Bool}
    : Steps fiber scheduler s (.fiber (.enter fn fd t_hook_enable)) none
        (s.enter fn fd t_hook_enable)
  | fiber {a : Activation} {step : FiberStep S} {out : Option Int} {s' : Hook S F C}
    (hcall : s.call = some a) (hnext : s.fiberNext fiber scheduler a a.pc step = .ok (s', out))
    : Steps fiber scheduler s (.fiber step) out s'
  | collect {now addr : Nat} {timers : TimerManager (TimerCb C)} {ts : List Nat}
    {cbs : List (Option (TimerCb C))}
    (htake : s.timers.takeExpired now addr = .ok (timers, ts, cbs))
    : Steps fiber scheduler s (.collect now addr) none
        { s with timers := timers, cbs := s.cbs ++ cbs.filterMap (·.map .ready) }
  | dropCb {place : Nat} {cb : TimerCb C} (hplace : s.cbs[place]? = some (.ready cb))
    (hcb : ∀ winfo fd event a info, cb = .timeout winfo fd event → s.lock winfo = some (a, info)
      → info.cancelled ≠ 0)
    : Steps fiber scheduler s (.runCb place) none { s with cbs := s.cbs.eraseIdx place }
  | timeOut {place winfo : Nat} {fd : Int} {event : Event} {a : Activation} {info : TimerInfo}
    (hplace : s.cbs[place]? = some (.ready (.timeout winfo fd event)))
    (hlock : s.lock winfo = some (a, info))
    : Steps fiber scheduler s (.runCb place) none
        { s with
          cbs := s.cbs.set place (.cancelling winfo fd event)
          call := some { a with tinfo := some { info with cancelled := ETIMEDOUT } }
        }
  | cancelEvent {place winfo : Nat} {ctl : Bool} {fd : Int} {event : Event} {iom : IOManager S F C}
    {r : IOManager.Result} (hplace : s.cbs[place]? = some (.cancelling winfo fd event))
    (hcall : s.iom.call (.cancelEvent fd event ctl) = .ok (iom, r))
    : Steps fiber scheduler s (.cancelEvent place ctl) none
        { s with cbs := s.cbs.eraseIdx place, iom := iom }
  | timers {c : TimerManager.Call (TimerCb C)} {timers : TimerManager (TimerCb C)}
    {r : TimerManager.Result (TimerCb C)} (hforeign : foreignTimers s.timers.heap c = true)
    (hcall : s.timers.callLocked c = some (.ok (timers, r)))
    : Steps fiber scheduler s (.timers c) none { s with timers := timers }
  | iom {c : IOManager.Call S F C} {iom : IOManager S F C} {r : IOManager.Result}
    (hforeign : foreignCall fiber c = true) (hcall : s.iom.call c = .ok (iom, r))
    : Steps fiber scheduler s (.iom c) none { s with iom := iom }
  | take {place : Nat}
    (hplace : (s.iom.scheduled[place]?).any (fun x => !isFiber fiber x.task) = true)
    : Steps fiber scheduler s (.take place) none
        { s with iom := { s.iom with scheduled := s.iom.scheduled.eraseIdx place } }
  | peer {th : Nat} {step : PeerStep} {out : Option Int} {s' : Hook S F C}
    (hmoves : PeerMoves s (s.peers th) step s')
    : Steps fiber scheduler s (.peer th step) out s'

variable [DecidableEq F]

theorem fiberStep_eq {a : Activation} (hcall : s.call = some a) (step : FiberStep S)
    : s.fiberStep fiber scheduler step = s.fiberNext fiber scheduler a a.pc step := by
  unfold fiberStep
  rw [hcall]

theorem fiberStep_steps {step : FiberStep S} (h : s.fiberStep fiber scheduler step = .ok (s', out))
    : Steps fiber scheduler s (.fiber step) out s' := by
  unfold fiberStep at h
  split at h
  . cases h
    apply Steps.enter
  . next hcall => apply Steps.fiber hcall h
  . cases h

theorem runCb_steps {place : Nat} (h : s.runCb place = .ok (s', out))
    : Steps fiber scheduler s (.runCb place) out s' := by
  unfold runCb at h
  split at h
  . next winfo fd event hplace =>
    split at h
    . next hlock =>
      cases h
      apply Steps.dropCb hplace
      intro winfo fd event a info heq hlock'
      cases heq
      rw [hlock] at hlock'
      cases hlock'
    . next a info hlock =>
      split at h
      . next hcancelled =>
        cases h
        apply Steps.dropCb hplace
        intro winfo fd event a info heq hlock'
        cases heq
        rw [hlock] at hlock'
        cases hlock'
        apply hcancelled
      . cases h
        apply Steps.timeOut hplace hlock
  . next cb hplace =>
    cases h
    apply Steps.dropCb hplace
    intro winfo fd event a info heq
    cases heq
  . cases h

theorem step_steps (h : s.step fiber scheduler act = .ok (s', out))
    : Steps fiber scheduler s act out s' := by
  unfold step at h
  split at h
  . apply fiberStep_steps h
  . unfold collect at h
    split at h
    . cases h
    . next htake =>
      cases h
      apply Steps.collect htake
  . apply runCb_steps h
  . unfold cancelEvent at h
    split at h
    . next hplace =>
      obtain ⟨iom, r, hcall, hk⟩ := onIom_eq_ok h
      cases hk
      apply Steps.cancelEvent hplace hcall
    . cases h
  . split at h
    . next hforeign =>
      obtain ⟨timers, r, hcall, hk⟩ := onTimers_eq_ok h
      cases hk
      apply Steps.timers hforeign hcall
    . cases h
  . split at h
    . next hforeign =>
      obtain ⟨iom, r, hcall, hk⟩ := onIom_eq_ok h
      cases hk
      apply Steps.iom hforeign hcall
    . cases h
  . split at h
    . next hplace =>
      cases h
      apply Steps.take hplace
    . cases h
  . apply Steps.peer (peerNext_moves h)

end Step

end Hook
end CXS
