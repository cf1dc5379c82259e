import CXS.IOManager.Kernel

namespace CXS

theorem Events.inter_eq {es real : Events} (h : ∀ e, real.has e = true → es.has e = true)
    : es.inter real = real := by
  have hread := h .READ
  have hwrite := h .WRITE
  rcases es with ⟨_ | _, _ | _⟩ <;> rcases real with ⟨_ | _, _ | _⟩ <;>
    simp_all [has, inter]

namespace IOManager

variable {S F C : Type} {m m' : IOManager S F C}

def Registered (m : IOManager S F C) (i : Nat) (e : Event) : Prop :=
  (m.events i).has e = true

def HasScheduler (m : IOManager S F C) (i : Nat) (e : Event) : Prop :=
  ∃ fd_ctx scheduler, m.m_fdContexts[i]? = some fd_ctx
    ∧ (fd_ctx.getContext e).scheduler = some scheduler

def Dispatchable (m : IOManager S F C) (i : Nat) (bits : EpollBits) (ctl : Bool) : Prop :=
  (m.events i).inter (realEvents bits) = .NONE
    ∨ ctl = true ∧ ∀ e, (realEvents bits).has e = true → Registered m i e ∧ HasScheduler m i e

theorem Inv.epoll_eq (h : m.Inv) {i : Nat} {ctx : FdContext S F C}
    (hget : m.m_fdContexts[i]? = some ctx) (hne : ctx.events ≠ .NONE)
    : m.epoll i = some ⟨ctx.events, .ptr i⟩ := by
  rw [h.epoll i (h.ne_tickle hget hne), hget, Option.bind_some, FdContext.interest, if_neg hne,
    (h.fd i ctx hget).1]

theorem triggers_ok {i : Nat} {ctx : FdContext S F C} {es : Events}
    (hget : m.m_fdContexts[i]? = some ctx) (hwf : ctx.Wf)
    (hes : ∀ e, es.has e = true → ctx.events.has e = true
      ∧ (ctx.getContext e).scheduler.isSome = true)
    : ∃ m1 m2, m.triggerIf i (fun _ => es.has .READ) .READ = .ok m1
      ∧ m1.triggerIf i (fun _ => es.has .WRITE) .WRITE = .ok m2 := by
  obtain ⟨m1, hread⟩ := triggerIf_ok (fun _ => es.has .READ) .READ hget hwf (hes .READ)
  have hmid : ∃ ctx1 : FdContext S F C, m1.m_fdContexts[i]? = some ctx1 ∧ ctx1.Wf
      ∧ ctx1.events.has .WRITE = ctx.events.has .WRITE
      ∧ ctx1.getContext .WRITE = ctx.getContext .WRITE := by
    rcases triggerIf_eq_ok hread hget hwf with ⟨-, rfl⟩ | ⟨-, -, -, rfl⟩
    . exact ⟨ctx, hget, hwf, rfl, rfl⟩
    . refine ⟨ctx.clear .READ, ?_, FdContext.wf_clear hwf _, ?_, ?_⟩
      . apply List.getElem?_set_self
        exact (List.getElem?_eq_some_iff.mp hget).1
      . rw [FdContext.clear_events, Events.has_remove]
        rfl
      . rw [FdContext.getContext_clear]
        rfl
  obtain ⟨ctx1, hget1, hwf1, hhas1, hslot1⟩ := hmid
  have hes1 := hes .WRITE
  rw [← hhas1, ← hslot1] at hes1
  obtain ⟨m2, hwrite⟩ := triggerIf_ok (fun _ => es.has .WRITE) .WRITE hget1 hwf1 hes1
  exact ⟨m1, m2, hread, hwrite⟩

theorem dispatch_ok_of_dispatchable (h : m.Inv) {i : Nat} {bits : EpollBits} {ctl : Bool}
    (hi : i < m.m_fdContexts.length) (hcond : Dispatchable m i bits ctl)
    : ∃ m', m.dispatch (.ptr i) bits ctl = .ok (m', (m.events i).inter (realEvents bits)) := by
  have hget := List.getElem?_eq_getElem hi
  generalize m.m_fdContexts[i] = ctx at hget
  have hevents : m.events i = ctx.events := by
    unfold events
    rw [hget]
  have hwf := (h.fd i ctx hget).2
  unfold Dispatchable at hcond
  rw [hevents] at hcond ⊢
  unfold dispatch
  simp only [hget]
  split
  . next hnone =>
    rw [hnone]
    exact ⟨m, rfl⟩
  . next hnone =>
    obtain ⟨rfl, hall⟩ := hcond.resolve_left hnone
    have hreg : ∀ e, (realEvents bits).has e = true → ctx.events.has e = true
        ∧ (ctx.getContext e).scheduler.isSome = true := by
      intro e he
      obtain ⟨hhas, fd_ctx, scheduler, hget', hscheduler⟩ := hall e he
      rw [hget] at hget'
      cases hget'
      unfold Registered at hhas
      rw [hevents] at hhas
      rw [hscheduler]
      exact ⟨hhas, rfl⟩
    have hne : ctx.events ≠ .NONE := by
      intro heq
      apply hnone
      rw [heq]
      rfl
    have hctl := epoll_ctl_isSome (ctx.events.diff (realEvents bits))
      ⟨ctx.events.diff (realEvents bits), .ptr i⟩ true (h.epoll_eq hget hne)
    rw [Option.isSome_iff_exists] at hctl
    obtain ⟨epoll, hctl⟩ := hctl
    rw [(h.fd i ctx hget).1, hctl]
    obtain ⟨m1, m2, hread, hwrite⟩ :=
      triggers_ok (show { m with epoll := epoll }.m_fdContexts[i]? = some ctx from hget) hwf hreg
    refine ⟨m2, ?_⟩
    rw [Events.inter_eq (fun e he => (hreg e he).1)]
    simp only [hread, Except.bind, hwrite]
    rfl

theorem dispatchable_of_dispatch_ok (h : m.Inv) {i : Nat} {bits : EpollBits} {ctl : Bool}
    (hcall : m.dispatch (.ptr i) bits ctl = .ok (m', (m.events i).inter (realEvents bits)))
    : Dispatchable m i bits ctl := by
  unfold dispatch at hcall
  simp only at hcall
  split at hcall
  . cases hcall
  . next ctx hget =>
    have hevents : m.events i = ctx.events := by
      unfold events
      rw [hget]
    unfold Dispatchable
    rw [hevents] at hcall ⊢
    split at hcall
    . next hnone => exact .inl hnone
    . next hnone =>
      split at hcall
      . injection hcall with hcall
        injection hcall with _ hcall
        exact absurd hcall.symm hnone
      . next epoll hctl =>
        right
        obtain ⟨m1, hread, hcall⟩ := Except.bind_eq_ok hcall
        obtain ⟨m2, hwrite, heq⟩ := Except.map_eq_ok hcall
        have hlt := h.count_lt
        obtain ⟨-, hes⟩ := triggers_eq_ok hread hwrite hget (h.fd i ctx hget).2 rfl
          (h.count_le hget) (by simp only; omega)
        constructor
        . cases ctl with
          | true => rfl
          | false => cases hctl
        . intro e he
          obtain ⟨hhas, hscheduler⟩ := hes e he
          obtain ⟨scheduler, hscheduler⟩ := Option.isSome_iff_exists.mp hscheduler
          unfold Registered
          rw [hevents]
          exact ⟨hhas, ctx, scheduler, hget, hscheduler⟩

theorem handleResult_eq_dispatch {thread : Nat} {data : EpollData} {bits : EpollBits}
    {rest : List (EpollData × EpollBits)} (ctl : Bool)
    (hresults : m.results thread = (data, bits) :: rest)
    : m.handleResult thread ctl
      = { m with results := Function.update m.results thread rest }.dispatch data bits ctl := by
  unfold handleResult
  rw [hresults]

theorem reachable_dispatch_iff (h : (lts S F C).Reachable Init m) {thread i : Nat}
    {bits : EpollBits} {rest : List (EpollData × EpollBits)} (ctl : Bool)
    (hresults : m.results thread = (.ptr i, bits) :: rest)
    : (∃ m', m.handleResult thread ctl = .ok (m', (m.events i).inter (realEvents bits)))
      ↔ Dispatchable m i bits ctl := by
  have hinv := reachable_inv h
  have hi : i < m.m_fdContexts.length := by
    apply hinv.results thread i bits
    rw [hresults]
    apply List.mem_cons_self
  have hpop := (frame_pop hinv hresults).inv hinv
  rw [handleResult_eq_dispatch ctl hresults]
  constructor
  . intro hex
    obtain ⟨m', hcall⟩ := hex
    apply dispatchable_of_dispatch_ok hpop hcall
  . intro hcond
    apply dispatch_ok_of_dispatchable hpop hi hcond

def readerReported (bits : EpollBits) : List (Call Unit Nat Nat × Result) :=
  [
    (.addEvent ⟨some (), 0, true⟩ 7 .READ none (fun _ _ => none) true, .int 0),
    (.epoll_wait 0 [(7, bits)], .ready 1)
  ]

theorem reachable_dispatch_iff_readable
    : ∃ m : IOManager Unit Nat Nat, (lts Unit Nat Nat).Reachable Init m
        ∧ m.results 0 = [(.ptr 7, ⟨true, false, false, false⟩)]
        ∧ ∃ m', m.handleResult 0 true = .ok (m', ⟨true, false⟩) := by
  let bits : EpollBits := ⟨true, false, false, false⟩
  have hrun : ∃ m : IOManager Unit Nat Nat,
      LTS.replay call (new 4 (fun _ _ => none)) (readerReported bits) = some m
        ∧ m.results 0 = [(.ptr 7, bits)] ∧ m.events 7 = ⟨true, false⟩ ∧ HasScheduler m 7 .READ :=
    ⟨_, rfl, rfl, rfl, _, (), rfl, rfl⟩
  obtain ⟨m, heq, hresults, hevents, hscheduler⟩ := hrun
  have hreach : (lts Unit Nat Nat).Reachable Init m :=
    ⟨_, _, ⟨4, fun _ _ => none, rfl⟩, LTS.run_of_replay heq⟩
  refine ⟨m, hreach, hresults, ?_⟩
  have hcond : Dispatchable m 7 bits true := by
    refine .inr ⟨rfl, ?_⟩
    intro e he
    unfold Registered
    rw [hevents]
    cases e with
    | READ => exact ⟨rfl, hscheduler⟩
    | WRITE => cases he
  have hdispatch := (reachable_dispatch_iff hreach true hresults).mpr hcond
  rw [hevents] at hdispatch
  apply hdispatch

theorem dispatch_hangup_asserts
    : ∃ m : IOManager Unit Nat Nat, (lts Unit Nat Nat).Reachable Init m
        ∧ m.results 0 = [(.ptr 7, ⟨false, false, false, true⟩)] ∧ m.events 7 = ⟨true, false⟩
        ∧ m.handleResult 0 true = .error .assertion := by
  let bits : EpollBits := ⟨false, false, false, true⟩
  have hrun : ∃ m : IOManager Unit Nat Nat,
      LTS.replay call (new 4 (fun _ _ => none)) (readerReported bits) = some m
        ∧ m.results 0 = [(.ptr 7, bits)] ∧ m.events 7 = ⟨true, false⟩
        ∧ m.handleResult 0 true = .error .assertion :=
    ⟨_, rfl, rfl, rfl, rfl⟩
  obtain ⟨m, heq, hm⟩ := hrun
  exact ⟨m, ⟨_, _, ⟨4, fun _ _ => none, rfl⟩, LTS.run_of_replay heq⟩, hm⟩

end IOManager
end CXS
