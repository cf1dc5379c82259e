import CXS.IOManager.Calls

namespace CXS
namespace IOManager

variable {S F C : Type} {m m' : IOManager S F C}

def Init (m : IOManager S F C) : Prop :=
  ∃ tickleFd garbage, m = new tickleFd garbage

theorem reachable_inv (h : (lts S F C).Reachable Init m) : m.Inv := by
  apply h.invariant
  . intro s hs
    obtain ⟨tickleFd, garbage, rfl⟩ := hs
    apply inv_new
  . intro s l t hs hstep
    apply (call_effect hs hstep).inv hs

def events (m : IOManager S F C) (fd : Nat) : Events :=
  match m.m_fdContexts[fd]? with
  | none => .NONE
  | some fd_ctx => fd_ctx.events

theorem Frame.events (h : Frame m m') (fd : Nat) : m'.events fd = m.events fd := by
  unfold IOManager.events
  cases hget : m'.m_fdContexts[fd]? with
  | none =>
    cases hget' : m.m_fdContexts[fd]? with
    | none => rfl
    | some ctx =>
      rw [h.get_old hget'] at hget
      cases hget
  | some ctx =>
    rcases h.get hget with hget' | ⟨hget', garbage, rfl⟩
    . rw [hget']
    . rw [hget']
      rfl

theorem Inv.absent_iff (h : m.Inv) {fd : Nat} (hne : fd ≠ m.m_tickleFd)
    : m.epoll fd = none ↔ m.events fd = .NONE := by
  rw [h.epoll fd hne]
  unfold events
  cases m.m_fdContexts[fd]? with
  | none => simp
  | some ctx => simp [FdContext.interest]

theorem Inv.mask_eq (h : m.Inv) {fd : Nat} (hne : fd ≠ m.m_tickleFd) {interest : Interest}
    (hfd : m.epoll fd = some interest) : interest.events = m.events fd := by
  rw [h.epoll fd hne, Option.bind_eq_some_iff] at hfd
  obtain ⟨ctx, hget, hinterest⟩ := hfd
  unfold FdContext.interest at hinterest
  split at hinterest
  . cases hinterest
  . cases hinterest
    unfold events
    rw [hget]

theorem Inv.tickle_none (h : m.Inv) : m.events m.m_tickleFd = .NONE := by
  unfold events
  cases hget : m.m_fdContexts[m.m_tickleFd]? with
  | none => rfl
  | some ctx => apply h.tickle_events ctx hget

theorem Effect.failed {c : Call S F C} {r : Result} (h : Effect m m' c r)
    (hr : r = .int (-1) ∨ r = .bool false) : Frame m m' := by
  cases h with
  | keep _ hframe => apply hframe
  | register hframe _ _ => simp at hr
  | del _ _ => simp at hr
  | trigger _ hc _ _ =>
    rcases hc with ⟨_, _, _, rfl, _⟩ | ⟨_, _, rfl, _⟩ | ⟨_, _, _, rfl⟩
    . simp at hr
    . simp at hr
    . simp at hr

theorem reachable_kernel_agrees (h : (lts S F C).Reachable Init m)
    : m.m_pendingEventCount = (m.m_fdContexts.map (fun fd_ctx => fd_ctx.events.count)).sum
      ∧ (∀ fd, fd ≠ m.m_tickleFd → (m.epoll fd = none ↔ m.events fd = .NONE)
          ∧ ∀ interest, m.epoll fd = some interest → interest.events = m.events fd)
      ∧ (m.epoll m.m_tickleFd = some ⟨⟨true, false⟩, .fd⟩ ∧ m.events m.m_tickleFd = .NONE)
      ∧ (∀ c m' r, m.call c = .ok (m', r) → r = .int (-1) ∨ r = .bool false
          → (∀ fd, m'.events fd = m.events fd)
            ∧ (∀ (fd : Nat) fd_ctx, m.m_fdContexts[fd]? = some fd_ctx
                → m'.m_fdContexts[fd]? = some fd_ctx)
            ∧ m'.m_pendingEventCount = m.m_pendingEventCount ∧ m'.epoll = m.epoll) := by
  have hinv := reachable_inv h
  refine ⟨hinv.count, ?_, ⟨hinv.tickle, hinv.tickle_none⟩, ?_⟩
  . intro fd hne
    refine ⟨hinv.absent_iff hne, ?_⟩
    intro interest hfd
    apply hinv.mask_eq hne hfd
  . intro c m' r hcall hr
    have hframe := (call_effect hinv hcall).failed hr
    refine ⟨hframe.events, ?_, hframe.count, hframe.epoll⟩
    intro fd fd_ctx hget
    apply hframe.get_old hget

theorem reachable_kernel_agrees_read_registered
    : ∃ m : IOManager Unit Nat Nat, (lts Unit Nat Nat).Reachable Init m
        ∧ m.m_pendingEventCount = (m.m_fdContexts.map (fun fd_ctx => fd_ctx.events.count)).sum
        ∧ m.events 7 = ⟨true, false⟩ ∧ m.epoll 7 ≠ none := by
  let trace : List (Call Unit Nat Nat × Result) :=
    [
      (.addEvent ⟨some (), 0, true⟩ 7 .READ (some 3) (fun _ _ => none) true, .int 0),
      (.addEvent ⟨some (), 0, true⟩ 7 .WRITE none (fun _ _ => none) true, .int 0),
      (.cancelEvent 7 .WRITE true, .bool true),
      (.delEvent 9 .READ true, .bool false)
    ]
  let run := LTS.replay call (new 4 (fun _ _ => none)) trace
  have hrun : (run.map (fun m => m.events 7)) = some ⟨true, false⟩ := by decide
  have hfd : (run.map (fun m => m.m_tickleFd)) = some 4 := by decide
  rw [Option.map_eq_some_iff] at hrun hfd
  obtain ⟨m, heq, hevents⟩ := hrun
  obtain ⟨m', heq', hfd⟩ := hfd
  rw [heq] at heq'
  cases heq'
  have hreach : (lts Unit Nat Nat).Reachable Init m :=
    ⟨_, trace, ⟨4, fun _ _ => none, rfl⟩, LTS.run_of_replay heq⟩
  obtain ⟨hcount, hkernel, -⟩ := reachable_kernel_agrees hreach
  refine ⟨m, hreach, hcount, hevents, ?_⟩
  rw [Ne, (hkernel 7 (by omega)).1, hevents]
  decide

theorem tickle_fd_without_events
    : ¬∀ m : IOManager Unit Unit Unit, (lts Unit Unit Unit).Reachable Init m
        → ∀ fd, m.epoll fd = none ↔ m.events fd = .NONE := by
  intro h
  have hreach : (lts Unit Unit Unit).Reachable Init (new 4 (fun _ _ => none)) :=
    ⟨_, [], ⟨4, fun _ _ => none, rfl⟩, .nil _⟩
  have habsent := (h _ hreach 4).mpr rfl
  simp [new] at habsent

end IOManager
end CXS
