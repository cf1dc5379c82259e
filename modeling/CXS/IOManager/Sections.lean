import CXS.IOManager.Basic

/-!
This module contains the calls of `addEvent` and `delEvent` by several threads, where what a thread
does under one acquisition of a mutex is one step. `addEvent` looks at the size of `m_fdContexts`
under a read lock, lets go of the lock when `fd` is not within it, resizes the vector under a write
lock and registers the event under the mutex of the context.

Here a pointer to an `FdContext` is the place of the object in `contexts`, which lists all of them in
the order of their creation: a resize that makes `m_fdContexts` shorter drops pointers, and the one
that makes it longer again points to new objects.
-/

namespace CXS
namespace IOManager

variable {S F C : Type}

inductive SectionPc (C : Type) where
  | out
  | resizing (fd : Nat) (event : Event) (cb : Option C)
  | registering (fd fd_ctx : Nat) (event : Event) (cb : Option C)
  | removing (fd fd_ctx : Nat) (event : Event)
  deriving DecidableEq, Repr

structure Threads (S F C : Type) where
  contexts : List (FdContext S F C)
  m_fdContexts : List Nat
  m_pendingEventCount : Nat
  epoll : InterestList
  pc : Nat → SectionPc C

inductive Section (S F C : Type) where
  | addEvent (th : Nat) (fd : Int) (event : Event) (cb : Option C)
  | resize (th : Nat) (garbage : Nat → Event → Option S)
  | register (th : Nat) (caller : Caller S F) (ctl : Bool)
  | delEvent (th : Nat) (fd : Int) (event : Event)
  | remove (th : Nat) (ctl : Bool)

inductive Outcome where
  | silent
  | int (rt : Int)
  | bool (ret : Bool)
  deriving DecidableEq, Repr

namespace Threads

def setPc (s : Threads S F C) (th : Nat) (pc : SectionPc C) : Threads S F C :=
  { s with pc := fun i => if i = th then pc else s.pc i }

def contextResize (s : Threads S F C) (size : Nat) (garbage : Nat → Event → Option S)
    : Except Fault (Threads S F C) :=
  if size < 2 ^ 31 then
    let fresh := size - s.m_fdContexts.length
    .ok { s with
      contexts :=
        s.contexts ++ (List.range' s.m_fdContexts.length fresh).map
          (fun i => FdContext.new i (garbage i))
      m_fdContexts := s.m_fdContexts.take size ++ List.range' s.contexts.length fresh
    }
  else
    .error .badAlloc

-- the part of `addEvent` under the mutex of the context
def registerAt (s : Threads S F C) (caller : Caller S F) (fd fd_ctx : Nat) (event : Event)
    (cb : Option C) (ctl : Bool) : Except Fault (Threads S F C × Int) :=
  match s.contexts[fd_ctx]? with
  | none => .error .outOfBounds
  | some ctx =>
    if ctx.events.has event then
      .error .assertion
    else
      let op := if ctx.events = .NONE then EpollOp.ADD else .MOD
      let events := ctx.events.add event
      match epoll_ctl s.epoll op fd ⟨events, .ptr fd_ctx⟩ ctl with
      | none => .ok (s, -1)
      | some epoll =>
        if !(ctx.getContext event).isEmpty then
          .error .assertion
        else if cb.isNone && !caller.exec then
          .error .assertion
        else
          let ctx := { ctx with events := events }.setContext (caller.context cb) event
          .ok ({ s with
              m_pendingEventCount := increment s.m_pendingEventCount
              contexts := s.contexts.set fd_ctx ctx
              epoll := epoll
            }, 0)

-- the part of `delEvent` under the mutex of the context
def removeAt (s : Threads S F C) (fd fd_ctx : Nat) (event : Event) (ctl : Bool)
    : Except Fault (Threads S F C × Bool) :=
  match s.contexts[fd_ctx]? with
  | none => .error .outOfBounds
  | some ctx =>
    if !ctx.events.has event then
      .ok (s, false)
    else
      let new_events := ctx.events.remove event
      let op := if new_events = .NONE then EpollOp.DEL else .MOD
      match epoll_ctl s.epoll op fd ⟨new_events, .ptr fd_ctx⟩ ctl with
      | none => .ok (s, false)
      | some epoll =>
        let ctx := { ctx with events := new_events }.resetContext event
        .ok ({ s with
            contexts := s.contexts.set fd_ctx ctx
            m_pendingEventCount := decrement s.m_pendingEventCount
            epoll := epoll
          }, true)

def exec (s : Threads S F C) : Section S F C → Except Fault (Threads S F C × Outcome)
  | .addEvent th fd event cb =>
    match s.pc th with
    | .out =>
      if fd < s.m_fdContexts.length then
        if fd < 0 then
          .error .outOfBounds
        else
          match s.m_fdContexts[fd.toNat]? with
          | none => .error .outOfBounds
          | some fd_ctx => .ok (s.setPc th (.registering fd.toNat fd_ctx event cb), .silent)
      else
        .ok (s.setPc th (.resizing fd.toNat event cb), .silent)
    | _ => .error .noResult
  | .resize th garbage =>
    match s.pc th with
    | .resizing fd event cb =>
      match s.contextResize (fd * 3 / 2) garbage with
      | .error e => .error e
      | .ok s =>
        match s.m_fdContexts[fd]? with
        | none => .error .outOfBounds
        | some fd_ctx => .ok (s.setPc th (.registering fd fd_ctx event cb), .silent)
    | _ => .error .noResult
  | .register th caller ctl =>
    match s.pc th with
    | .registering fd fd_ctx event cb =>
      (s.registerAt caller fd fd_ctx event cb ctl).map fun (s, rt) => (s.setPc th .out, .int rt)
    | _ => .error .noResult
  | .delEvent th fd event =>
    match s.pc th with
    | .out =>
      if s.m_fdContexts.length ≤ fd then
        .ok (s, .bool false)
      else if fd < 0 then
        .error .outOfBounds
      else
        match s.m_fdContexts[fd.toNat]? with
        | none => .error .outOfBounds
        | some fd_ctx => .ok (s.setPc th (.removing fd.toNat fd_ctx event), .silent)
    | _ => .error .noResult
  | .remove th ctl =>
    match s.pc th with
    | .removing fd fd_ctx event =>
      (s.removeAt fd fd_ctx event ctl).map fun (s, ret) => (s.setPc th .out, .bool ret)
    | _ => .error .noResult

def start (tickleFd : Nat) (garbage : Nat → Event → Option S) : Threads S F C where
  contexts := freshContexts [] 32 garbage
  m_fdContexts := List.range 32
  m_pendingEventCount := 0
  epoll := Function.update (fun _ => none) tickleFd (some ⟨⟨true, false⟩, .fd⟩)
  pc _ := .out

-- when the vector is resized, it has not grown past the new size since the thread looked at it
def resizesUp (s : Threads S F C) : Section S F C → Bool
  | .resize th _ =>
    match s.pc th with
    | .resizing fd _ _ => s.m_fdContexts.length ≤ fd * 3 / 2
    | _ => true
  | _ => true

end Threads

def sections (S F C : Type) : LTS (Threads S F C) (Section S F C × Outcome) :=
  LTS.ofExcept Threads.exec

def sectionsUp (S F C : Type) : LTS (Threads S F C) (Section S F C × Outcome) :=
  (sections S F C).restrict fun s l => s.resizesUp l.1 = true

/--
A descriptor keeps the context it has got, and every context with a registered event is the one that
its descriptor has got.
-/
structure KeepsContexts (s₀ : Threads S F C) (trace : List (Section S F C × Outcome)) : Prop where
  same : ∀ pre mid post s s' (fd : Nat) c, trace = pre ++ (mid ++ post)
    → (sections S F C).Run s₀ pre s → (sections S F C).Run s mid s'
    → s.m_fdContexts[fd]? = some c → s'.m_fdContexts[fd]? = some c
  registered : ∀ pre post s (c : Nat) ctx, trace = pre ++ post → (sections S F C).Run s₀ pre s
    → s.contexts[c]? = some ctx → ctx.events ≠ .NONE → s.m_fdContexts[ctx.fd]? = some c

section Step

variable {s s' : Threads S F C} {l : Section S F C × Outcome}

def SameVector (s s' : Threads S F C) : Prop :=
  s'.m_fdContexts = s.m_fdContexts
  ∧ s'.contexts.map FdContext.fd = s.contexts.map FdContext.fd

inductive Resizes (s s' : Threads S F C) : Section S F C → Prop where
  | keep {c : Section S F C} (hsame : SameVector s s') (hkind : ∀ th garbage, c ≠ .resize th garbage)
    : Resizes s s' c
  | resize {th fd : Nat} {garbage : Nat → Event → Option S} {event : Event} {cb : Option C}
    (hpc : s.pc th = .resizing fd event cb)
    (hpointers : s'.m_fdContexts = s.m_fdContexts.take (fd * 3 / 2)
      ++ List.range' s.contexts.length (fd * 3 / 2 - s.m_fdContexts.length))
    (hcontexts : s'.contexts = s.contexts
      ++ (List.range' s.m_fdContexts.length (fd * 3 / 2 - s.m_fdContexts.length)).map
        (fun i => FdContext.new i (garbage i)))
    : Resizes s s' (.resize th garbage)

theorem setContext_fd (fd_ctx : FdContext S F C) (ctx : EventContext S F C) (event : Event)
    : (fd_ctx.setContext ctx event).fd = fd_ctx.fd := by
  cases event <;> rfl

theorem map_fd_set {contexts : List (FdContext S F C)} {i : Nat} {ctx ctx' : FdContext S F C}
    (hget : contexts[i]? = some ctx) (hfd : ctx'.fd = ctx.fd)
    : (contexts.set i ctx').map FdContext.fd = contexts.map FdContext.fd := by
  apply List.ext_getElem?
  intro j
  rw [List.getElem?_map, List.getElem?_map]
  by_cases hij : i = j
  . subst hij
    rw [List.getElem?_set_self (List.getElem?_eq_some_iff.mp hget).1, hget, Option.map_some,
      Option.map_some, hfd]
  . rw [List.getElem?_set_ne hij]

theorem registerAt_same {caller : Caller S F} {fd fd_ctx : Nat} {event : Event} {cb : Option C}
    {ctl : Bool} {rt : Int} (h : s.registerAt caller fd fd_ctx event cb ctl = .ok (s', rt))
    : SameVector s s' := by
  unfold Threads.registerAt at h
  split at h
  . cases h
  . next ctx hget =>
    split at h
    . cases h
    . dsimp only at h
      split at h
      . cases h
        exact ⟨rfl, rfl⟩
      . split at h
        . cases h
        . split at h
          . cases h
          . cases h
            refine ⟨rfl, ?_⟩
            apply map_fd_set hget
            rw [setContext_fd]

theorem removeAt_same {fd fd_ctx : Nat} {event : Event} {ctl ret : Bool}
    (h : s.removeAt fd fd_ctx event ctl = .ok (s', ret)) : SameVector s s' := by
  unfold Threads.removeAt at h
  split at h
  . cases h
  . next ctx hget =>
    split at h
    . cases h
      exact ⟨rfl, rfl⟩
    . dsimp only at h
      split at h
      . cases h
        exact ⟨rfl, rfl⟩
      . cases h
        refine ⟨rfl, ?_⟩
        apply map_fd_set hget
        unfold FdContext.resetContext
        rw [setContext_fd]

theorem step_resizes (h : (sections S F C).step s l s') : Resizes s s' l.1 := by
  obtain ⟨c, o⟩ := l
  have h : s.exec c = .ok (s', o) := h
  unfold Threads.exec at h
  split at h
  . apply Resizes.keep
    . split at h
      . split at h
        . split at h
          . cases h
          . split at h
            . cases h
            . cases h
              exact ⟨rfl, rfl⟩
        . cases h
          exact ⟨rfl, rfl⟩
      . cases h
    . intro th garbage heq
      cases heq
  . split at h
    . next fd event cb hpc =>
      split at h
      . cases h
      . next s₁ hresize =>
        split at h
        . cases h
        . cases h
          unfold Threads.contextResize at hresize
          split at hresize
          . cases hresize
            apply Resizes.resize hpc
            . rfl
            . rfl
          . cases hresize
    . cases h
  . apply Resizes.keep
    . split at h
      . obtain ⟨⟨s₁, rt⟩, hregister, heq⟩ := Except.map_eq_ok h
        cases heq
        apply registerAt_same hregister
      . cases h
    . intro th garbage heq
      cases heq
  . apply Resizes.keep
    . split at h
      . split at h
        . cases h
          exact ⟨rfl, rfl⟩
        . split at h
          . cases h
          . split at h
            . cases h
            . cases h
              exact ⟨rfl, rfl⟩
      . cases h
    . intro th garbage heq
      cases heq
  . apply Resizes.keep
    . split at h
      . obtain ⟨⟨s₁, ret⟩, hremove, heq⟩ := Except.map_eq_ok h
        cases heq
        apply removeAt_same hremove
      . cases h
    . intro th garbage heq
      cases heq

end Step

structure Aligned (s : Threads S F C) : Prop where
  pointers : s.m_fdContexts = List.range s.contexts.length
  fds : s.contexts.map FdContext.fd = List.range s.contexts.length

theorem aligned_start (tickleFd : Nat) (garbage : Nat → Event → Option S)
    : Aligned (Threads.start tickleFd garbage : Threads S F C) where
  pointers := by
    simp [Threads.start, freshContexts]
  fds := by
    simp [Threads.start, freshContexts, FdContext.new, Function.comp_def, List.range_eq_range']

section Run

variable {s s' : Threads S F C} {l : Section S F C × Outcome}

theorem SameVector.length (h : SameVector s s') : s'.contexts.length = s.contexts.length := by
  have hlength := congrArg List.length h.2
  rw [List.length_map, List.length_map] at hlength
  exact hlength

theorem Aligned.same (h : Aligned s) (hsame : SameVector s s') : Aligned s' where
  pointers := by
    rw [hsame.1, hsame.length, h.pointers]
  fds := by
    rw [hsame.2, hsame.length, h.fds]

theorem range_append_range' {n size : Nat} (h : n ≤ size)
    : List.range n ++ List.range' n (size - n) = List.range size := by
  have happend := @List.range'_append_1 0 n (size - n)
  rw [Nat.zero_add, Nat.add_sub_of_le h] at happend
  rw [List.range_eq_range', List.range_eq_range', happend]

theorem Aligned.step (h : Aligned s) (hstep : (sectionsUp S F C).step s l s')
    : Aligned s' ∧ s.contexts.length ≤ s'.contexts.length := by
  obtain ⟨hup, hstep⟩ := hstep
  obtain ⟨c, o⟩ := l
  cases step_resizes hstep with
  | keep hsame hkind => exact ⟨h.same hsame, Nat.le_of_eq hsame.length.symm⟩
  | resize hpc hpointers hcontexts =>
    have hlength : s.m_fdContexts.length = s.contexts.length := by
      rw [h.pointers, List.length_range]
    simp only [Threads.resizesUp, hpc, decide_eq_true_eq, hlength] at hup
    rw [hlength] at hpointers hcontexts
    rw [List.take_of_length_le (by omega), h.pointers, range_append_range' hup] at hpointers
    have hlength' := congrArg List.length hcontexts
    rw [List.length_append, List.length_map, List.length_range', Nat.add_sub_of_le hup] at hlength'
    refine ⟨⟨?_, ?_⟩, by omega⟩
    . rw [hpointers, hlength']
    . rw [hlength', hcontexts, List.map_append, h.fds, List.map_map]
      simp only [Function.comp_def, FdContext.new, List.map_id']
      apply range_append_range' hup

theorem run_aligned {trace : List (Section S F C × Outcome)}
    (h : (sectionsUp S F C).Run s trace s') (hs : Aligned s)
    : Aligned s' ∧ s.contexts.length ≤ s'.contexts.length := by
  induction h with
  | nil => exact ⟨hs, Nat.le_refl _⟩
  | cons hstep _ ih =>
    obtain ⟨ht, hle⟩ := hs.step hstep
    obtain ⟨hu, hle'⟩ := ih ht
    exact ⟨hu, Nat.le_trans hle hle'⟩

theorem keepsContexts_of_sectionsUp {s₀ : Threads S F C} {trace : List (Section S F C × Outcome)}
    (h : (sectionsUp S F C).Run s₀ trace s) (hs : Aligned s₀) : KeepsContexts s₀ trace := by
  constructor
  . intro pre mid post u u' fd c heq hpre hmid hfd
    rw [heq] at h
    have hu := (run_aligned (h.restrict_prefix LTS.ofExcept_det hpre) hs).1
    obtain ⟨hu', hle⟩ := run_aligned (h.restrict_part LTS.ofExcept_det hpre hmid) hu
    rw [hu.pointers] at hfd
    rw [hu'.pointers]
    obtain ⟨hlt, hc⟩ := List.getElem?_eq_some_iff.mp hfd
    rw [List.length_range] at hlt
    rw [List.getElem_range] at hc
    rw [List.getElem?_range (by omega), hc]
  . intro pre post u c ctx heq hpre hctx _
    rw [heq] at h
    have hu := (run_aligned (h.restrict_prefix LTS.ofExcept_det hpre) hs).1
    have hlt := (List.getElem?_eq_some_iff.mp hctx).1
    have hfd := congrArg (fun fds => fds[c]?) hu.fds
    rw [List.getElem?_map, hctx, Option.map_some, List.getElem?_range hlt] at hfd
    injection hfd with hfd
    rw [hu.pointers, hfd, List.getElem?_range hlt]

theorem sectionsUp_of_keepsContexts {s₀ : Threads S F C} {trace : List (Section S F C × Outcome)}
    (h : (sections S F C).Run s₀ trace s) (hkeeps : KeepsContexts s₀ trace)
    : (sectionsUp S F C).Run s₀ trace s := by
  apply h.restrict_of
  intro pre l post u u' heq hrun hstep
  obtain ⟨c, o⟩ := l
  cases step_resizes hstep with
  | keep hsame hkind =>
    cases c with
    | resize th garbage => exact absurd rfl (hkind th garbage)
    | _ => rfl
  | resize hpc hpointers hcontexts =>
    simp only [Threads.resizesUp, hpc, decide_eq_true_eq]
    apply Nat.le_of_not_lt
    intro hlt
    have hlast := List.getElem?_eq_getElem (l := u.m_fdContexts) (i := u.m_fdContexts.length - 1)
      (by omega)
    have hkept := hkeeps.same pre [_] post u u' _ _ (by rw [heq]; rfl) hrun
      (.cons hstep (.nil _)) hlast
    have hlength := (List.getElem?_eq_some_iff.mp hkept).1
    rw [hpointers, List.length_append, List.length_take, List.length_range'] at hlength
    omega

end Run

theorem run_keepsContexts_iff (tickleFd : Nat) (garbage : Nat → Event → Option S)
    {trace : List (Section S F C × Outcome)} {s : Threads S F C}
    (h : (sections S F C).Run (.start tickleFd garbage) trace s)
    : KeepsContexts (.start tickleFd garbage) trace
      ↔ (sectionsUp S F C).Run (.start tickleFd garbage) trace s := by
  constructor
  . apply sectionsUp_of_keepsContexts h
  . intro hup
    apply keepsContexts_of_sectionsUp hup
    apply aligned_start

section Example

def caller : Caller Unit Nat :=
  { scheduler := some (), fiber := 7, exec := true }

def resizeInTurn : List (Section Unit Nat Nat × Outcome) :=
  [
    (.addEvent 0 40 .READ none, .silent),
    (.resize 0 (fun _ _ => none), .silent),
    (.register 0 caller true, .int 0),
    (.addEvent 1 60 .READ none, .silent),
    (.resize 1 (fun _ _ => none), .silent),
    (.register 1 caller true, .int 0)
  ]

theorem run_keepsContexts_inTurn
    : ∃ s, (sections Unit Nat Nat).Run (.start 4 fun _ _ => none) resizeInTurn s
        ∧ KeepsContexts (.start 4 fun _ _ => none) resizeInTurn := by
  have hreplay : (LTS.replayIf Threads.exec Threads.resizesUp (.start 4 fun _ _ => none)
      resizeInTurn).isSome = true := by
    decide +kernel
  obtain ⟨s, hs⟩ := Option.isSome_iff_exists.mp hreplay
  have hrun : (sectionsUp Unit Nat Nat).Run (.start 4 fun _ _ => none) resizeInTurn s :=
    LTS.run_of_replayIf hs
  exact ⟨s, hrun.of_restrict, (run_keepsContexts_iff 4 _ hrun.of_restrict).mpr hrun⟩

-- both threads find the vector too short, and the one with the smaller descriptor resizes last
def resizeLate : List (Section Unit Nat Nat × Outcome) :=
  [
    (.addEvent 0 40 .READ none, .silent),
    (.addEvent 1 60 .READ none, .silent),
    (.resize 1 (fun _ _ => none), .silent),
    (.register 1 caller true, .int 0)
  ]

def resizeDown : List (Section Unit Nat Nat × Outcome) :=
  [(.resize 0 (fun _ _ => none), .silent), (.delEvent 1 60 .READ, .bool false)]

theorem not_keepsContexts_late
    : ∃ s s', (sections Unit Nat Nat).Run (.start 4 fun _ _ => none) resizeLate s
        ∧ (s.m_fdContexts[60]?.bind (fun c => s.contexts[c]?)).map FdContext.events
            = some ⟨true, false⟩
        ∧ (sections Unit Nat Nat).Run s resizeDown s' ∧ s'.m_fdContexts[60]? = none
        ∧ ¬KeepsContexts (.start 4 fun _ _ => none) (resizeLate ++ resizeDown) := by
  have hreplay : (LTS.replay Threads.exec (.start 4 fun _ _ => none) resizeLate).any (fun s =>
      (s.m_fdContexts[60]?.bind (fun c => s.contexts[c]?)).map FdContext.events
          == some ⟨true, false⟩
        && s.m_fdContexts[60]? == some 60
        && (LTS.replay Threads.exec s resizeDown).any (fun s' =>
          s'.m_fdContexts[60]? == none)) = true := by
    decide +kernel
  rw [Option.any_eq_true] at hreplay
  obtain ⟨s, hs, hprop⟩ := hreplay
  simp only [Bool.and_eq_true, beq_iff_eq, Option.any_eq_true] at hprop
  obtain ⟨⟨hevents, hpointer⟩, s', hs', hnone⟩ := hprop
  have hrun := LTS.run_of_replay hs
  have hrun' := LTS.run_of_replay hs'
  refine ⟨s, s', hrun, hevents, hrun', hnone, ?_⟩
  intro hkeeps
  have hsame := hkeeps.same resizeLate resizeDown [] s s' 60 60 (by rw [List.append_nil]) hrun hrun'
    hpointer
  rw [hnone] at hsame
  cases hsame

end Example

end IOManager
end CXS
