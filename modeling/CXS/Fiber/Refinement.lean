import CXS.Fiber.Coroutines

namespace CXS

namespace Coroutines

open FiberThread (Stack Entry Code Point Context Call)

structure FiberShows (t : FiberThread) (f : Nat) (c : Coroutine) (x : FiberThread.Fiber) : Prop where
  m_state : x.m_state = c.status.m_state
  m_stack : x.m_stack = decide (c.entry ≠ .thread)
  m_cb : x.m_cb = c.cb
  m_ctx : ∀ ctx, c.context f = some ctx → x.m_ctx = ctx ∧ t.saved ctx.code.stack = some f
  cpu : c.status = .running → t.cpu = c.code f

def Shows (t : FiberThread) (f : Nat) : Option Coroutine → Prop
  | none => t.fibers f = none
  | some c => ∃ x, t.fibers f = some x ∧ FiberShows t f c x

structure Represents (a : Coroutines) (t : FiberThread) : Prop where
  count : t.count = a.count
  t_fiber : t.t_fiber = a.current
  t_threadFiber : t.t_threadFiber = a.thread
  mainFiber : t.mainFiber = a.main
  cpu : a.current = none → t.cpu = ⟨.thread, .thread⟩
  fibers : ∀ f, Shows t f (a.fibers f)

theorem represents_new : Represents new FiberThread.new where
  count := rfl
  t_fiber := rfl
  t_threadFiber := rfl
  mainFiber := rfl
  cpu _ := rfl
  fibers _ := rfl

section Switch

variable {a : Coroutines} {t t₁ : FiberThread} {f m : Nat} {c d : Coroutine} {x y : FiberThread.Fiber}

theorem Represents.get (h : Represents a t) (hf : a.fibers f = some c)
    : ∃ x, t.fibers f = some x ∧ FiberShows t f c x := by
  have hshows := h.fibers f
  rw [hf] at hshows
  exact hshows

theorem stack_ne (hinv : Inv a) (hf : a.fibers f = some c) (hm : a.fibers m = some d) (hne : m ≠ f)
    : (d.code m).stack ≠ (c.code f).stack := by
  unfold Coroutine.code
  dsimp only
  by_cases hc : c.entry = .thread
  . by_cases hd : d.entry = .thread
    . have hfm := hinv.shape.thread_of_entry hf hc
      rw [hinv.shape.thread_of_entry hm hd, Option.some.injEq] at hfm
      exact absurd hfm hne
    . rw [if_pos hc, if_neg hd]
      exact nofun
  . rw [if_neg hc]
    split
    . exact nofun
    . intro heq
      injection heq with heq
      exact hne heq

structure Prepared (a : Coroutines) (t t₁ : FiberThread) (f m : Nat) (x y : FiberThread.Fiber)
    : Prop where
  count : t₁.count = a.count
  t_fiber : t₁.t_fiber = some m
  t_threadFiber : t₁.t_threadFiber = a.thread
  mainFiber : t₁.mainFiber = a.main
  cpu : t₁.cpu = t.cpu
  saved : t₁.saved = t.saved
  source : t₁.fibers f = some x
  target : t₁.fibers m = some y
  other : ∀ g, g ≠ f → g ≠ m → t₁.fibers g = t.fibers g

theorem FiberShows.congr {g : Nat} (h : FiberShows t g c x)
    (hsaved : t₁.saved (c.code g).stack = t.saved (c.code g).stack)
    (hcpu : c.status = .running → t₁.cpu = t.cpu) : FiberShows t₁ g c x where
  m_state := h.m_state
  m_stack := h.m_stack
  m_cb := h.m_cb
  m_ctx ctx hctx := by
    obtain ⟨hx, hs⟩ := h.m_ctx ctx hctx
    refine ⟨hx, ?_⟩
    unfold Coroutine.context at hctx
    obtain ⟨point, -, rfl⟩ := Option.map_eq_some_iff.mp hctx
    rw [← hs]
    exact hsaved
  cpu hrun := (hcpu hrun).trans (h.cpu hrun)

theorem running_unique (hinv : Inv a) (hcurrent : a.current = some f) (hm : a.fibers m = some d)
    (hrun : d.status = .running) : m = f := by
  have hnot : ¬ d.Rests := fun hrests => hrests.2.1 hrun
  have hother : ∀ {g e}, a.fibers g = some e → e.status ≠ .running → m ≠ g := by
    intro g e hg he
    apply ne_of_fibers hm hg
    intro heq
    exact he (heq ▸ hrun)
  cases hinv.shape with
  | none hcur => rw [hcur] at hcurrent; cases hcurrent
  | thread t hcur hthr cb ht hrest =>
    rw [hcur, Option.some.injEq] at hcurrent
    rw [← hcurrent]
    apply Classical.byContradiction
    intro hne
    exact hnot (hrest m d hne hm)
  | fiber g t hcur hthr hmn cb cb' ht hg hrest =>
    rw [hcur, Option.some.injEq] at hcurrent
    rw [← hcurrent]
    apply Classical.byContradiction
    intro hne
    exact hnot (hrest m d (hother ht nofun) hne hm)
  | root r t hcur hthr cb cb' ht hr hrest =>
    rw [hcur, Option.some.injEq] at hcurrent
    rw [← hcurrent]
    apply Classical.byContradiction
    intro hne
    exact hnot (hrest m d (hother ht nofun) hne hm)
  | task g r t hcur hthr hmn cb cb' cb'' ht hr hg hrest =>
    rw [hcur, Option.some.injEq] at hcurrent
    rw [← hcurrent]
    apply Classical.byContradiction
    intro hne
    exact hnot (hrest m d (hother ht nofun) (hother hr nofun) hne hm)

theorem Prepared.switch (hp : Prepared a t t₁ f m x y) (c' : Coroutine) (h : Represents a t) (hinv : Inv a)
    (hcurrent : a.current = some f) (hf : a.fibers f = some c) (hm : a.fibers m = some d)
    (hne : m ≠ f) {ctx : Context} (hctx : d.context m = some ctx) (hended : ctx.point ≠ .ended)
    {point : Point} (hentry : c'.entry = c.entry) (hpoint : c'.status.point = some point)
    (hx : x.m_state = c'.status.m_state) (hxs : x.m_stack = decide (c.entry ≠ .thread))
    (hxcb : x.m_cb = c'.cb) (hy : y.m_state = .EXEC) (hys : y.m_stack = decide (d.entry ≠ .thread))
    (hycb : y.m_cb = d.cb) (hyctx : y.m_ctx = ctx)
    : ∃ t', t₁.swapcontext (some f) point m = .ok (t', ctx)
        ∧ Represents (a.switch f c' m d) t' := by
  obtain ⟨x₀, hx₀, hshows⟩ := h.get hf
  obtain ⟨y₀, hy₀, hshows'⟩ := h.get hm
  obtain ⟨c₀, hc₀, hrun⟩ := hinv.shape.current_running hcurrent
  rw [hf, Option.some.injEq] at hc₀
  subst hc₀
  have hcpu : t₁.cpu = c.code f := by rw [hp.cpu, hshows.cpu hrun]
  have hcode : ctx.code = d.code m := by
    unfold Coroutine.context at hctx
    obtain ⟨p, -, rfl⟩ := Option.map_eq_some_iff.mp hctx
    rfl
  have hstack := stack_ne hinv hf hm hne
  have hsaved : t₁.saved (d.code m).stack = some m := by
    rw [hp.saved, ← hcode]
    exact (hshows'.m_ctx ctx hctx).2
  have hsave : t₁.save (some f) point
      = .ok { t₁.setFiber f { x with m_ctx := ⟨c.code f, point⟩ } with
          saved := Function.update t₁.saved (c.code f).stack (some f) } := by
    rw [← hcpu]
    unfold FiberThread.save
    dsimp only
    rw [hp.source]
    rfl
  have htarget : (t₁.setFiber f { x with m_ctx := ⟨c.code f, point⟩ }).fibers m = some y := by
    change Function.update t₁.fibers f _ m = some y
    rw [Function.update_of_ne hne, hp.target]
  have hsource : (t₁.setFiber f { x with m_ctx := ⟨c.code f, point⟩ }).fibers f
      = some { x with m_ctx := ⟨c.code f, point⟩ } :=
    Function.update_self f _ _
  have hback : Function.update t₁.saved (c.code f).stack (some f) (d.code m).stack = some m := by
    rw [Function.update_of_ne hstack, hsaved]
  refine ⟨{ t₁.setFiber f { x with m_ctx := ⟨c.code f, point⟩ } with
      cpu := d.code m
      saved := Function.update (Function.update t₁.saved (c.code f).stack (some f))
        (d.code m).stack none }, ?_, ?_⟩
  . unfold FiberThread.swapcontext
    rw [hsave]
    dsimp only
    unfold FiberThread.resume
    dsimp only
    rw [htarget]
    dsimp only
    rw [hyctx, hcode, if_pos hback, if_neg hended]
  . constructor
    . exact hp.count
    . exact hp.t_fiber
    . exact hp.t_threadFiber
    . exact hp.mainFiber
    . exact nofun
    . intro g
      by_cases hgf : g = f
      . subst hgf
        rw [switch_source hne.symm]
        refine ⟨_, hsource, ?_⟩
        have hcode' : c'.code g = c.code g := by
          unfold Coroutine.code
          rw [hentry]
        constructor
        . exact hx
        . rw [hentry]
          exact hxs
        . exact hxcb
        . intro ctx' hctx'
          unfold Coroutine.context at hctx'
          rw [hpoint, hcode'] at hctx'
          injection hctx' with hctx'
          rw [← hctx']
          refine ⟨rfl, ?_⟩
          dsimp only
          rw [Function.update_of_ne hstack.symm, Function.update_self]
        . intro hrun'
          rw [hrun'] at hpoint
          cases hpoint
      . by_cases hgm : g = m
        . subst hgm
          rw [switch_target]
          refine ⟨y, htarget, hy, hys, hycb, ?_, fun _ => rfl⟩
          intro ctx' hctx'
          cases hctx'
        . rw [switch_other hgf hgm]
          have hother := h.fibers g
          have hsame : (t₁.setFiber f { x with m_ctx := ⟨c.code f, point⟩ }).fibers g = t.fibers g := by
            change Function.update t₁.fibers f _ g = t.fibers g
            rw [Function.update_of_ne hgf, hp.other g hgf hgm]
          cases hg : a.fibers g with
          | none =>
            rw [hg] at hother
            exact hsame.trans hother
          | some e =>
            rw [hg] at hother
            obtain ⟨z, hz, hshow⟩ := hother
            refine ⟨z, hsame.trans hz, hshow.congr ?_ ?_⟩
            . dsimp only
              rw [Function.update_of_ne (stack_ne hinv hm hg hgm),
                Function.update_of_ne (stack_ne hinv hf hg hgf), hp.saved]
            . intro hrun'
              exact absurd (running_unique hinv hcurrent hg hrun') hgf

theorem Represents.prepared_source (h : Represents a t) (hy : t.fibers m = some y) (hne : m ≠ f)
    : Prepared a t ((t.setFiber f x).setThis (some m)) f m x y where
  count := h.count
  t_fiber := rfl
  t_threadFiber := h.t_threadFiber
  mainFiber := h.mainFiber
  cpu := rfl
  saved := rfl
  source := Function.update_self f _ _
  target := (Function.update_of_ne hne _ _).trans hy
  other _ hgf _ := Function.update_of_ne hgf _ _

theorem Represents.prepared_target (h : Represents a t) (hx : t.fibers f = some x) (hne : m ≠ f)
    : Prepared a t ((t.setThis (some m)).setFiber m y) f m x y where
  count := h.count
  t_fiber := rfl
  t_threadFiber := h.t_threadFiber
  mainFiber := h.mainFiber
  cpu := rfl
  saved := rfl
  source := (Function.update_of_ne hne.symm _ _).trans hx
  target := Function.update_self m _ _
  other _ _ hgm := Function.update_of_ne hgm _ _

end Switch

section Step

variable {a a' : Coroutines} {t : FiberThread} {f m : Nat} {c d : Coroutine} {x : FiberThread.Fiber}

theorem resumable_context (h : d.Resumable)
    : ∃ ctx, d.context f = some ctx ∧ ctx.point ≠ .ended ∧ d.status.m_state ≠ .EXEC := by
  unfold Coroutine.context
  rcases h with hfresh | ⟨m_state, hstate, hsusp⟩
  . rw [hfresh]
    exact ⟨_, rfl, nofun, nofun⟩
  . rw [hsusp]
    exact ⟨_, rfl, nofun, hstate⟩

theorem waiting_context {point : Point} (h : d.status = .waiting point)
    : d.context m = some ⟨d.code m, point⟩ := by
  unfold Coroutine.context
  rw [h]
  rfl

theorem Represents.swapIn (h : Represents a t) (hinv : Inv a) (hcurrent : a.current = some m)
    (hmain : a.main = some m) (hm : a.fibers m = some c) (hf : a.fibers f = some d)
    (hready : d.Resumable)
    : ∃ t', t.step (.swapIn f) = .ok (t', d.context f)
        ∧ Represents (a.switch m { c with status := .waiting .swapIn } f d) t' := by
  obtain ⟨x, hx, hshow⟩ := h.get hm
  obtain ⟨y, hy, hshow'⟩ := h.get hf
  obtain ⟨ctx, hctx, hended, hstate⟩ := resumable_context (f := f) hready
  obtain ⟨c₀, hc₀, hrun⟩ := hinv.shape.current_running hcurrent
  rw [hm, Option.some.injEq] at hc₀
  subst hc₀
  have hne : f ≠ m := by
    intro heq
    rw [heq, hm, Option.some.injEq] at hf
    exact (Resumable.not_active hready).1 (hf ▸ hrun)
  obtain ⟨t', ht', hrep⟩ := (h.prepared_target (y := { y with m_state := .EXEC }) hx hne).switch
    { c with status := .waiting .swapIn } h hinv hcurrent hm hf hne hctx hended rfl rfl
    (by rw [hshow.m_state, hrun]; rfl) hshow.m_stack hshow.m_cb rfl hshow'.m_stack hshow'.m_cb
    (hshow'.m_ctx ctx hctx).1
  refine ⟨t', ?_, hrep⟩
  unfold FiberThread.step FiberThread.swapIn
  dsimp only
  have hget : (t.setThis (some f)).fibers f = some y := hy
  have hmainFiber : (t.setThis (some f)).mainFiber = some m := h.mainFiber.trans hmain
  rw [hget]
  dsimp only
  rw [if_neg (by rw [hshow'.m_state]; exact hstate), hmainFiber, ht', hctx]
  rfl

theorem Represents.call (h : Represents a t) (hinv : Inv a) (hcurrent : a.current = some m)
    (hthread : a.thread = some m) (hm : a.fibers m = some c) (hf : a.fibers f = some d)
    (hfresh : d.status = .fresh)
    : ∃ t', t.step (.call f) = .ok (t', d.context f)
        ∧ Represents (a.switch m { c with status := .waiting .call } f d) t' := by
  obtain ⟨x, hx, hshow⟩ := h.get hm
  obtain ⟨y, hy, hshow'⟩ := h.get hf
  obtain ⟨ctx, hctx, hended, -⟩ := resumable_context (f := f) (.inl hfresh)
  obtain ⟨c₀, hc₀, hrun⟩ := hinv.shape.current_running hcurrent
  rw [hm, Option.some.injEq] at hc₀
  subst hc₀
  have hne : f ≠ m := by
    intro heq
    rw [heq, hm, Option.some.injEq] at hf
    rw [hf, hfresh] at hrun
    cases hrun
  obtain ⟨t', ht', hrep⟩ := (h.prepared_target (y := { y with m_state := .EXEC }) hx hne).switch
    { c with status := .waiting .call } h hinv hcurrent hm hf hne hctx hended rfl rfl
    (by rw [hshow.m_state, hrun]; rfl) hshow.m_stack hshow.m_cb rfl hshow'.m_stack hshow'.m_cb
    (hshow'.m_ctx ctx hctx).1
  refine ⟨t', ?_, hrep⟩
  have hget : (t.setThis (some f)).fibers f = some y := hy
  have hthreadFiber : ((t.setThis (some f)).setFiber f { y with m_state := .EXEC }).t_threadFiber
      = some m :=
    h.t_threadFiber.trans hthread
  unfold FiberThread.step FiberThread.call FiberThread.setState
  dsimp only
  rw [hget]
  dsimp only
  rw [hthreadFiber, ht', hctx]
  rfl

theorem yieldTo_eq {m_state : FiberState} (hthis : t.t_fiber = some f) (hx : t.fibers f = some x)
    (hmain : t.mainFiber = some m)
    : t.yieldTo m_state = FiberThread.swapcontext
        ((t.setFiber f { x with m_state := m_state }).setThis (some m)) (some f) .swapOut m := by
  unfold FiberThread.yieldTo FiberThread.getThis
  rw [hthis]
  dsimp only
  unfold FiberThread.setState
  rw [hx]
  dsimp only
  unfold FiberThread.swapOut
  have hmain' : (t.setFiber f { x with m_state := m_state }).mainFiber = some m := hmain
  rw [hmain']

theorem Represents.yield (h : Represents a t) (hinv : Inv a) {l : Call} {m_state : FiberState}
    (hl : yields l = some m_state) (hcurrent : a.current = some f) (hf : a.fibers f = some c)
    (hentry : c.entry = .MainFunc) (hmain : a.main = some m) (hm : a.fibers m = some d)
    : ∃ t', t.step l = .ok (t', d.context m)
        ∧ Represents (a.switch f { c with status := .suspended m_state } m d) t' := by
  obtain ⟨x, hx, hshow⟩ := h.get hf
  obtain ⟨y, hy, hshow'⟩ := h.get hm
  obtain ⟨hrun, hwait, hne⟩ := hinv.main_waits hcurrent hf hentry hmain hm
  have hctx := waiting_context (m := m) hwait
  have hthis : t.t_fiber = some f := h.t_fiber.trans hcurrent
  have hmainFiber : t.mainFiber = some m := h.mainFiber.trans hmain
  obtain ⟨t', ht', hrep⟩ := (h.prepared_source (x := { x with m_state := m_state }) hy hne).switch
    { c with status := .suspended m_state } h hinv hcurrent hf hm hne hctx nofun rfl rfl rfl
    hshow.m_stack hshow.m_cb (by rw [hshow'.m_state, hwait]; rfl) hshow'.m_stack hshow'.m_cb
    (hshow'.m_ctx _ hctx).1
  refine ⟨t', ?_, hrep⟩
  rw [hctx]
  cases l with
  | YieldToReady =>
    injection hl with hl
    subst hl
    unfold FiberThread.step
    dsimp only
    rw [yieldTo_eq hthis hx hmainFiber, ht']
    rfl
  | YieldToHold =>
    injection hl with hl
    subst hl
    unfold FiberThread.step
    dsimp only
    rw [yieldTo_eq hthis hx hmainFiber, ht']
    rfl
  | swapOut =>
    injection hl with hl
    subst hl
    have hsame : t.setFiber f { x with m_state := .EXEC } = t := by
      have hstate : x.m_state = .EXEC := by rw [hshow.m_state, hrun]; rfl
      have hx' : { x with m_state := .EXEC } = x := by rw [← hstate]
      unfold FiberThread.setFiber
      rw [hx', ← hx, Function.update_eq_self]
    rw [hsame] at ht'
    unfold FiberThread.step FiberThread.getThis
    dsimp only
    rw [hthis]
    dsimp only
    unfold FiberThread.swapOut
    rw [hmainFiber]
    dsimp only
    rw [ht']
    rfl
  | _ => cases hl

theorem finished_eq (x : FiberThread.Fiber) (returns : Bool)
    : (if returns ∧ x.m_cb then { x with m_cb := false, m_state := .TERM }
        else { x with m_state := .EXECEP })
      = { x with
          m_cb := !returns && x.m_cb
          m_state := if returns && x.m_cb then .TERM else .EXECEP } := by
  obtain ⟨m_id, m_state, m_stack, m_cb, m_ctx⟩ := x
  cases returns with
  | false => rfl
  | true => cases m_cb <;> rfl

theorem Represents.finish (h : Represents a t) (hinv : Inv a) (returns : Bool)
    (hcurrent : a.current = some f) (hf : a.fibers f = some c) (hentry : c.entry = .MainFunc)
    (hmain : a.main = some m) (hm : a.fibers m = some d)
    : ∃ t', t.step (.finish returns) = .ok (t', d.context m)
        ∧ Represents (a.switch f ⟨c.entry, !returns && c.cb, .done (returns && c.cb)⟩ m d) t' := by
  obtain ⟨x, hx, hshow⟩ := h.get hf
  obtain ⟨y, hy, hshow'⟩ := h.get hm
  obtain ⟨hrun, hwait, hne⟩ := hinv.main_waits hcurrent hf hentry hmain hm
  have hctx := waiting_context (m := m) hwait
  have hcpu := hshow.cpu hrun
  obtain ⟨t', ht', hrep⟩ := (h.prepared_source
    (x := { x with
      m_cb := !returns && x.m_cb
      m_state := if returns && x.m_cb then .TERM else .EXECEP }) hy hne).switch
    ⟨c.entry, !returns && c.cb, .done (returns && c.cb)⟩ h hinv hcurrent hf hm hne hctx nofun rfl rfl
    (by rw [hshow.m_cb]; rfl) hshow.m_stack (by rw [hshow.m_cb])
    (by rw [hshow'.m_state, hwait]; rfl) hshow'.m_stack hshow'.m_cb (hshow'.m_ctx _ hctx).1
  refine ⟨t', ?_, hrep⟩
  have hstack : t.cpu.stack = .own f := by
    rw [hcpu, Coroutine.code]
    exact if_neg (by rw [hentry]; decide)
  have hbottom : t.cpu.entry = .MainFunc := by rw [hcpu, Coroutine.code, hentry]
  unfold FiberThread.step FiberThread.finish
  dsimp only
  rw [hstack]
  dsimp only
  rw [hx]
  dsimp only
  rw [hbottom, finished_eq]
  dsimp only
  unfold FiberThread.swapOut
  have hmainFiber : t.mainFiber = some m := h.mainFiber.trans hmain
  have hmain' : ∀ z, (t.setFiber f z).mainFiber = some m := fun _ => hmainFiber
  rw [hmain']
  dsimp only
  rw [ht', hctx]
  rfl

theorem Represents.finishCaller (h : Represents a t) (hinv : Inv a) (returns : Bool)
    (hcurrent : a.current = some f) (hf : a.fibers f = some c) (hentry : c.entry = .CallerMainFunc)
    (hthread : a.thread = some m) (hm : a.fibers m = some d)
    : ∃ t', t.step (.finish returns) = .ok (t', d.context m)
        ∧ Represents (a.switch f ⟨c.entry, !returns && c.cb, .done (returns && c.cb)⟩ m d) t' := by
  obtain ⟨x, hx, hshow⟩ := h.get hf
  obtain ⟨y, hy, hshow'⟩ := h.get hm
  obtain ⟨hrun, hwait, hne, -⟩ := hinv.thread_waits hcurrent hf hentry hthread hm
  have hctx := waiting_context (m := m) hwait
  have hcpu := hshow.cpu hrun
  obtain ⟨t', ht', hrep⟩ := (h.prepared_source
    (x := { x with
      m_cb := !returns && x.m_cb
      m_state := if returns && x.m_cb then .TERM else .EXECEP }) hy hne).switch
    ⟨c.entry, !returns && c.cb, .done (returns && c.cb)⟩ h hinv hcurrent hf hm hne hctx nofun rfl rfl
    (by rw [hshow.m_cb]; rfl) hshow.m_stack (by rw [hshow.m_cb])
    (by rw [hshow'.m_state, hwait]; rfl) hshow'.m_stack hshow'.m_cb (hshow'.m_ctx _ hctx).1
  refine ⟨t', ?_, hrep⟩
  have hstack : t.cpu.stack = .own f := by
    rw [hcpu, Coroutine.code]
    exact if_neg (by rw [hentry]; decide)
  have hbottom : t.cpu.entry = .CallerMainFunc := by rw [hcpu, Coroutine.code, hentry]
  unfold FiberThread.step FiberThread.finish
  dsimp only
  rw [hstack]
  dsimp only
  rw [hx]
  dsimp only
  rw [hbottom, finished_eq]
  dsimp only
  unfold FiberThread.back
  have hthreadFiber : t.t_threadFiber = some m := h.t_threadFiber.trans hthread
  have hthread' : ∀ z, (t.setFiber f z).t_threadFiber = some m := fun _ => hthreadFiber
  rw [hthread']
  dsimp only
  rw [ht', hctx]
  rfl

theorem Represents.others {t₁ : FiberThread} (h : Represents a t) {g : Nat}
    (hget : t₁.fibers g = t.fibers g)
    (hsaved : ∀ e, a.fibers g = some e → t₁.saved (e.code g).stack = t.saved (e.code g).stack)
    (hcpu : t₁.cpu = t.cpu) : Shows t₁ g (a.fibers g) := by
  have hother := h.fibers g
  cases hg : a.fibers g with
  | none =>
    rw [hg] at hother
    exact hget.trans hother
  | some e =>
    rw [hg] at hother
    obtain ⟨z, hz, hshow⟩ := hother
    exact ⟨z, hget.trans hz, hshow.congr (hsaved e hg) fun _ => hcpu⟩

theorem saved_of_makecontext {g : Nat} {e : Coroutine} (hne : g ≠ f)
    : Function.update t.saved (.own f) (some f) (e.code g).stack = t.saved (e.code g).stack := by
  apply Function.update_of_ne
  unfold Coroutine.code
  dsimp only
  split
  . exact nofun
  . intro heq
    injection heq with heq
    exact hne heq

theorem Represents.start (h : Represents a t) (hcurrent : a.current = none)
    : ∃ t', t.step .GetThis = .ok (t', none)
        ∧ Represents { a.add ⟨.thread, false, .running⟩ with
            current := some a.count, thread := some a.count } t' := by
  have hthis : t.t_fiber = none := h.t_fiber.trans hcurrent
  refine ⟨{ t.createMain with t_threadFiber := some t.count }, ?_, ?_⟩
  . unfold FiberThread.step FiberThread.getThis
    dsimp only
    rw [hthis]
  . constructor
    . exact congrArg (· + 1) h.count
    . exact congrArg some h.count
    . exact congrArg some h.count
    . exact h.mainFiber
    . exact nofun
    . intro g
      change Shows _ g (Function.update a.fibers a.count _ g)
      by_cases hg : g = a.count
      . rw [hg, Function.update_self]
        refine ⟨⟨0, .EXEC, false, false, ⟨t.cpu, .constructed⟩⟩, ?_, rfl, rfl, rfl, nofun, ?_⟩
        . change Function.update t.fibers t.count _ a.count = _
          rw [h.count, Function.update_self]
        . intro _
          exact h.cpu hcurrent
      . rw [Function.update_of_ne hg]
        apply h.others
        . change Function.update t.fibers t.count _ g = t.fibers g
          rw [h.count, Function.update_of_ne hg]
        . intro e _
          rfl
        . rfl

theorem Represents.create (h : Represents a t) (cb use_caller : Bool)
    : ∃ t', t.step (.create cb use_caller) = .ok (t', none)
        ∧ Represents (a.add ⟨if use_caller then .CallerMainFunc else .MainFunc, cb, .fresh⟩) t' := by
  refine ⟨t.create cb use_caller, rfl, ?_⟩
  constructor
  . exact congrArg (· + 1) h.count
  . exact h.t_fiber
  . exact h.t_threadFiber
  . exact h.mainFiber
  . exact h.cpu
  . intro g
    change Shows _ g (Function.update a.fibers a.count _ g)
    by_cases hg : g = a.count
    . rw [hg, Function.update_self]
      refine ⟨⟨t.s_fiber_id + 1, .INIT, true, cb,
        ⟨⟨.own t.count, if use_caller then .CallerMainFunc else .MainFunc⟩, .start⟩⟩, ?_, rfl, ?_, rfl,
        ?_, nofun⟩
      . change Function.update t.fibers t.count _ a.count = _
        rw [h.count, Function.update_self]
      . cases use_caller <;> rfl
      . intro ctx hctx
        injection hctx with hctx
        rw [← hctx, h.count]
        cases use_caller with
        | false => exact ⟨rfl, by rw [← h.count]; exact Function.update_self _ _ _⟩
        | true => exact ⟨rfl, by rw [← h.count]; exact Function.update_self _ _ _⟩
    . rw [Function.update_of_ne hg]
      apply h.others
      . change Function.update t.fibers t.count _ g = t.fibers g
        rw [h.count, Function.update_of_ne hg]
      . intro e _
        apply saved_of_makecontext
        rw [h.count]
        exact hg
      . rfl

theorem Represents.delete (h : Represents a t) (hinv : Inv a) (hf : a.fibers f = some c)
    (hunused : c.Unused)
    : ∃ t', t.step (.delete f) = .ok (t', none)
        ∧ Represents { a with fibers := Function.update a.fibers f none } t' := by
  obtain ⟨x, hx, hshow⟩ := h.get hf
  have hrests := hinv.shape.rests_of_unused hf hunused
  have hstack : x.m_stack = true := by
    rw [hshow.m_stack]
    exact decide_eq_true hrests.1
  have hstate : x.m_state = .TERM ∨ x.m_state = .EXECEP ∨ x.m_state = .INIT := by
    rw [hshow.m_state]
    rcases hunused with hfresh | ⟨returned, hdone⟩
    . rw [hfresh]
      exact .inr (.inr rfl)
    . rw [hdone]
      cases returned with
      | true => exact .inl rfl
      | false => exact .inr (.inl rfl)
  refine ⟨{ t with
    fibers := Function.update t.fibers f none, s_fiber_count := t.s_fiber_count - 1 }, ?_, ?_⟩
  . unfold FiberThread.step FiberThread.delete
    dsimp only
    rw [hx]
    dsimp only
    rw [if_pos hstack, if_pos hstate]
    rfl
  . constructor
    . exact h.count
    . exact h.t_fiber
    . exact h.t_threadFiber
    . exact h.mainFiber
    . exact h.cpu
    . intro g
      dsimp only
      by_cases hg : g = f
      . rw [hg, Function.update_self]
        exact Function.update_self f _ _
      . rw [Function.update_of_ne hg]
        apply h.others
        . exact Function.update_of_ne hg _ _
        . intro e _
          rfl
        . rfl

theorem Represents.set (h : Represents a t) {c' : Coroutine} {t₁ : FiberThread}
    (hcount : t₁.count = t.count) (hthis : t₁.t_fiber = t.t_fiber)
    (hthread : t₁.t_threadFiber = t.t_threadFiber) (hmain : t₁.mainFiber = t.mainFiber)
    (hcpu : t₁.cpu = t.cpu) (hget : t₁.fibers f = some x) (hshow : FiberShows t₁ f c' x)
    (hother : ∀ g, g ≠ f → t₁.fibers g = t.fibers g)
    (hsaved : ∀ g (e : Coroutine), g ≠ f → t₁.saved (e.code g).stack = t.saved (e.code g).stack)
    : Represents (a.set f c') t₁ where
  count := hcount.trans h.count
  t_fiber := hthis.trans h.t_fiber
  t_threadFiber := hthread.trans h.t_threadFiber
  mainFiber := hmain.trans h.mainFiber
  cpu hcurrent := hcpu.trans (h.cpu hcurrent)
  fibers g := by
    change Shows _ g (Function.update a.fibers f (some c') g)
    by_cases hg : g = f
    . rw [hg, Function.update_self]
      exact ⟨x, hget, hshow⟩
    . rw [Function.update_of_ne hg]
      exact h.others (hother g hg) (fun e _ => hsaved g e hg) hcpu

theorem Represents.reset (h : Represents a t) (hinv : Inv a) (cb : Bool) (hf : a.fibers f = some c)
    (hunused : c.Unused)
    : ∃ t', t.step (.reset f cb) = .ok (t', none) ∧ Represents (a.set f ⟨.MainFunc, cb, .fresh⟩) t' := by
  obtain ⟨x, hx, hshow⟩ := h.get hf
  have hrests := hinv.shape.rests_of_unused hf hunused
  have hstack : x.m_stack = true := by
    rw [hshow.m_stack]
    exact decide_eq_true hrests.1
  have hstate : x.m_state = .TERM ∨ x.m_state = .INIT ∨ x.m_state = .EXECEP := by
    rw [hshow.m_state]
    rcases hunused with hfresh | ⟨returned, hdone⟩
    . rw [hfresh]
      exact .inr (.inl rfl)
    . rw [hdone]
      cases returned with
      | true => exact .inl rfl
      | false => exact .inr (.inr rfl)
  refine ⟨(t.setFiber f { x with
    m_cb := cb
    m_ctx := ⟨⟨.own f, .MainFunc⟩, .start⟩
    m_state := .INIT
  }).makecontext f, ?_, ?_⟩
  . unfold FiberThread.step FiberThread.reset
    dsimp only
    rw [hx]
    dsimp only
    rw [if_pos ⟨hstack, hstate⟩]
    rfl
  . apply h.set
    . rfl
    . rfl
    . rfl
    . rfl
    . rfl
    . exact Function.update_self f _ _
    . refine ⟨rfl, hstack, rfl, ?_, nofun⟩
      intro ctx hctx
      injection hctx with hctx
      rw [← hctx]
      exact ⟨rfl, Function.update_self _ _ _⟩
    . intro g hg
      exact Function.update_of_ne hg _ _
    . intro g e hg
      exact saved_of_makecontext hg

theorem Represents.setState (h : Represents a t) (m_state : FiberState) {old : FiberState}
    (hf : a.fibers f = some c) (hold : c.status = .suspended old)
    : ∃ t', t.step (.setState f m_state) = .ok (t', none)
        ∧ Represents (a.set f { c with status := .suspended m_state }) t' := by
  obtain ⟨x, hx, hshow⟩ := h.get hf
  refine ⟨t.setFiber f { x with m_state := m_state }, ?_, ?_⟩
  . unfold FiberThread.step FiberThread.setState
    dsimp only
    rw [hx]
    rfl
  . apply h.set
    . rfl
    . rfl
    . rfl
    . rfl
    . rfl
    . exact Function.update_self f _ _
    . refine ⟨rfl, hshow.m_stack, hshow.m_cb, ?_, nofun⟩
      intro ctx hctx
      apply hshow.m_ctx
      unfold Coroutine.context at *
      rw [hold]
      exact hctx
    . intro g hg
      exact Function.update_of_ne hg _ _
    . intro g e _
      rfl

theorem Represents.step {l : Call × Option Context} (h : Represents a t) (hinv : Inv a)
    (hstep : Step a l a') : ∃ t', t.step l.1 = .ok (t', l.2) ∧ Represents a' t' := by
  cases hstep with
  | start hcurrent => exact h.start hcurrent
  | getThis hcurrent =>
    refine ⟨t, ?_, h⟩
    unfold FiberThread.step FiberThread.getThis
    dsimp only
    rw [h.t_fiber, hcurrent]
  | create cb use_caller => exact h.create cb use_caller
  | delete hf hunused => exact h.delete hinv hf hunused
  | reset cb hf hunused => exact h.reset hinv cb hf hunused
  | setState m_state hf hold hstate => exact h.setState m_state hf hold
  | setMainFiber f hcurrent =>
    refine ⟨{ t with mainFiber := some f }, rfl, h.count, h.t_fiber, h.t_threadFiber, rfl, h.cpu, ?_⟩
    intro g
    exact h.others rfl (fun _ _ => rfl) rfl
  | swapIn hcurrent hmain hm hf hentry hready => exact h.swapIn hinv hcurrent hmain hm hf hready
  | call hcurrent hthread hm hf hentry hfresh => exact h.call hinv hcurrent hthread hm hf hfresh
  | yield hl hcurrent hf hentry hmain hm => exact h.yield hinv hl hcurrent hf hentry hmain hm
  | finish returns hcurrent hf hentry hmain hm =>
    exact h.finish hinv returns hcurrent hf hentry hmain hm
  | finishCaller returns hcurrent hf hentry hthread hm =>
    exact h.finishCaller hinv returns hcurrent hf hentry hthread hm

end Step

/--
Every run of the coroutines of a thread is a run of `code/fiber.cc`: every call returns or switches,
and every switch goes on at the context that the coroutine has stopped at.
-/
theorem run_represents {ls : List (Call × Option Context)} {a : Coroutines} (hrun : lts.Run new ls a)
    : ∃ t, FiberThread.lts.Run FiberThread.new ls t ∧ Represents a t ∧ Inv a := by
  have hsim : ∀ (a : Coroutines) (l : Call × Option Context) (a' : Coroutines) (t : FiberThread),
      Represents a t ∧ Inv a → lts.step a l a'
        → ∃ t', FiberThread.lts.step t l t' ∧ (Represents a' t' ∧ Inv a') := by
    rintro a l a' t ⟨h, hinv⟩ hstep
    obtain ⟨t', ht', hrep⟩ := h.step hinv hstep
    exact ⟨t', ht', hrep, hinv.step hstep⟩
  obtain ⟨t, ht, hrep, hinv⟩ := hrun.simulation hsim ⟨represents_new, inv_new⟩
  exact ⟨t, ht, hrep, hinv⟩

theorem run_represents_yield
    : ∃ a t, FiberThread.lts.Run FiberThread.new
        [(.GetThis, none), (.setMainFiber 0, none), (.create true false, none),
          (.swapIn 1, some ⟨⟨.own 1, .MainFunc⟩, .start⟩),
          (.YieldToHold, some ⟨⟨.thread, .thread⟩, .swapIn⟩),
          (.swapIn 1, some ⟨⟨.own 1, .MainFunc⟩, .swapOut⟩),
          (.finish true, some ⟨⟨.thread, .thread⟩, .swapIn⟩)] t
      ∧ Represents a t ∧ Inv a :=
  ⟨_, run_represents (.cons (.start rfl) (.cons (.setMainFiber 0 rfl) (.cons (.create _ true false)
    (.cons (.swapIn (c := ⟨.thread, false, .running⟩) (d := ⟨.MainFunc, true, .fresh⟩)
      rfl rfl rfl rfl rfl (.inl rfl))
    (.cons (.yield (c := ⟨.MainFunc, true, .running⟩) (d := ⟨.thread, false, .waiting .swapIn⟩)
      rfl rfl rfl rfl rfl rfl)
    (.cons (.swapIn (c := ⟨.thread, false, .running⟩) (d := ⟨.MainFunc, true, .suspended .HOLD⟩)
      rfl rfl rfl rfl rfl (.inr ⟨.HOLD, nofun, rfl⟩))
    (.cons (.finish (c := ⟨.MainFunc, true, .running⟩) (d := ⟨.thread, false, .waiting .swapIn⟩) true
      rfl rfl rfl rfl rfl) (.nil _))))))))⟩

end Coroutines

end CXS
