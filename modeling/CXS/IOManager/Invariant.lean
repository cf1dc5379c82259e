import CXS.IOManager.Basic

namespace CXS

variable {S F C : Type}

namespace Events

def count (es : Events) : Nat :=
  es.read.toNat + es.write.toNat

theorem count_le (es : Events) : es.count ≤ 2 := by
  rcases es with ⟨_ | _, _ | _⟩ <;> decide

theorem count_add {es : Events} {e : Event} (h : es.has e = false)
    : (es.add e).count = es.count + 1 := by
  rcases es with ⟨_ | _, _ | _⟩ <;> cases e <;> simp_all [has, add, count]

theorem count_remove {es : Events} {e : Event} (h : es.has e = true)
    : (es.remove e).count + 1 = es.count := by
  rcases es with ⟨_ | _, _ | _⟩ <;> cases e <;> simp_all [has, remove, count]

theorem add_ne_none (es : Events) (e : Event) : es.add e ≠ .NONE := by
  rcases es with ⟨_ | _, _ | _⟩ <;> cases e <;> decide

theorem ne_none_of_has {es : Events} {e : Event} (h : es.has e = true) : es ≠ .NONE := by
  intro heq
  rw [heq] at h
  cases e <;> cases h

theorem has_add (es : Events) (e e' : Event) : (es.add e).has e' = (e == e' || es.has e') := by
  cases e <;> cases e' <;> simp [has, add]

theorem has_remove (es : Events) (e e' : Event)
    : (es.remove e).has e' = (e != e' && es.has e') := by
  cases e <;> cases e' <;> simp [has, remove]

end Events

theorem sum_map_set {α : Type} {l : List α} {i : Nat} {a : α} (f : α → Nat) (b : α)
    (h : l[i]? = some a) : ((l.set i b).map f).sum + f a = (l.map f).sum + f b := by
  induction l generalizing i with
  | nil => cases h
  | cons x l ih =>
    cases i with
    | zero =>
      injection h with h
      subst h
      simp only [List.set_cons_zero, List.map_cons, List.sum_cons]
      omega
    | succ i =>
      have := ih h
      simp only [List.set_cons_succ, List.map_cons, List.sum_cons]
      omega

theorem sum_map_le {α : Type} (l : List α) {f : α → Nat} {k : Nat} (h : ∀ a, f a ≤ k)
    : (l.map f).sum ≤ k * l.length := by
  induction l with
  | nil => simp
  | cons x l ih =>
    have := h x
    simp only [List.map_cons, List.sum_cons, List.length_cons]
    rw [Nat.mul_succ]
    omega

def Task.context (scheduler : Option S) : Task F C → EventContext S F C
  | .fiber f => ⟨scheduler, some f, none⟩
  | .cb c => ⟨scheduler, none, some c⟩

theorem Task.take_context (scheduler : Option S) (task : Task F C)
    : (task.context scheduler).take = (some task, ⟨scheduler, none, none⟩) := by
  cases task with
  | fiber fiber => rfl
  | cb cb => rfl

theorem Task.scheduler_context (scheduler : Option S) (task : Task F C)
    : (task.context scheduler).scheduler = scheduler := by
  cases task with
  | fiber fiber => rfl
  | cb cb => rfl

namespace IOManager

def Caller.task (caller : Caller S F) : Option C → Task F C
  | some cb => .cb cb
  | none => .fiber caller.fiber

theorem Caller.context_eq (caller : Caller S F) (cb : Option C)
    : caller.context cb = (caller.task cb).context caller.scheduler := by
  cases cb with
  | none => rfl
  | some cb => rfl

end IOManager

namespace FdContext

variable {ctx : FdContext S F C} {e e' : Event}

@[simp]
theorem getContext_setContext (ctx : FdContext S F C) (slot : EventContext S F C) (e e' : Event)
    : (ctx.setContext slot e).getContext e' = if e = e' then slot else ctx.getContext e' := by
  cases e <;> cases e' <;> rfl

@[simp]
theorem setContext_fd (ctx : FdContext S F C) (slot : EventContext S F C) (e : Event)
    : (ctx.setContext slot e).fd = ctx.fd := by
  cases e <;> rfl

@[simp]
theorem setContext_events (ctx : FdContext S F C) (slot : EventContext S F C) (e : Event)
    : (ctx.setContext slot e).events = ctx.events := by
  cases e <;> rfl

@[simp]
theorem getContext_events (ctx : FdContext S F C) (es : Events) (e : Event)
    : { ctx with events := es }.getContext e = ctx.getContext e := by
  cases e <;> rfl

def Wf (ctx : FdContext S F C) : Prop :=
  ∀ e, if ctx.events.has e then
      ∃ scheduler task, ctx.getContext e = Task.context scheduler task
    else
      ∃ garbage, ctx.getContext e = .new garbage

def clear (ctx : FdContext S F C) (e : Event) : FdContext S F C :=
  { ctx with events := ctx.events.remove e }.resetContext e

def interest (ctx : FdContext S F C) : Option Interest :=
  if ctx.events = .NONE then none else some ⟨ctx.events, .ptr ctx.fd⟩

theorem wf_new (fd : Nat) (garbage : Event → Option S) : (new fd garbage : FdContext S F C).Wf := by
  intro e
  cases e with
  | READ => exact ⟨garbage .READ, rfl⟩
  | WRITE => exact ⟨garbage .WRITE, rfl⟩

theorem wf_setContext (h : ctx.Wf) (scheduler : Option S) (task : Task F C) (e : Event)
    : ({ ctx with events := ctx.events.add e }.setContext (task.context scheduler) e).Wf := by
  intro e'
  have := h e'
  simp only [setContext_events, getContext_setContext, getContext_events, Events.has_add]
  by_cases heq : e = e'
  . subst heq
    simp
  . simpa [heq] using this

@[simp]
theorem clear_fd (ctx : FdContext S F C) (e : Event) : (ctx.clear e).fd = ctx.fd := by
  simp [clear, resetContext]

@[simp]
theorem clear_events (ctx : FdContext S F C) (e : Event)
    : (ctx.clear e).events = ctx.events.remove e := by
  simp [clear, resetContext]

@[simp]
theorem getContext_clear (ctx : FdContext S F C) (e e' : Event)
    : (ctx.clear e).getContext e' = if e = e' then .empty else ctx.getContext e' := by
  simp [clear, resetContext]

theorem wf_clear (h : ctx.Wf) (e : Event) : (ctx.clear e).Wf := by
  intro e'
  have := h e'
  rw [clear_events, getContext_clear, Events.has_remove]
  by_cases heq : e = e'
  . subst heq
    simp only [bne_self_eq_false, Bool.false_and, Bool.false_eq_true, if_false, if_true]
    exact ⟨none, rfl⟩
  . simpa [heq] using this

theorem triggerEvent_eq {scheduler : S} {task : Task F C} (h : ctx.events.has e = true)
    (hslot : ctx.getContext e = task.context (some scheduler))
    : ctx.triggerEvent e = .ok (ctx.clear e, [⟨ctx.fd, e, scheduler, task⟩]) := by
  unfold triggerEvent
  simp only [h, Bool.not_true, Bool.false_eq_true, if_false, getContext_events, hslot,
    Task.scheduler_context, Task.take_context, setContext_fd]
  rfl

theorem triggerEvent_eq_ok (hwf : ctx.Wf) {ctx' : FdContext S F C} {out : List (Scheduled S F C)}
    (h : ctx.triggerEvent e = .ok (ctx', out))
    : ctx.events.has e = true ∧ ∃ scheduler task,
        ctx.getContext e = Task.context (some scheduler) task
          ∧ ctx' = ctx.clear e ∧ out = [⟨ctx.fd, e, scheduler, task⟩] := by
  by_cases hhas : ctx.events.has e = true
  . have hslot := hwf e
    rw [if_pos hhas] at hslot
    obtain ⟨scheduler, task, hslot⟩ := hslot
    cases scheduler with
    | none =>
      unfold triggerEvent at h
      simp [hhas, hslot, Task.scheduler_context] at h
    | some scheduler =>
      rw [triggerEvent_eq hhas hslot] at h
      cases h
      exact ⟨hhas, scheduler, task, hslot, rfl, rfl⟩
  . unfold triggerEvent at h
    simp [hhas] at h

end FdContext

namespace IOManager

structure Inv (m : IOManager S F C) : Prop where
  fd : ∀ (i : Nat) (ctx : FdContext S F C), m.m_fdContexts[i]? = some ctx → ctx.fd = i ∧ ctx.Wf
  size : 32 ≤ m.m_fdContexts.length ∧ m.m_fdContexts.length < 2 ^ 31
  count : m.m_pendingEventCount = (m.m_fdContexts.map (fun ctx => ctx.events.count)).sum
  epoll : ∀ i, i ≠ m.m_tickleFd → m.epoll i = m.m_fdContexts[i]?.bind FdContext.interest
  tickle : m.epoll m.m_tickleFd = some ⟨⟨true, false⟩, .fd⟩
  tickle_events : ∀ ctx : FdContext S F C, m.m_fdContexts[m.m_tickleFd]? = some ctx
    → ctx.events = .NONE
  results : ∀ thread i bits, (.ptr i, bits) ∈ m.results thread → i < m.m_fdContexts.length

theorem freshContexts_get (contexts : List (FdContext S F C)) (size i : Nat)
    (garbage : Nat → Event → Option S) {ctx : FdContext S F C}
    (h : (freshContexts contexts size garbage)[i]? = some ctx)
    : ctx = FdContext.new (contexts.length + i) (garbage (contexts.length + i)) := by
  unfold freshContexts at h
  rw [List.getElem?_map, Option.map_eq_some_iff] at h
  obtain ⟨j, hj, rfl⟩ := h
  have hlt := (List.getElem?_eq_some_iff.mp hj).1
  rw [List.length_range'] at hlt
  rw [List.getElem?_range' hlt, Nat.one_mul] at hj
  injection hj with hj
  rw [hj]

theorem freshContexts_sum (contexts : List (FdContext S F C)) (size : Nat)
    (garbage : Nat → Event → Option S)
    : ((freshContexts contexts size garbage).map (fun ctx => ctx.events.count)).sum = 0 := by
  unfold freshContexts
  rw [List.map_map]
  rw [List.sum_eq_zero_iff_forall_eq_nat]
  intro x hx
  rw [List.mem_map] at hx
  obtain ⟨i, -, rfl⟩ := hx
  rfl

theorem inv_new (tickleFd : Nat) (garbage : Nat → Event → Option S)
    : (new tickleFd garbage : IOManager S F C).Inv where
  fd := by
    intro i ctx h
    have heq := freshContexts_get [] 32 i garbage h
    rw [List.length_nil, Nat.zero_add] at heq
    rw [heq]
    exact ⟨rfl, FdContext.wf_new i _⟩
  size := by
    simp [new, freshContexts]
  count := (freshContexts_sum [] 32 garbage).symm
  epoll := by
    intro i hi
    simp only [new] at hi ⊢
    rw [Function.update_of_ne hi]
    cases h : (freshContexts ([] : List (FdContext S F C)) 32 garbage)[i]? with
    | none => rfl
    | some ctx =>
      rw [freshContexts_get [] 32 i garbage h]
      rfl
  tickle := by
    simp [new]
  tickle_events := by
    intro ctx h
    rw [freshContexts_get [] 32 tickleFd garbage h]
    rfl
  results := by
    intro thread i bits h
    cases h

structure Frame (m m' : IOManager S F C) : Prop where
  contexts : ∃ size garbage, m'.m_fdContexts
    = m.m_fdContexts ++ freshContexts m.m_fdContexts size garbage
  size : m'.m_fdContexts.length < 2 ^ 31
  epoll : m'.epoll = m.epoll
  count : m'.m_pendingEventCount = m.m_pendingEventCount
  scheduled : m'.scheduled = m.scheduled
  tickle : m'.m_tickleFd = m.m_tickleFd
  results : ∀ thread i bits, (.ptr i, bits) ∈ m'.results thread → i < m'.m_fdContexts.length

structure Edit (m m' : IOManager S F C) (i : Nat) (ctx ctx' : FdContext S F C)
    (out : List (Scheduled S F C)) : Prop where
  get : m.m_fdContexts[i]? = some ctx
  ne_tickle : i ≠ m.m_tickleFd
  contexts : m'.m_fdContexts = m.m_fdContexts.set i ctx'
  epoll : m'.epoll = Function.update m.epoll i ctx'.interest
  count : m'.m_pendingEventCount + ctx.events.count = m.m_pendingEventCount + ctx'.events.count
  scheduled : m'.scheduled = m.scheduled ++ out
  tickle : m'.m_tickleFd = m.m_tickleFd
  results : m'.results = m.results

namespace Frame

variable {m m' : IOManager S F C}

theorem refl (h : m.Inv) : Frame m m where
  contexts := ⟨0, fun _ _ => none, by simp [freshContexts]⟩
  size := h.size.2
  epoll := rfl
  count := rfl
  scheduled := rfl
  tickle := rfl
  results := h.results

theorem get (h : Frame m m') {i : Nat} {ctx : FdContext S F C}
    (hget : m'.m_fdContexts[i]? = some ctx)
    : m.m_fdContexts[i]? = some ctx
      ∨ m.m_fdContexts[i]? = none ∧ ∃ garbage, ctx = FdContext.new i garbage := by
  obtain ⟨size, garbage, heq⟩ := h.contexts
  rw [heq, List.getElem?_append] at hget
  split at hget
  . exact .inl hget
  . next hlt =>
    right
    refine ⟨?_, garbage i, ?_⟩
    . rw [List.getElem?_eq_none_iff]
      omega
    . have := freshContexts_get _ _ _ _ hget
      rw [show m.m_fdContexts.length + (i - m.m_fdContexts.length) = i by omega] at this
      apply this

theorem get_old (h : Frame m m') {i : Nat} {ctx : FdContext S F C}
    (hget : m.m_fdContexts[i]? = some ctx) : m'.m_fdContexts[i]? = some ctx := by
  obtain ⟨size, garbage, heq⟩ := h.contexts
  rw [heq, List.getElem?_append_left (List.getElem?_eq_some_iff.mp hget).1]
  apply hget

theorem inv (h : Frame m m') (hinv : m.Inv) : m'.Inv where
  fd := by
    intro i ctx hget
    rcases h.get hget with hget | ⟨-, garbage, rfl⟩
    . apply hinv.fd i ctx hget
    . exact ⟨rfl, FdContext.wf_new i garbage⟩
  size := by
    refine ⟨?_, h.size⟩
    obtain ⟨size, garbage, heq⟩ := h.contexts
    have := hinv.size.1
    rw [heq, List.length_append]
    omega
  count := by
    obtain ⟨size, garbage, heq⟩ := h.contexts
    rw [heq, List.map_append, List.sum_append, freshContexts_sum, h.count, hinv.count]
    rfl
  epoll := by
    intro i hi
    rw [h.tickle] at hi
    rw [h.epoll, hinv.epoll i hi]
    cases hget : m'.m_fdContexts[i]? with
    | none =>
      cases hget' : m.m_fdContexts[i]? with
      | none => rfl
      | some ctx =>
        rw [h.get_old hget'] at hget
        cases hget
    | some ctx =>
      rcases h.get hget with hget | ⟨hnone, garbage, rfl⟩
      . rw [hget]
      . rw [hnone]
        rfl
  tickle := by
    rw [h.tickle, h.epoll]
    apply hinv.tickle
  tickle_events := by
    intro ctx hget
    rw [h.tickle] at hget
    rcases h.get hget with hget | ⟨-, garbage, rfl⟩
    . apply hinv.tickle_events ctx hget
    . rfl
  results := h.results

end Frame

namespace Edit

variable {m m' : IOManager S F C} {i : Nat} {ctx ctx' : FdContext S F C}
  {out : List (Scheduled S F C)}

theorem get_self (h : Edit m m' i ctx ctx' out) : m'.m_fdContexts[i]? = some ctx' := by
  rw [h.contexts]
  apply List.getElem?_set_self
  exact (List.getElem?_eq_some_iff.mp h.get).1

theorem get_ne (h : Edit m m' i ctx ctx' out) {j : Nat} (hne : i ≠ j)
    : m'.m_fdContexts[j]? = m.m_fdContexts[j]? := by
  rw [h.contexts]
  apply List.getElem?_set_ne hne

theorem inv (h : Edit m m' i ctx ctx' out) (hinv : m.Inv) (hfd : ctx'.fd = ctx.fd)
    (hwf : ctx'.Wf) : m'.Inv where
  fd := by
    intro j ctx'' hget
    by_cases hij : i = j
    . subst hij
      rw [h.get_self] at hget
      injection hget with hget
      subst hget
      rw [hfd]
      exact ⟨(hinv.fd i ctx h.get).1, hwf⟩
    . rw [h.get_ne hij] at hget
      apply hinv.fd j ctx'' hget
  size := by
    rw [h.contexts, List.length_set]
    apply hinv.size
  count := by
    have hcount := h.count
    have hsum := sum_map_set (fun ctx => ctx.events.count) ctx' h.get
    rw [← h.contexts, ← hinv.count] at hsum
    omega
  epoll := by
    intro j hj
    rw [h.epoll]
    by_cases hij : i = j
    . subst hij
      rw [h.get_self, Function.update_self]
      rfl
    . rw [h.get_ne hij, Function.update_of_ne (Ne.symm hij)]
      rw [h.tickle] at hj
      apply hinv.epoll j hj
  tickle := by
    rw [h.tickle, h.epoll, Function.update_of_ne (Ne.symm h.ne_tickle)]
    apply hinv.tickle
  tickle_events := by
    intro ctx'' hget
    rw [h.tickle, h.get_ne h.ne_tickle] at hget
    apply hinv.tickle_events ctx'' hget
  results := by
    rw [h.results, h.contexts, List.length_set]
    apply hinv.results

end Edit

end IOManager
end CXS
