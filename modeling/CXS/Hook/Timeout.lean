import CXS.Hook.Moves

/-!
This module contains what is left to wake a fiber that waits in a hooked call with a timeout. The
timer is set before the event is registered, and every round of a call shares one `timer_info`. A
timeout callback that comes between `retry` and `addEvent` has nothing to cancel, and no later
callback of the call wakes the fiber either. In a run without such a callback the fiber never waits
in vain.
-/

namespace CXS

variable {S F C : Type}

namespace Pc

def unregistered : Pc → Bool
  | .get => true
  | .check _ => true
  | .origin => true
  | .addTimer => true
  | .addEvent _ => true
  | _ => false

def registered : Pc → Bool
  | .YieldToHold _ => true
  | .hold _ => true
  | _ => false

-- the timer of the round, once it is set
def timer? : Pc → Option (Option Nat)
  | .addEvent timer => some timer
  | .YieldToHold timer => some timer
  | .hold timer => some timer
  | _ => none

theorem registered_eq_false {pc : Pc} (h : pc.unregistered = true) : pc.registered = false := by
  cases pc with
  | YieldToHold timer => cases h
  | hold timer => cases h
  | _ => rfl

theorem timer?_eq_none {pc : Pc} (hregistered : pc.registered = false)
    (hunregistered : pc.unregistered = false) : pc.timer? = none := by
  cases pc with
  | addEvent timer => cases hunregistered
  | YieldToHold timer => cases hregistered
  | hold timer => cases hregistered
  | _ => rfl

end Pc

def Collected.timeout? : Collected C → Option (Nat × Int × Event)
  | .ready (.timeout winfo fd event) => some (winfo, fd, event)
  | .ready (.other _) => none
  | .cancelling winfo fd event => some (winfo, fd, event)

theorem IOManager.Inv.of_scheduled {m : IOManager S F C} (h : m.Inv)
    (scheduled : List (Scheduled S F C)) : { m with scheduled := scheduled }.Inv :=
  ⟨h.fd, h.size, h.count, h.epoll, h.tickle, h.tickle_events, h.results⟩

namespace Hook

def Queued (fiber : F) (iom : IOManager S F C) : Prop :=
  ∃ x ∈ iom.scheduled, x.task = .fiber fiber

def Armed (timers : TimerManager (TimerCb C)) (a : Activation) (info : TimerInfo)
    (timer : Option Nat) : Prop :=
  ∃ t, timer = some t
    ∧ TimerManager.cbOf timers.heap t = some (.timeout info.addr a.fd a.fn.event)

def CallbackLeft (cbs : List (Collected C)) (a : Activation) (info : TimerInfo) : Prop :=
  ∃ x ∈ cbs, x.timeout? = some (info.addr, a.fd, a.fn.event)

def Cancelling (cbs : List (Collected C)) (a : Activation) (info : TimerInfo) : Prop :=
  .cancelling info.addr a.fd a.fn.event ∈ cbs

def Made (timers : TimerManager (TimerCb C)) (cbs : List (Collected C)) (winfo : Nat) (fd : Int)
    (event : Event) : Prop :=
  (∃ t, TimerManager.cbOf timers.heap t = some (.timeout winfo fd event))
    ∨ ∃ x ∈ cbs, x.timeout? = some (winfo, fd, event)

structure CallOk (fiber : F) (scheduler : S) (iom : IOManager S F C)
    (timers : TimerManager (TimerCb C)) (cbs : List (Collected C)) (a : Activation) : Prop where
  pending : a.pc.registered = true
    → iom.Pending a.fd.toNat a.fn.event scheduler (.fiber fiber) ∨ Queued fiber iom
  cancelled : ∀ info, a.tinfo = some info → info.cancelled ≠ 0
    → Cancelling cbs a info ∨ a.pc.registered = true ∧ Queued fiber iom
      ∨ a.pc.registered = false ∧ a.pc.unregistered = false
  timed : ∀ timer, a.pc.timer? = some timer → a.timeout ≠ forever
    → ∃ info, a.tinfo = some info
      ∧ (Armed timers a info timer ∨ CallbackLeft cbs a info
        ∨ a.pc.registered = true ∧ Queued fiber iom)

structure Inv (fiber : F) (scheduler : S) (s : Hook S F C) : Prop where
  iom : s.iom.Inv
  timers : TimerManager.Inv s.timers.heap s.timers.m_timers []
  made : ∀ winfo fd event, Made s.timers s.cbs winfo fd event → winfo < s.infos
  info : ∀ a info, s.call = some a → a.tinfo = some info → info.addr < s.infos
    ∧ ∀ fd event, Made s.timers s.cbs info.addr fd event → fd = a.fd ∧ event = a.fn.event
  call : ∀ a, s.call = some a → CallOk fiber scheduler s.iom s.timers s.cbs a

-- a timeout callback of the call that is under way comes to its `cancelEvent` after the `addEvent` of
-- the round, and where the fiber still waits, the kernel lets `cancelEvent` withdraw the event
def inTime (s : Hook S F C) : Act S F C → Bool
  | .cancelEvent place ctl =>
    match s.cbs[place]? with
    | some (.cancelling winfo _ _) =>
      (s.lock winfo).all fun (a, _) => !a.pc.unregistered && (!a.pc.registered || ctl)
    | _ => true
  | _ => true

section Parts

variable {fiber : F} {scheduler : S} {iom iom' : IOManager S F C}
  {timers timers' : TimerManager (TimerCb C)} {cbs cbs' : List (Collected C)} {a : Activation}

theorem Queued.mono (h : Queued fiber iom) (hsub : iom.scheduled ⊆ iom'.scheduled)
    : Queued fiber iom' := by
  obtain ⟨x, hx, htask⟩ := h
  exact ⟨x, hsub hx, htask⟩

theorem CallOk.of_iom (h : CallOk fiber scheduler iom timers cbs a)
    (hqueued : Queued fiber iom → Queued fiber iom')
    (hpending : iom.Pending a.fd.toNat a.fn.event scheduler (.fiber fiber)
      → iom'.Pending a.fd.toNat a.fn.event scheduler (.fiber fiber) ∨ Queued fiber iom')
    : CallOk fiber scheduler iom' timers cbs a where
  pending := by
    intro hpc
    rcases h.pending hpc with hp | hq
    . apply hpending hp
    . right
      apply hqueued hq
  cancelled := by
    intro info hinfo hcancelled
    rcases h.cancelled info hinfo hcancelled with hx | ⟨hpc, hq⟩ | hpc
    . exact .inl hx
    . exact .inr (.inl ⟨hpc, hqueued hq⟩)
    . exact .inr (.inr hpc)
  timed := by
    intro timer htimer htimeout
    obtain ⟨info, hinfo, hleft⟩ := h.timed timer htimer htimeout
    refine ⟨info, hinfo, ?_⟩
    rcases hleft with harmed | hx | ⟨hpc, hq⟩
    . exact .inl harmed
    . exact .inr (.inl hx)
    . exact .inr (.inr ⟨hpc, hqueued hq⟩)

theorem CallOk.of_call (h : CallOk fiber scheduler iom timers cbs a) (hinv : iom.Inv)
    {c : IOManager.Call S F C} {r : IOManager.Result} (hcall : iom.call c = .ok (iom', r))
    (hdel : ∀ fd e ctl, c ≠ .delEvent fd e ctl) : CallOk fiber scheduler iom' timers cbs a := by
  have heffect := IOManager.call_effect hinv hcall
  apply h.of_iom
  . intro hq
    apply hq.mono heffect.scheduled_subset
  . intro hp
    apply IOManager.pending_or_scheduled hinv heffect hdel hp

theorem CallOk.of_timers (h : CallOk fiber scheduler iom timers cbs a)
    (harmed : ∀ info timer, a.tinfo = some info → Armed timers a info timer
      → Armed timers' a info timer ∨ CallbackLeft cbs' a info)
    (hcbs : cbs ⊆ cbs') : CallOk fiber scheduler iom timers' cbs' a where
  pending := h.pending
  cancelled := by
    intro info hinfo hcancelled
    rcases h.cancelled info hinfo hcancelled with hx | hrest
    . exact .inl (hcbs hx)
    . exact .inr hrest
  timed := by
    intro timer htimer htimeout
    obtain ⟨info, hinfo, hleft⟩ := h.timed timer htimer htimeout
    refine ⟨info, hinfo, ?_⟩
    rcases hleft with ht | ⟨x, hx, heq⟩ | hq
    . rw [← or_assoc]
      left
      apply harmed info timer hinfo ht
    . exact .inr (.inl ⟨x, hcbs hx, heq⟩)
    . exact .inr (.inr hq)

theorem Cancelling.left {info : TimerInfo} (h : Cancelling cbs a info) : CallbackLeft cbs a info :=
  ⟨_, h, rfl⟩

theorem CallOk.of_cbs (h : CallOk fiber scheduler iom timers cbs a)
    (hcancelling : ∀ info, a.tinfo = some info → Cancelling cbs a info → Cancelling cbs' a info)
    (hleft : ∀ info, a.tinfo = some info → CallbackLeft cbs a info
      → CallbackLeft cbs' a info ∨ info.cancelled ≠ 0)
    : CallOk fiber scheduler iom timers cbs' a where
  pending := h.pending
  cancelled := by
    intro info hinfo hne
    rcases h.cancelled info hinfo hne with hx | hrest
    . exact .inl (hcancelling info hinfo hx)
    . exact .inr hrest
  timed := by
    intro timer htimer htimeout
    obtain ⟨info, hinfo, hcases⟩ := h.timed timer htimer htimeout
    refine ⟨info, hinfo, ?_⟩
    rcases hcases with harmed | hx | hq
    . exact .inl harmed
    . right
      rcases hleft info hinfo hx with hx' | hne
      . exact .inl hx'
      . rcases h.cancelled info hinfo hne with hx | hq | ⟨hregistered, hunregistered⟩
        . exact .inl (hcancelling info hinfo hx).left
        . exact .inr hq
        . rw [Pc.timer?_eq_none hregistered hunregistered] at htimer
          cases htimer
    . exact .inr (.inr hq)

theorem CallOk.of_queued (h : a.pc.unregistered = false)
    (hqueued : a.pc.registered = true → Queued fiber iom)
    (hinfo : a.pc.registered = true → ∃ info, a.tinfo = some info)
    : CallOk fiber scheduler iom timers cbs a := by
  cases hregistered : a.pc.registered with
  | true =>
    have hq := hqueued hregistered
    constructor
    . intro _
      right
      apply hq
    . intro _ _ _
      exact .inr (.inl ⟨hregistered, hq⟩)
    . intro timer _ _
      obtain ⟨info, htinfo⟩ := hinfo hregistered
      exact ⟨info, htinfo, .inr (.inr ⟨hregistered, hq⟩)⟩
  | false =>
    constructor
    . rw [hregistered]
      intro hcontra
      cases hcontra
    . intro _ _ _
      exact .inr (.inr ⟨hregistered, h⟩)
    . rw [Pc.timer?_eq_none hregistered h]
      intro timer hcontra
      cases hcontra

theorem CallOk.cancelling (h : CallOk fiber scheduler iom timers cbs a)
    (hpc : a.pc.unregistered = true) {info : TimerInfo} (hinfo : a.tinfo = some info)
    (hne : info.cancelled ≠ 0) : Cancelling cbs a info := by
  rcases h.cancelled info hinfo hne with hx | ⟨hregistered, -⟩ | ⟨-, hunregistered⟩
  . apply hx
  . rw [Pc.registered_eq_false hpc] at hregistered
    cases hregistered
  . rw [hpc] at hunregistered
    cases hunregistered

theorem CallOk.of_untimed (hpc : a.pc.unregistered = true)
    (htimer : a.pc.timer? = none ∨ a.timeout = forever)
    (hcancelled : ∀ info, a.tinfo = some info → info.cancelled ≠ 0 → Cancelling cbs a info)
    : CallOk fiber scheduler iom timers cbs a where
  pending := by
    rw [Pc.registered_eq_false hpc]
    intro hcontra
    cases hcontra
  cancelled := by
    intro info hinfo hne
    left
    apply hcancelled info hinfo hne
  timed := by
    intro timer heq hne
    rcases htimer with hnone | hforever
    . rw [hnone] at heq
      cases heq
    . exact absurd hforever hne

theorem CallOk.of_awake (hunregistered : a.pc.unregistered = false)
    (hregistered : a.pc.registered = false) : CallOk fiber scheduler iom timers cbs a := by
  apply CallOk.of_queued hunregistered
  . rw [hregistered]
    intro hcontra
    cases hcontra
  . rw [hregistered]
    intro hcontra
    cases hcontra

end Parts

theorem Made.of_spec {timers timers' : TimerManager (TimerCb C)} {cbs : List (Collected C)}
    {c : TimerManager.Call (TimerCb C)} {r : TimerManager.Result (TimerCb C)} {winfo : Nat} {fd : Int}
    {event : Event} (hspec : TimerManager.CallSpec timers c timers' r)
    (h : Made timers' cbs winfo fd event)
    : Made timers cbs winfo fd event
      ∨ ∃ addr ms recurring now, c = .addTimer addr ms (.timeout winfo fd event) recurring now := by
  rcases h with ⟨t, ht⟩ | hx
  . rcases hspec.cbOf ht with hold | hnew
    . exact .inl (.inl ⟨t, hold⟩)
    . exact .inr hnew
  . exact .inl (.inr hx)

theorem Made.of_foreign {timers timers' : TimerManager (TimerCb C)} {cbs : List (Collected C)}
    {c : TimerManager.Call (TimerCb C)} {r : TimerManager.Result (TimerCb C)} {winfo : Nat} {fd : Int}
    {event : Event} (hspec : TimerManager.CallSpec timers c timers' r)
    (hforeign : foreignTimers timers.heap c = true) (h : Made timers' cbs winfo fd event)
    : Made timers cbs winfo fd event := by
  rcases h.of_spec hspec with hold | ⟨addr, ms, recurring, now, rfl⟩
  . apply hold
  . cases hforeign

def Continues (a a' : Activation) : Prop :=
  a'.fd = a.fd ∧ a'.fn = a.fn ∧ a'.tinfo.map TimerInfo.addr = a.tinfo.map TimerInfo.addr

theorem Continues.refl (a : Activation) : Continues a a :=
  ⟨rfl, rfl, rfl⟩

section Step

variable {fiber : F} {scheduler : S} {s s' : Hook S F C}

theorem Inv.next (h : Inv fiber scheduler s) (hiom : s'.iom.Inv)
    (htimers : TimerManager.Inv s'.timers.heap s'.timers.m_timers [])
    (hmade : ∀ winfo fd event, Made s'.timers s'.cbs winfo fd event
      → Made s.timers s.cbs winfo fd event)
    (hinfos : s'.infos = s.infos)
    (hcall : ∀ a', s'.call = some a' → (∃ a, s.call = some a ∧ Continues a a')
      ∧ CallOk fiber scheduler s'.iom s'.timers s'.cbs a') : Inv fiber scheduler s' where
  iom := hiom
  timers := htimers
  made := by
    intro winfo fd event hm
    rw [hinfos]
    apply h.made winfo fd event
    apply hmade winfo fd event hm
  info := by
    intro a' info' ha' hinfo'
    obtain ⟨⟨a, ha, hfd, hfn, haddr⟩, -⟩ := hcall a' ha'
    rw [hinfo', Option.map_some, eq_comm, Option.map_eq_some_iff] at haddr
    obtain ⟨info, hinfo, haddr⟩ := haddr
    have hold := h.info a info ha hinfo
    rw [← haddr, hinfos, hfd, hfn]
    refine ⟨hold.1, ?_⟩
    intro fd event hm
    apply hold.2
    apply hmade _ _ _ hm
  call := fun a' ha' => (hcall a' ha').2

theorem Inv.of_iom (h : Inv fiber scheduler s) {c : IOManager.Call S F C} {r : IOManager.Result}
    {iom : IOManager S F C} (hcall : s.iom.call c = .ok (iom, r))
    (hdel : ∀ fd e ctl, c ≠ .delEvent fd e ctl) : Inv fiber scheduler { s with iom := iom } := by
  apply h.next
  . apply (IOManager.call_effect h.iom hcall).inv h.iom
  . apply h.timers
  . intro winfo fd event hm
    apply hm
  . rfl
  . intro a ha
    refine ⟨⟨a, ha, .refl a⟩, ?_⟩
    apply (h.call a ha).of_call h.iom hcall hdel

theorem mem_eraseIdx_of_ne {α : Type} {l : List α} {x : α} {i : Nat} (hx : x ∈ l)
    (hne : l[i]? ≠ some x) : x ∈ l.eraseIdx i := by
  rw [List.mem_eraseIdx_iff_getElem?]
  obtain ⟨j, hj⟩ := List.mem_iff_getElem?.mp hx
  refine ⟨j, ?_, hj⟩
  intro heq
  rw [heq] at hj
  exact hne hj

theorem Inv.take [DecidableEq F] (h : Inv fiber scheduler s) {place : Nat}
    (hplace : (s.iom.scheduled[place]?).any (fun x => !isFiber fiber x.task) = true)
    : Inv fiber scheduler
        { s with iom := { s.iom with scheduled := s.iom.scheduled.eraseIdx place } } := by
  have hqueued : Queued fiber s.iom
      → Queued fiber { s.iom with scheduled := s.iom.scheduled.eraseIdx place } := by
    intro hq
    obtain ⟨x, hx, htask⟩ := hq
    refine ⟨x, ?_, htask⟩
    apply mem_eraseIdx_of_ne hx
    intro heq
    rw [heq] at hplace
    simp [htask, isFiber] at hplace
  apply h.next
  . apply h.iom.of_scheduled
  . apply h.timers
  . intro winfo fd event hm
    apply hm
  . rfl
  . intro a ha
    refine ⟨⟨a, ha, .refl a⟩, ?_⟩
    apply (h.call a ha).of_iom hqueued
    intro hp
    left
    apply hp

theorem Inv.of_timers (h : Inv fiber scheduler s) {c : TimerManager.Call (TimerCb C)}
    {r : TimerManager.Result (TimerCb C)} {timers : TimerManager (TimerCb C)}
    (hcall : s.timers.callLocked c = some (.ok (timers, r)))
    (hforeign : foreignTimers s.timers.heap c = true)
    : Inv fiber scheduler { s with timers := timers } := by
  have hspec := TimerManager.callLocked_spec h.timers hcall
  apply h.next
  . apply h.iom
  . apply hspec.inv
  . intro winfo fd event hm
    apply hm.of_foreign hspec hforeign
  . rfl
  . intro a ha
    refine ⟨⟨a, ha, .refl a⟩, ?_⟩
    apply (h.call a ha).of_timers
    . intro info timer _ harmed
      left
      obtain ⟨t, ht, hcb⟩ := harmed
      exact ⟨t, ht, cbOf_foreign hforeign hcall hcb⟩
    . apply List.Subset.refl

theorem Inv.collect (h : Inv fiber scheduler s) {now addr : Nat}
    {timers : TimerManager (TimerCb C)} {ts : List Nat} {cbs : List (Option (TimerCb C))}
    (htake : s.timers.takeExpired now addr = .ok (timers, ts, cbs))
    : Inv fiber scheduler
        { s with timers := timers, cbs := s.cbs ++ cbs.filterMap (·.map .ready) } := by
  have hspec := TimerManager.takeExpired_spec h.timers htake
  apply h.next
  . apply h.iom
  . apply hspec.inv
  . intro winfo fd event hm
    rcases hm with ⟨t, ht⟩ | ⟨x, hx, heq⟩
    . rcases hspec.cbOf ht with hold | ⟨_, _, _, _, hnew⟩
      . exact .inl ⟨t, hold⟩
      . cases hnew
    . rw [List.mem_append] at hx
      rcases hx with hx | hx
      . exact .inr ⟨x, hx, heq⟩
      . left
        rw [List.mem_filterMap] at hx
        obtain ⟨o, ho, hox⟩ := hx
        rw [Option.map_eq_some_iff] at hox
        obtain ⟨cb, rfl, rfl⟩ := hox
        obtain ⟨t, ht⟩ := TimerManager.cbOf_of_collected h.timers htake ho
        refine ⟨t, ?_⟩
        cases cb with
        | timeout winfo' fd' event' =>
          cases heq
          apply ht
        | other cb => cases heq
  . rfl
  . intro a ha
    refine ⟨⟨a, ha, .refl a⟩, ?_⟩
    apply (h.call a ha).of_timers
    . intro info timer _ harmed
      obtain ⟨t, ht, hcb⟩ := harmed
      rcases TimerManager.cbOf_takeExpired h.timers htake hcb with hkeep | hmem
      . exact .inl ⟨t, ht, hkeep⟩
      . right
        refine ⟨.ready (.timeout info.addr a.fd a.fn.event), ?_, rfl⟩
        apply List.mem_append_right
        rw [List.mem_filterMap]
        exact ⟨_, hmem, rfl⟩
    . apply List.subset_append_left

theorem Made.of_eraseIdx {timers : TimerManager (TimerCb C)} {cbs : List (Collected C)}
    {place winfo : Nat} {fd : Int} {event : Event}
    (h : Made timers (cbs.eraseIdx place) winfo fd event) : Made timers cbs winfo fd event := by
  rcases h with ht | ⟨x, hx, heq⟩
  . exact .inl ht
  . exact .inr ⟨x, List.mem_of_mem_eraseIdx hx, heq⟩

theorem Inv.dropCb (h : Inv fiber scheduler s) {place : Nat} {x : Collected C}
    (hplace : s.cbs[place]? = some x)
    (hx : ∀ a info, s.call = some a → a.tinfo = some info
      → x ≠ .cancelling info.addr a.fd a.fn.event
        ∧ (x.timeout? = some (info.addr, a.fd, a.fn.event) → info.cancelled ≠ 0))
    : Inv fiber scheduler { s with cbs := s.cbs.eraseIdx place } := by
  apply h.next
  . apply h.iom
  . apply h.timers
  . intro winfo fd event hm
    apply hm.of_eraseIdx
  . rfl
  . intro a ha
    refine ⟨⟨a, ha, .refl a⟩, ?_⟩
    apply (h.call a ha).of_cbs
    . intro info hinfo hcancelling
      apply mem_eraseIdx_of_ne hcancelling
      rw [hplace]
      intro heq
      injection heq with heq
      exact (hx a info ha hinfo).1 heq
    . intro info hinfo hleft
      obtain ⟨y, hy, htimeout⟩ := hleft
      by_cases hxy : x = y
      . right
        apply (hx a info ha hinfo).2
        rw [hxy, htimeout]
      . left
        refine ⟨y, ?_, htimeout⟩
        apply mem_eraseIdx_of_ne hy
        rw [hplace]
        intro heq
        injection heq with heq
        exact hxy heq

theorem Inv.timeOut (h : Inv fiber scheduler s) {place winfo : Nat} {fd : Int} {event : Event}
    {a : Activation} {info : TimerInfo}
    (hplace : s.cbs[place]? = some (.ready (.timeout winfo fd event)))
    (hlock : s.lock winfo = some (a, info))
    : Inv fiber scheduler
        { s with
          cbs := s.cbs.set place (.cancelling winfo fd event)
          call := some { a with tinfo := some { info with cancelled := ETIMEDOUT } }
        } := by
  obtain ⟨hcall, hinfo, haddr⟩ := lock_eq_some hlock
  have hlt := (List.getElem?_eq_some_iff.mp hplace).1
  have hown : fd = a.fd ∧ event = a.fn.event := by
    apply (h.info a info hcall hinfo).2
    right
    rw [haddr]
    exact ⟨_, List.mem_of_getElem? hplace, rfl⟩
  have hmem : .cancelling info.addr a.fd a.fn.event
      ∈ s.cbs.set place (.cancelling winfo fd event) := by
    rw [haddr, ← hown.1, ← hown.2]
    apply List.mem_set hlt
  have hok := h.call a hcall
  apply h.next
  . apply h.iom
  . apply h.timers
  . intro winfo' fd' event' hm
    rcases hm with ht | ⟨x, hx, heq⟩
    . exact .inl ht
    . right
      rcases List.mem_or_eq_of_mem_set hx with hx | rfl
      . exact ⟨x, hx, heq⟩
      . exact ⟨_, List.mem_of_getElem? hplace, heq⟩
  . rfl
  . intro a' ha'
    injection ha' with ha'
    subst ha'
    refine ⟨⟨a, hcall, rfl, rfl, ?_⟩, ?_⟩
    . rw [hinfo]
      rfl
    . constructor
      . apply hok.pending
      . intro info' hinfo' _
        injection hinfo' with hinfo'
        subst hinfo'
        exact .inl hmem
      . intro timer _ _
        exact ⟨_, rfl, .inr (.inl ⟨_, hmem, rfl⟩)⟩

theorem Inv.dropReady (h : Inv fiber scheduler s) {place : Nat} {cb : TimerCb C}
    (hplace : s.cbs[place]? = some (.ready cb))
    (hcb : ∀ winfo fd event a info, cb = .timeout winfo fd event → s.lock winfo = some (a, info)
      → info.cancelled ≠ 0)
    : Inv fiber scheduler { s with cbs := s.cbs.eraseIdx place } := by
  apply h.dropCb hplace
  intro a info hcall hinfo
  refine ⟨by simp, ?_⟩
  intro htimeout
  cases cb with
  | timeout winfo fd event =>
    cases htimeout
    apply hcb _ _ _ a info rfl
    apply lock_of_info hcall hinfo
  | other cb => cases htimeout

theorem of_inTime {place winfo : Nat} {ctl : Bool} {fd : Int} {event : Event} {a : Activation}
    {info : TimerInfo} (h : s.inTime (.cancelEvent place ctl) = true)
    (hplace : s.cbs[place]? = some (.cancelling winfo fd event))
    (hlock : s.lock winfo = some (a, info))
    : a.pc.unregistered = false ∧ (a.pc.registered = true → ctl = true) := by
  unfold inTime at h
  dsimp only at h
  rw [hplace] at h
  simp only [hlock, Option.all_some, Bool.and_eq_true, Bool.not_eq_true', Bool.or_eq_true] at h
  refine ⟨h.1, ?_⟩
  intro hregistered
  apply h.2.resolve_left
  rw [hregistered]
  simp

theorem Inv.cancelEvent (h : Inv fiber scheduler s) {place winfo : Nat} {ctl : Bool} {fd : Int}
    {event : Event} {iom : IOManager S F C} {r : IOManager.Result}
    (hcond : s.inTime (.cancelEvent place ctl) = true)
    (hplace : s.cbs[place]? = some (.cancelling winfo fd event))
    (hcall : s.iom.call (.cancelEvent fd event ctl) = .ok (iom, r))
    : Inv fiber scheduler { s with cbs := s.cbs.eraseIdx place, iom := iom } := by
  have heffect := IOManager.call_effect h.iom hcall
  cases hlock : s.lock winfo with
  | none =>
    have hdrop : Inv fiber scheduler { s with cbs := s.cbs.eraseIdx place } := by
      apply h.dropCb hplace
      intro a info ha hinfo
      have hne : winfo ≠ info.addr := by
        intro heq
        rw [heq, lock_of_info ha hinfo] at hlock
        cases hlock
      refine ⟨by simp [hne], ?_⟩
      intro heq
      injection heq with heq
      injection heq with heq
      exact absurd heq hne
    apply hdrop.of_iom hcall
    simp
  | some p =>
    obtain ⟨a, info⟩ := p
    obtain ⟨ha, hinfo, haddr⟩ := lock_eq_some hlock
    obtain ⟨hunregistered, hctl⟩ := of_inTime hcond hplace hlock
    have hown : fd = a.fd ∧ event = a.fn.event := by
      apply (h.info a info ha hinfo).2
      right
      rw [haddr]
      exact ⟨_, List.mem_of_getElem? hplace, rfl⟩
    apply h.next
    . apply heffect.inv h.iom
    . apply h.timers
    . intro winfo' fd' event' hm
      apply hm.of_eraseIdx
    . rfl
    . intro a' ha'
      have heq : a = a' := by
        rw [ha] at ha'
        injection ha'
      subst heq
      refine ⟨⟨a, ha, .refl a⟩, ?_⟩
      apply CallOk.of_queued hunregistered
      . intro hregistered
        rw [hctl hregistered, hown.1, hown.2] at hcall
        rcases (h.call a ha).pending hregistered with hp | hq
        . apply IOManager.cancelEvent_scheduled h.iom hcall hp
        . apply hq.mono heffect.scheduled_subset
      . intro _
        exact ⟨info, hinfo⟩

theorem walk_callOk {iom : IOManager S F C} {timers : TimerManager (TimerCb C)}
    {cbs : List (Collected C)} {a : Activation} {pc : Pc}
    (h : CallOk fiber scheduler iom timers cbs a) (hwalks : Walks a pc)
    : CallOk fiber scheduler iom timers cbs { a with pc := pc } := by
  cases hwalks with
  | found hpc =>
    apply CallOk.of_untimed rfl (.inl rfl)
    intro info hinfo hne
    apply h.cancelling (by rw [hpc]; rfl) hinfo hne
  | direct hpc => apply CallOk.of_awake rfl rfl
  | interrupted hpc =>
    apply CallOk.of_untimed rfl (.inl rfl)
    intro info hinfo hne
    apply h.cancelling (by rw [hpc]; rfl) hinfo hne
  | blocked hpc =>
    apply CallOk.of_untimed rfl (.inl rfl)
    intro info hinfo hne
    apply h.cancelling (by rw [hpc]; rfl) hinfo hne
  | untimed hpc htimeout =>
    apply CallOk.of_untimed
    . rfl
    . right
      apply htimeout
    . intro info hinfo hne
      apply h.cancelling (by rw [hpc]; rfl) hinfo hne
  | hold hpc =>
    constructor
    . intro _
      apply h.pending
      rw [hpc]
      rfl
    . have hcancelled := h.cancelled
      rw [hpc] at hcancelled
      apply hcancelled
    . have htimed := h.timed
      rw [hpc] at htimed
      apply htimed
  | retry hpc hinfo hcancelled =>
    apply CallOk.of_untimed rfl (.inl rfl)
    intro info' hinfo' hne
    have heq := hinfo.symm.trans hinfo'
    injection heq with heq
    rw [← heq] at hne
    exact absurd hcancelled hne
  | connected hpc hinfo hcancelled hfn => apply CallOk.of_awake rfl rfl

theorem Inv.inform (h : Inv fiber scheduler s) {a : Activation} {timeout : Nat} {pc : Pc}
    (hunregistered : pc.unregistered = true) (htimer : pc.timer? = none)
    : Inv fiber scheduler
        { s with
          infos := s.infos + 1
          call := some { a with timeout := timeout, tinfo := some ⟨s.infos, 0⟩, pc := pc }
        } where
  iom := h.iom
  timers := h.timers
  made := by
    intro winfo fd event hm
    have := h.made winfo fd event hm
    dsimp only
    omega
  info := by
    intro a' info ha' hinfo
    cases ha'
    cases hinfo
    refine ⟨Nat.lt_succ_self _, ?_⟩
    intro fd event hm
    have := h.made _ _ _ hm
    dsimp only at this
    omega
  call := by
    intro a' ha'
    cases ha'
    apply CallOk.of_untimed hunregistered (.inl htimer)
    intro info hinfo hne
    cases hinfo
    exact absurd rfl hne

theorem Inv.addTimer (h : Inv fiber scheduler s) {a : Activation} {info : TimerInfo}
    {timers : TimerManager (TimerCb C)} {addr now t : Nat} {n : Bool} (hcall : s.call = some a)
    (hpc : a.pc = .addTimer) (hinfo : a.tinfo = some info)
    (hadd : s.timers.callLocked
        (.addTimer addr a.timeout (.timeout info.addr a.fd a.fn.event) false now)
      = some (.ok (timers, .timer t n)))
    : Inv fiber scheduler
        { s with timers := timers, call := some { a with pc := .addEvent (some t) } } := by
  have hspec := TimerManager.callLocked_spec h.timers hadd
  have hold := h.info a info hcall hinfo
  constructor
  . apply h.iom
  . apply hspec.inv
  . intro winfo fd event hm
    rcases hm.of_spec hspec with hm | ⟨_, _, _, _, heq⟩
    . apply h.made winfo fd event hm
    . cases heq
      apply hold.1
  . intro a' info' ha' hinfo'
    cases ha'
    have heq := hinfo.symm.trans hinfo'
    cases heq
    refine ⟨hold.1, ?_⟩
    intro fd event hm
    rcases hm.of_spec hspec with hm | ⟨_, _, _, _, heq⟩
    . apply hold.2 fd event hm
    . cases heq
      exact ⟨rfl, rfl⟩
  . intro a' ha'
    cases ha'
    constructor
    . intro hcontra
      cases hcontra
    . intro info' hinfo' hne
      left
      apply (h.call a hcall).cancelling (by rw [hpc]; rfl) hinfo' hne
    . intro timer heq _
      cases heq
      obtain ⟨t', n', ht, hcb⟩ := TimerManager.cbOf_addTimer hadd
      cases ht
      exact ⟨info, hinfo, .inl ⟨t, rfl, hcb⟩⟩

theorem addEvent_callOk {iom iom' : IOManager S F C} {timers : TimerManager (TimerCb C)}
    {cbs : List (Collected C)} {a : Activation} {timer : Option Nat}
    {garbage : Nat → Event → Option S} {ctl : Bool}
    (h : CallOk fiber scheduler iom timers cbs a) (hinv : iom.Inv) (hpc : a.pc = .addEvent timer)
    (hcall : iom.call (.addEvent ⟨some scheduler, fiber, true⟩ a.fd a.fn.event none garbage ctl)
      = .ok (iom', .int 0))
    : CallOk fiber scheduler iom' timers cbs { a with pc := .YieldToHold timer } where
  pending := by
    intro _
    left
    apply (IOManager.addEvent_pending hinv hcall rfl).1
  cancelled := by
    intro info hinfo hne
    left
    apply h.cancelling (by rw [hpc]; rfl) hinfo hne
  timed := by
    intro timer' heq htimeout
    have htimed := h.timed
    rw [hpc] at htimed
    obtain ⟨info, hinfo, hcases⟩ := htimed timer' heq htimeout
    refine ⟨info, hinfo, ?_⟩
    rcases hcases with harmed | hleft | ⟨hcontra, -⟩
    . exact .inl harmed
    . exact .inr (.inl hleft)
    . cases hcontra

theorem Cancels.spec {timers timers' : TimerManager (TimerCb C)} {timer : Option Nat}
    (hinv : TimerManager.Inv timers.heap timers.m_timers []) (h : Cancels timers timer timers')
    : TimerManager.Inv timers'.heap timers'.m_timers []
      ∧ ∀ cbs winfo fd event, Made timers' cbs winfo fd event → Made timers cbs winfo fd event := by
  cases timer with
  | none =>
    unfold Cancels at h
    rw [h]
    exact ⟨hinv, fun _ _ _ _ hm => hm⟩
  | some t =>
    obtain ⟨r, hcall⟩ := h
    have hspec := TimerManager.callLocked_spec hinv hcall
    refine ⟨hspec.inv, ?_⟩
    intro cbs winfo fd event hm
    rcases hm.of_spec hspec with hm | ⟨_, _, _, _, heq⟩
    . apply hm
    . cases heq

theorem Inv.goOn (h : Inv fiber scheduler s) {iom : IOManager S F C}
    {timers : TimerManager (TimerCb C)} {a : Activation} {timeout errno : Nat} {pc : Pc}
    (hcall : s.call = some a) (hiom : iom.Inv)
    (htimers : TimerManager.Inv timers.heap timers.m_timers [])
    (hmade : ∀ winfo fd event, Made timers s.cbs winfo fd event
      → Made s.timers s.cbs winfo fd event)
    (hok : CallOk fiber scheduler iom timers s.cbs { a with timeout := timeout, pc := pc })
    : Inv fiber scheduler
        { s with
          iom := iom
          timers := timers
          call := some { a with timeout := timeout, pc := pc }
          errno := errno
        } := by
  apply h.next
  . apply hiom
  . apply htimers
  . apply hmade
  . rfl
  . intro a' ha'
    cases ha'
    exact ⟨⟨a, hcall, rfl, rfl, rfl⟩, hok⟩

theorem Inv.leave (h : Inv fiber scheduler s) {timers : TimerManager (TimerCb C)} {errno : Nat}
    (htimers : TimerManager.Inv timers.heap timers.m_timers [])
    (hmade : ∀ winfo fd event, Made timers s.cbs winfo fd event
      → Made s.timers s.cbs winfo fd event)
    : Inv fiber scheduler { s with timers := timers, call := none, errno := errno } := by
  apply h.next
  . apply h.iom
  . apply htimers
  . apply hmade
  . rfl
  . intro a ha
    cases ha

theorem Inv.moves (h : Inv fiber scheduler s) {a : Activation} {out : Option Int}
    (hcall : s.call = some a) (hmoves : Moves fiber scheduler s a s' out)
    : Inv fiber scheduler s' := by
  have hok := h.call a hcall
  have hsame : ∀ winfo fd event, Made s.timers s.cbs winfo fd event
      → Made s.timers s.cbs winfo fd event := fun _ _ _ hm => hm
  cases hmoves with
  | walk hwalks =>
    apply h.goOn hcall h.iom h.timers hsame
    apply walk_callOk hok hwalks
  | inform hpc =>
    rcases hpc with ⟨-, rfl⟩ | ⟨-, rfl⟩
    . apply h.inform rfl rfl
    . apply h.inform rfl rfl
  | connect hpc =>
    apply h.goOn hcall h.iom h.timers hsame
    apply CallOk.of_untimed rfl (.inl rfl)
    intro info hinfo hne
    apply hok.cancelling (by rw [hpc]; rfl) hinfo hne
  | addTimer hpc hinfo hadd => apply h.addTimer hcall hpc hinfo hadd
  | addEvent hpc hadd =>
    apply h.goOn hcall ((IOManager.call_effect h.iom hadd).inv h.iom) h.timers hsame
    apply addEvent_callOk hok h.iom hpc hadd
  | refused hpc hadd =>
    apply h.goOn hcall ((IOManager.call_effect h.iom hadd).inv h.iom) h.timers hsame
    apply CallOk.of_awake rfl rfl
  | resume hpc =>
    apply h.goOn hcall (h.iom.of_scheduled _) h.timers hsame
    apply CallOk.of_awake rfl rfl
  | cancel hpc hcancels =>
    obtain ⟨htimers, hmade⟩ := hcancels.spec h.timers
    apply h.goOn hcall h.iom htimers (hmade _)
    rcases hpc with ⟨-, rfl⟩ | ⟨-, -, rfl⟩
    . apply CallOk.of_awake rfl rfl
    . apply CallOk.of_awake rfl rfl
  | giveUp hpc hcancels =>
    obtain ⟨htimers, hmade⟩ := hcancels.spec h.timers
    apply h.leave htimers (hmade _)
  | leave hleaves => apply h.leave h.timers hsame

theorem Inv.enter (h : Inv fiber scheduler s) (fn : HookFun) (fd : Int) (t_hook_enable : Bool)
    : Inv fiber scheduler (s.enter fn fd t_hook_enable) where
  iom := h.iom
  timers := h.timers
  made := h.made
  info := by
    intro a info ha hinfo
    cases ha
    cases hinfo
  call := by
    intro a ha
    cases ha
    cases t_hook_enable with
    | true =>
      apply CallOk.of_untimed rfl (.inl rfl)
      intro info hinfo _
      cases hinfo
    | false => apply CallOk.of_awake rfl rfl

theorem Inv.peer (h : Inv fiber scheduler s) {peer : Peer} {step : PeerStep}
    (hmoves : PeerMoves s peer step s') : Inv fiber scheduler s' := by
  cases hmoves with
  | aside => exact ⟨h.iom, h.timers, h.made, h.info, h.call⟩
  | cancelAll hcall =>
    have h' := h.of_iom hcall (by simp)
    exact ⟨h'.iom, h'.timers, h'.made, h'.info, h'.call⟩
  | close_f => exact ⟨h.iom, h.timers, h.made, h.info, h.call⟩
  | «open» => exact ⟨h.iom, h.timers, h.made, h.info, h.call⟩

theorem Init.inv (h : s.Init) : Inv fiber scheduler s where
  iom := by
    obtain ⟨tickleFd, garbage, heq⟩ := h.iom
    rw [heq]
    apply IOManager.inv_new
  timers := by
    obtain ⟨now, heq⟩ := h.timers
    rw [heq]
    apply TimerManager.inv_nil
  made := by
    intro winfo fd event hm
    obtain ⟨now, heq⟩ := h.timers
    rw [heq, h.cbs] at hm
    rcases hm with ⟨t, ht⟩ | ⟨x, hx, -⟩
    . cases ht
    . cases hx
  info := by
    rw [h.call]
    intro a info ha
    cases ha
  call := by
    rw [h.call]
    intro a ha
    cases ha

section Run

variable [DecidableEq F]

theorem Inv.step (h : Inv fiber scheduler s) {act : Act S F C} {out : Option Int}
    (hcond : s.inTime act = true) (hsteps : Steps fiber scheduler s act out s')
    : Inv fiber scheduler s' := by
  cases hsteps with
  | enter => apply h.enter
  | fiber hcall hnext => apply h.moves hcall (fiberNext_moves hnext)
  | collect htake => apply h.collect htake
  | dropCb hplace hcb => apply h.dropReady hplace hcb
  | timeOut hplace hlock => apply h.timeOut hplace hlock
  | cancelEvent hplace hcall => apply h.cancelEvent hcond hplace hcall
  | timers hforeign hcall => apply h.of_timers hcall hforeign
  | iom hforeign hcall =>
    apply h.of_iom hcall
    rintro fd e ctl rfl
    cases hforeign
  | take hplace => apply h.take hplace
  | peer hmoves => apply h.peer hmoves

theorem run_hold_timed {ls : List (Act S F C × Option Int)} (hinit : s.Init)
    (hrun : ((lts fiber scheduler C).restrict fun s l => s.inTime l.1 = true).Run s ls s')
    {a : Activation} {timer : Option Nat} (hcall : s'.call = some a) (hpc : a.pc = .hold timer)
    (htimeout : a.timeout ≠ forever)
    : ∃ info, a.tinfo = some info
      ∧ ((∃ t, timer = some t ∧ t ∈ s'.timers.m_timers
            ∧ TimerManager.cbOf s'.timers.heap t = some (.timeout info.addr a.fd a.fn.event))
        ∨ (∃ x ∈ s'.cbs, x.timeout? = some (info.addr, a.fd, a.fn.event))
        ∨ ∃ x ∈ s'.iom.scheduled, x.task = .fiber fiber) := by
  have hinv : Inv fiber scheduler s' := by
    apply hrun.invariant _ hinit.inv
    intro s l t h hstep
    apply h.step hstep.1 (step_steps hstep.2)
  have htimed := (hinv.call a hcall).timed timer (by rw [hpc]; rfl) htimeout
  obtain ⟨info, hinfo, hcases⟩ := htimed
  refine ⟨info, hinfo, ?_⟩
  rcases hcases with ⟨t, ht, hcb⟩ | hleft | ⟨-, hq⟩
  . exact .inl ⟨t, ht, TimerManager.mem_of_cbOf hinv.timers hcb, hcb⟩
  . exact .inr (.inl hleft)
  . exact .inr (.inr hq)

end Run

end Step

def readBlocks : List (Act Unit Nat Nat × Option Int) :=
  [
    (.peer 0 (.open 5 true true), none),
    (.peer 0 .get, none),
    (.peer 0 .create, none),
    (.peer 0 (.setTimeout 0 .SO_RCVTIMEO 10), none),
    (.fiber (.enter (.do_io .READ .SO_RCVTIMEO) 5 true), none),
    (.fiber .get, none),
    (.fiber .check, none),
    (.fiber (.origin (-1) EAGAIN), none),
    (.fiber (.addTimer 1 100), none)
  ]

def registers : List (Act Unit Nat Nat × Option Int) :=
  [(.fiber (.addEvent (fun _ _ => none) true 0), none), (.fiber .YieldToHold, none)]

def timesOut : List (Act Unit Nat Nat × Option Int) :=
  [(.collect 110 2, none), (.runCb 0, none), (.cancelEvent 0 true, none)]

theorem run_hold_timed_woken
    : ∃ s' : Hook Unit Nat Nat,
        ((lts 7 () Nat).restrict fun s l => s.inTime l.1 = true).Run
            (start 4 0 (fun _ _ => none)) (readBlocks ++ registers ++ timesOut) s'
          ∧ s'.timers.m_timers = [] ∧ s'.cbs = [] ∧ ∃ x ∈ s'.iom.scheduled, x.task = .fiber 7 := by
  have hreplay : (LTS.replayIf (step 7 ()) inTime (start 4 0 (fun _ _ => none))
      (readBlocks ++ registers ++ timesOut)).any (fun s =>
        s.timers.m_timers.isEmpty && s.cbs.isEmpty
          && s.call.any (fun a => a.pc == .hold (some 0) && a.timeout != forever)) = true := by
    decide +kernel
  rw [Option.any_eq_true] at hreplay
  obtain ⟨s', hs', hprop⟩ := hreplay
  have hrun := LTS.run_of_replayIf hs'
  simp only [Bool.and_eq_true, List.isEmpty_iff, Option.any_eq_true, beq_iff_eq, bne_iff_ne] at hprop
  obtain ⟨⟨htimers, hcbs⟩, a, hcall, hpc, htimeout⟩ := hprop
  refine ⟨s', hrun, htimers, hcbs, ?_⟩
  obtain ⟨info, -, hleft⟩ := run_hold_timed (start_init 4 0 _) hrun hcall hpc htimeout
  rw [htimers, hcbs] at hleft
  simpa using hleft

-- the callback runs before `addEvent`, and then nothing is left that would wake the fiber
theorem hold_untimed
    : ∃ (s s' : Hook Unit Nat Nat) (a : Activation), s.Init
        ∧ (lts 7 () Nat).Run s (readBlocks ++ timesOut ++ registers) s'
        ∧ s'.call = some a ∧ a.pc = .hold (some 0) ∧ a.timeout ≠ forever
        ∧ s'.timers.m_timers = [] ∧ s'.cbs = [] ∧ s'.iom.scheduled = [] := by
  have hreplay : (LTS.replay (step 7 ()) (start 4 0 (fun _ _ => none))
      (readBlocks ++ timesOut ++ registers)).any (fun s =>
        s.timers.m_timers.isEmpty && s.cbs.isEmpty && s.iom.scheduled.isEmpty
          && s.call.any (fun a => a.pc == .hold (some 0) && a.timeout != forever)) = true := by
    decide +kernel
  rw [Option.any_eq_true] at hreplay
  obtain ⟨s', hs', hprop⟩ := hreplay
  simp only [Bool.and_eq_true, List.isEmpty_iff, Option.any_eq_true, beq_iff_eq, bne_iff_ne] at hprop
  obtain ⟨⟨⟨htimers, hcbs⟩, hscheduled⟩, a, hcall, hpc, htimeout⟩ := hprop
  exact ⟨_, s', a, start_init 4 0 _, LTS.run_of_replay hs', hcall, hpc, htimeout, htimers, hcbs,
    hscheduled⟩

end Hook
end CXS
