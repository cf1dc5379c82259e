import CXS.Util.LTS

/-!
This module contains the start and the end of a `Thread` of `code/thread.cc`: the constructor, `join`
and the destructor on one side, `Thread::run` on the other side, and the semaphore between them. It is
proved what the constructor promises to its caller, that the function is called once, and that the new
thread does not access an object that is gone.
-/

namespace CXS

-- where the thread is that has the `Thread` object
inductive OwnerPc where
  | before
  | waiting
  | constructed
  | joining
  | destroyed
  | thrown
  deriving DecidableEq, Repr

-- which lines of `Thread::run` are done
inductive RunPc where
  | absent
  | start
  | named
  | identified
  | titled
  | swapped
  | notified
  | calling
  | finished
  deriving DecidableEq, Repr

def RunPc.line : RunPc → Nat
  | .absent => 0
  | .start => 1
  | .named => 2
  | .identified => 3
  | .titled => 4
  | .swapped => 5
  | .notified => 6
  | .calling => 7
  | .finished => 8

structure ThreadStart (β : Type) where
  m_id : Int
  m_thread : Bool
  m_cb : Option β
  m_name : List UInt8
  m_semaphore : Nat
  t_thread : Bool
  t_thread_name : List UInt8
  kernel_name : List UInt8
  cb : Option β
  called : List β
  owner : OwnerPc
  run : RunPc
  freed : Bool
  fault : Bool
  deriving Repr

namespace ThreadStart

variable {β : Type}

inductive Event where
  | create
  | createFails
  | wait
  | waitFails
  | join
  | joined
  | destroy
  | detach
  | runName
  | runId
  | runTitle
  | runSwap
  | runNotify
  | runCall
  | setName (name : List UInt8)
  | runReturn
  deriving DecidableEq, Repr

def UNKNOW : List UInt8 :=
  ['U', 'N', 'K', 'N', 'O', 'W'].map Char.toUInt8

def nameOf (name : List UInt8) : List UInt8 :=
  if name.isEmpty then UNKNOW else name

def start (cb : β) (name : List UInt8) : ThreadStart β where
  m_id := -1
  m_thread := false
  m_cb := some cb
  m_name := nameOf name
  m_semaphore := 0
  t_thread := false
  t_thread_name := UNKNOW
  kernel_name := []
  cb := none
  called := []
  owner := .before
  run := .absent
  freed := false
  fault := false

def access (s : ThreadStart β) : ThreadStart β :=
  { s with fault := s.fault || s.freed }

def enabled (s : ThreadStart β) : Event → Prop
  | .create => s.owner = .before
  | .createFails => s.owner = .before
  | .wait => s.owner = .waiting ∧ 0 < s.m_semaphore
  | .waitFails => s.owner = .waiting
  | .join => s.owner = .constructed ∧ s.m_thread = true
  | .joined => s.owner = .joining ∧ s.run = .finished
  | .destroy => s.owner = .constructed ∧ s.m_thread = false
  | .detach => s.owner = .constructed ∧ s.m_thread = true
  | .runName => s.run = .start
  | .runId => s.run = .named
  | .runTitle => s.run = .identified
  | .runSwap => s.run = .titled
  | .runNotify => s.run = .swapped
  | .runCall => s.run = .notified
  | .setName _ => s.run = .calling
  | .runReturn => s.run = .calling

def next (tid : Int) (s : ThreadStart β) : Event → ThreadStart β
  | .create => { s with owner := .waiting, run := .start, m_thread := true }
  | .createFails => { s with owner := .thrown }
  | .wait => { s with owner := .constructed, m_semaphore := s.m_semaphore - 1 }
  | .waitFails => { s with owner := .thrown, freed := true }
  | .join => { s with owner := .joining }
  | .joined => { s with owner := .constructed, m_thread := false }
  | .destroy => { s with owner := .destroyed, freed := true }
  | .detach => { s with owner := .destroyed, freed := true }
  | .runName => { s.access with run := .named, t_thread := true, t_thread_name := s.m_name }
  | .runId => { s.access with run := .identified, m_id := tid }
  | .runTitle => { s.access with run := .titled, kernel_name := s.m_name.take 15 }
  | .runSwap => { s.access with run := .swapped, cb := s.m_cb, m_cb := none }
  | .runNotify => { s.access with run := .notified, m_semaphore := s.m_semaphore + 1 }
  | .runCall => { s with run := .calling, called := s.called ++ s.cb.toList }
  | .setName name =>
    if s.t_thread then { s.access with m_name := name, t_thread_name := name }
    else { s with t_thread_name := name }
  | .runReturn => { s with run := .finished }

def lts (tid : Int) : LTS (ThreadStart β) Event where
  step s e s' := s.enabled e ∧ s' = next tid s e

variable {s : ThreadStart β} {e : Event} {tid : Int} {f : β} {name : List UInt8}

section Sync

inductive Sync (s : ThreadStart β) : Prop where
  | absent (hrun : s.run = .absent) (howner : s.owner = .before ∨ s.owner = .thrown)
    (hsem : s.m_semaphore = 0) (hfreed : s.freed = false)
  | early (hpos : 0 < s.run.line) (hline : s.run.line < 6) (howner : s.owner = .waiting)
    (hsem : s.m_semaphore = 0) (hthread : s.m_thread = true) (hfreed : s.freed = false)
  | notified (hline : 6 ≤ s.run.line) (howner : s.owner = .waiting) (hsem : s.m_semaphore = 1)
    (hthread : s.m_thread = true) (hfreed : s.freed = false)
  | late (hline : 6 ≤ s.run.line) (howner : s.owner = .constructed ∨ s.owner = .joining)
    (hsem : s.m_semaphore = 0) (hthread : s.m_thread = true ∨ s.run = .finished)
    (hfreed : s.freed = false)
  | destroyed (hline : 6 ≤ s.run.line) (howner : s.owner = .destroyed)

theorem Sync.of_before (h : s.Sync) (howner : s.owner = .before)
    : s.run = .absent ∧ s.m_semaphore = 0 ∧ s.freed = false := by
  cases h with
  | absent hrun _ hsem hfreed => exact ⟨hrun, hsem, hfreed⟩
  | early _ _ hown => rw [howner] at hown; cases hown
  | notified _ hown => rw [howner] at hown; cases hown
  | late _ hown => rw [howner] at hown; rcases hown with hown | hown <;> cases hown
  | destroyed _ hown => rw [howner] at hown; cases hown

theorem Sync.of_early (h : s.Sync) (hpos : 0 < s.run.line) (hline : s.run.line < 6)
    : s.owner = .waiting ∧ s.m_semaphore = 0 ∧ s.m_thread = true ∧ s.freed = false := by
  cases h with
  | absent hrun => rw [hrun] at hpos; cases hpos
  | early _ _ howner hsem hthread hfreed => exact ⟨howner, hsem, hthread, hfreed⟩
  | notified hlate => omega
  | late hlate => omega
  | destroyed hlate => omega

theorem Sync.of_constructed (h : s.Sync) (howner : s.owner = .constructed ∨ s.owner = .joining)
    : 6 ≤ s.run.line ∧ s.m_semaphore = 0 ∧ (s.m_thread = true ∨ s.run = .finished)
      ∧ s.freed = false := by
  cases h with
  | absent _ hown => rcases hown with hown | hown <;> rw [hown] at howner <;> simp at howner
  | early _ _ hown => rw [hown] at howner; simp at howner
  | notified _ hown => rw [hown] at howner; simp at howner
  | late hline _ hsem hthread hfreed => exact ⟨hline, hsem, hthread, hfreed⟩
  | destroyed _ hown => rw [hown] at howner; simp at howner

theorem Sync.next_early {s' : ThreadStart β} {o n : RunPc} (h : s.Sync) (hrun : s.run = o)
    (hold : 0 < o.line ∧ o.line < 6) (hrun' : s'.run = n) (hnew : 0 < n.line ∧ n.line < 6)
    (howner : s'.owner = s.owner) (hsem : s'.m_semaphore = s.m_semaphore)
    (hthread : s'.m_thread = s.m_thread) (hfreed : s'.freed = s.freed) : s'.Sync := by
  subst hrun hrun'
  obtain ⟨h1, h2, h3, h4⟩ := h.of_early hold.1 hold.2
  exact .early hnew.1 hnew.2 (howner.trans h1) (hsem.trans h2) (hthread.trans h3) (hfreed.trans h4)

theorem Sync.next_late {s' : ThreadStart β} {o n : RunPc} (h : s.Sync) (hrun : s.run = o)
    (hold : 6 ≤ o.line) (hrun' : s'.run = n) (hnew : 6 ≤ n.line) (hfinished : s.run = .finished → s'.run = .finished)
    (howner : s'.owner = s.owner) (hsem : s'.m_semaphore = s.m_semaphore)
    (hthread : s'.m_thread = s.m_thread) (hfreed : s'.freed = s.freed) : s'.Sync := by
  subst hrun hrun'
  cases h with
  | absent hrun => rw [hrun] at hold; cases hold
  | early _ hearly => omega
  | notified _ h1 h2 h3 h4 =>
    exact .notified hnew (howner.trans h1) (hsem.trans h2) (hthread.trans h3) (hfreed.trans h4)
  | late _ h1 h2 h3 h4 =>
    exact .late hnew (howner ▸ h1) (hsem.trans h2) (h3.imp hthread.trans hfinished)
      (hfreed.trans h4)
  | destroyed _ h1 => exact .destroyed hnew (howner.trans h1)

theorem Sync.step (h : s.Sync) (hwait : e ≠ .waitFails) (hen : s.enabled e)
    : (next tid s e).Sync := by
  cases e with
  | create =>
    obtain ⟨-, hsem, hfreed⟩ := h.of_before hen
    exact .early (by decide : 0 < 1) (by decide : 1 < 6) rfl hsem rfl hfreed
  | createFails =>
    obtain ⟨hrun, hsem, hfreed⟩ := h.of_before hen
    exact .absent hrun (.inr rfl) hsem hfreed
  | wait =>
    obtain ⟨howner, hpos⟩ := hen
    cases h with
    | absent _ _ hsem => omega
    | early _ _ _ hsem => omega
    | notified hline _ hsem hthread hfreed =>
      refine .late hline (.inl rfl) ?_ (.inl hthread) hfreed
      change s.m_semaphore - 1 = 0
      rw [hsem]
    | late _ _ hsem => omega
    | destroyed _ hown => rw [hown] at howner; cases howner
  | waitFails => exact absurd rfl hwait
  | join =>
    obtain ⟨hline, hsem, hthread, hfreed⟩ := h.of_constructed (.inl hen.1)
    exact .late hline (.inr rfl) hsem hthread hfreed
  | joined =>
    obtain ⟨hline, hsem, -, hfreed⟩ := h.of_constructed (.inr hen.1)
    exact .late hline (.inl rfl) hsem (.inr hen.2) hfreed
  | destroy => exact .destroyed (h.of_constructed (.inl hen.1)).1 rfl
  | detach => exact .destroyed (h.of_constructed (.inl hen.1)).1 rfl
  | runName =>
    exact h.next_early (n := .named) hen (by decide) rfl (by decide) rfl rfl rfl rfl
  | runId =>
    exact h.next_early (n := .identified) hen (by decide) rfl (by decide) rfl rfl rfl rfl
  | runTitle =>
    exact h.next_early (n := .titled) hen (by decide) rfl (by decide) rfl rfl rfl rfl
  | runSwap =>
    exact h.next_early (n := .swapped) hen (by decide) rfl (by decide) rfl rfl rfl rfl
  | runNotify =>
    change s.run = .swapped at hen
    obtain ⟨howner, hsem, hthread, hfreed⟩ := h.of_early (by rw [hen]; decide) (by rw [hen]; decide)
    refine .notified (Nat.le_refl 6) howner ?_ hthread hfreed
    change s.m_semaphore + 1 = 1
    rw [hsem]
  | runCall =>
    change s.run = .notified at hen
    exact h.next_late (n := .calling) hen (by decide) rfl (by decide) (by rw [hen]; exact nofun) rfl
      rfl rfl rfl
  | setName name =>
    change s.run = .calling at hen
    cases ht : s.t_thread with
    | true =>
      have heq : next tid s (.setName name) = { s.access with m_name := name, t_thread_name := name } :=
        if_pos ht
      rw [heq]
      exact h.next_late hen (by decide) hen (by decide) id rfl rfl rfl rfl
    | false =>
      have heq : next tid s (.setName name) = { s with t_thread_name := name } :=
        if_neg (by rw [ht]; decide)
      rw [heq]
      exact h.next_late hen (by decide) hen (by decide) id rfl rfl rfl rfl
  | runReturn =>
    exact h.next_late (n := .finished) hen (by decide) rfl (by decide) (fun _ => rfl) rfl rfl rfl rfl

end Sync

section Data

structure Data (f : β) (name : List UInt8) (tid : Int) (s : ThreadStart β) : Prop where
  m_id : s.m_id = if s.run.line < 3 then -1 else tid
  m_cb : s.m_cb = if s.run.line < 5 then some f else none
  m_name : s.run.line < 7 → s.m_name = nameOf name
  t_thread : s.t_thread = decide (2 ≤ s.run.line)
  kernel_name : s.kernel_name = if s.run.line < 4 then [] else (nameOf name).take 15
  cb : s.cb = if s.run.line < 5 then none else some f
  called : s.called = if s.run.line < 7 then [] else [f]

theorem Data.of_run {s' : ThreadStart β} (h : s.Data f name tid) (hrun : s'.run = s.run)
    (hid : s'.m_id = s.m_id) (hcb : s'.m_cb = s.m_cb) (hname : s'.m_name = s.m_name)
    (hthread : s'.t_thread = s.t_thread) (hkernel : s'.kernel_name = s.kernel_name)
    (hcb' : s'.cb = s.cb) (hcalled : s'.called = s.called) : s'.Data f name tid where
  m_id := by rw [hid, hrun]; exact h.m_id
  m_cb := by rw [hcb, hrun]; exact h.m_cb
  m_name := by rw [hname, hrun]; exact h.m_name
  t_thread := by rw [hthread, hrun]; exact h.t_thread
  kernel_name := by rw [hkernel, hrun]; exact h.kernel_name
  cb := by rw [hcb', hrun]; exact h.cb
  called := by rw [hcalled, hrun]; exact h.called

theorem Data.step (h : s.Data f name tid) (hsync : s.Sync) (hen : s.enabled e)
    : (next tid s e).Data f name tid := by
  cases e with
  | createFails => exact h.of_run rfl rfl rfl rfl rfl rfl rfl rfl
  | wait => exact h.of_run rfl rfl rfl rfl rfl rfl rfl rfl
  | waitFails => exact h.of_run rfl rfl rfl rfl rfl rfl rfl rfl
  | join => exact h.of_run rfl rfl rfl rfl rfl rfl rfl rfl
  | joined => exact h.of_run rfl rfl rfl rfl rfl rfl rfl rfl
  | destroy => exact h.of_run rfl rfl rfl rfl rfl rfl rfl rfl
  | detach => exact h.of_run rfl rfl rfl rfl rfl rfl rfl rfl
  | create =>
    have hrun := (hsync.of_before hen).1
    obtain ⟨hid, hcb, hname, hthread, hkernel, hcb', hcalled⟩ := h
    rw [hrun] at hid hcb hname hthread hkernel hcb' hcalled
    exact ⟨hid, hcb, fun _ => hname (by decide), hthread, hkernel, hcb', hcalled⟩
  | runName =>
    change s.run = .start at hen
    obtain ⟨hid, hcb, hname, hthread, hkernel, hcb', hcalled⟩ := h
    rw [hen] at hid hcb hname hthread hkernel hcb' hcalled
    exact ⟨hid, hcb, fun _ => hname (by decide), rfl, hkernel, hcb', hcalled⟩
  | runId =>
    change s.run = .named at hen
    obtain ⟨hid, hcb, hname, hthread, hkernel, hcb', hcalled⟩ := h
    rw [hen] at hid hcb hname hthread hkernel hcb' hcalled
    exact ⟨rfl, hcb, fun _ => hname (by decide), hthread, hkernel, hcb', hcalled⟩
  | runTitle =>
    change s.run = .identified at hen
    obtain ⟨hid, hcb, hname, hthread, hkernel, hcb', hcalled⟩ := h
    rw [hen] at hid hcb hname hthread hkernel hcb' hcalled
    refine ⟨hid, hcb, fun _ => hname (by decide), hthread, ?_, hcb', hcalled⟩
    exact congrArg (List.take 15) (hname (by decide))
  | runSwap =>
    change s.run = .titled at hen
    obtain ⟨hid, hcb, hname, hthread, hkernel, hcb', hcalled⟩ := h
    rw [hen] at hid hcb hname hthread hkernel hcb' hcalled
    exact ⟨hid, rfl, fun _ => hname (by decide), hthread, hkernel, hcb, hcalled⟩
  | runNotify =>
    change s.run = .swapped at hen
    obtain ⟨hid, hcb, hname, hthread, hkernel, hcb', hcalled⟩ := h
    rw [hen] at hid hcb hname hthread hkernel hcb' hcalled
    exact ⟨hid, hcb, fun _ => hname (by decide), hthread, hkernel, hcb', hcalled⟩
  | runCall =>
    change s.run = .notified at hen
    obtain ⟨hid, hcb, hname, hthread, hkernel, hcb', hcalled⟩ := h
    rw [hen] at hid hcb hname hthread hkernel hcb' hcalled
    refine ⟨hid, hcb, nofun, hthread, hkernel, hcb', ?_⟩
    change s.called ++ s.cb.toList = [f]
    rw [hcalled, hcb']
    rfl
  | setName name' =>
    change s.run = .calling at hen
    obtain ⟨hid, hcb, hname, hthread, hkernel, hcb', hcalled⟩ := h
    rw [hen] at hthread
    have heq : next tid s (.setName name')
        = { s.access with m_name := name', t_thread_name := name' } := if_pos hthread
    rw [heq]
    refine ⟨hid, hcb, ?_, ?_, hkernel, hcb', hcalled⟩
    . intro hline
      change s.run.line < 7 at hline
      rw [hen] at hline
      exact absurd hline (by decide)
    . change s.t_thread = decide (2 ≤ s.run.line)
      rw [hen]
      exact hthread
  | runReturn =>
    change s.run = .calling at hen
    obtain ⟨hid, hcb, hname, hthread, hkernel, hcb', hcalled⟩ := h
    rw [hen] at hid hcb hname hthread hkernel hcb' hcalled
    exact ⟨hid, hcb, nofun, hthread, hkernel, hcb', hcalled⟩

theorem data_start (f : β) (name : List UInt8) (tid : Int) : (start f name).Data f name tid where
  m_id := rfl
  m_cb := rfl
  m_name _ := rfl
  t_thread := rfl
  kernel_name := rfl
  cb := rfl
  called := rfl

end Data

section Run

-- no signal handler in the constructor, and names are set only where the thread is joined
def Allowed (names : Bool) (e : Event) : Prop :=
  e ≠ .waitFails ∧ (names = true → e ≠ .detach) ∧ (names = false → ∀ name, e ≠ .setName name)

/-- The object is there whenever the new thread accesses it. -/
structure Present (names : Bool) (s : ThreadStart β) : Prop where
  sync : s.Sync
  fault : s.fault = false
  freed : names = true → s.freed = true → s.run = .finished

theorem Present.access (h : s.fault = false) (hfreed : s.freed = false) : s.access.fault = false := by
  change (s.fault || s.freed) = false
  rw [h, hfreed]
  rfl

theorem Present.access_early {o : RunPc} {names : Bool} (h : s.Present names) (hrun : s.run = o)
    (hold : 0 < o.line ∧ o.line < 6) : s.freed = false ∧ s.access.fault = false := by
  subst hrun
  have hfreed := (h.sync.of_early hold.1 hold.2).2.2.2
  exact ⟨hfreed, Present.access h.fault hfreed⟩

theorem Present.step {names : Bool} (h : s.Present names) (hallowed : Allowed names e)
    (hen : s.enabled e) : (next tid s e).Present names := by
  obtain ⟨hwait, hdetach, hname⟩ := hallowed
  have hsync : (next tid s e).Sync := h.sync.step hwait hen
  have hearly : ∀ {s' : ThreadStart β}, s'.freed = s.freed → s.freed = false
      → names = true → s'.freed = true → s'.run = .finished := by
    intro s' hsame hfalse _ hfreed
    rw [hsame, hfalse] at hfreed
    cases hfreed
  cases e with
  | create => exact ⟨hsync, h.fault, hearly rfl (h.sync.of_before hen).2.2⟩
  | createFails => exact ⟨hsync, h.fault, h.freed⟩
  | wait => exact ⟨hsync, h.fault, h.freed⟩
  | waitFails => exact absurd rfl hwait
  | join => exact ⟨hsync, h.fault, h.freed⟩
  | joined => exact ⟨hsync, h.fault, h.freed⟩
  | destroy =>
    refine ⟨hsync, h.fault, ?_⟩
    intro _ _
    rcases (h.sync.of_constructed (.inl hen.1)).2.2.1 with hthread | hfinished
    . rw [hen.2] at hthread
      cases hthread
    . exact hfinished
  | detach => exact ⟨hsync, h.fault, fun hnames => absurd rfl (hdetach hnames)⟩
  | runName =>
    obtain ⟨hfreed, hfault⟩ := h.access_early (o := .start) hen (by decide)
    exact ⟨hsync, hfault, hearly rfl hfreed⟩
  | runId =>
    obtain ⟨hfreed, hfault⟩ := h.access_early (o := .named) hen (by decide)
    exact ⟨hsync, hfault, hearly rfl hfreed⟩
  | runTitle =>
    obtain ⟨hfreed, hfault⟩ := h.access_early (o := .identified) hen (by decide)
    exact ⟨hsync, hfault, hearly rfl hfreed⟩
  | runSwap =>
    obtain ⟨hfreed, hfault⟩ := h.access_early (o := .titled) hen (by decide)
    exact ⟨hsync, hfault, hearly rfl hfreed⟩
  | runNotify =>
    obtain ⟨hfreed, hfault⟩ := h.access_early (o := .swapped) hen (by decide)
    exact ⟨hsync, hfault, hearly rfl hfreed⟩
  | runCall =>
    refine ⟨hsync, h.fault, ?_⟩
    intro hnames hfreed
    have hfinished := h.freed hnames hfreed
    change s.run = .notified at hen
    rw [hen] at hfinished
    cases hfinished
  | setName name =>
    cases names with
    | false => exact absurd rfl (hname rfl name)
    | true =>
      change s.run = .calling at hen
      have hfreed : s.freed = false := by
        rw [← Bool.not_eq_true]
        intro hfreed
        have hfinished := h.freed rfl hfreed
        rw [hen] at hfinished
        cases hfinished
      refine ⟨hsync, ?_, hearly ?_ hfreed⟩
      . unfold next
        dsimp only
        split
        . exact Present.access h.fault hfreed
        . exact h.fault
      . unfold next
        dsimp only
        split <;> rfl
  | runReturn => exact ⟨hsync, h.fault, fun _ _ => rfl⟩

theorem present_start (f : β) (name : List UInt8) (names : Bool) : (start f name).Present names :=
  ⟨.absent rfl (.inl rfl) rfl rfl, rfl, nofun⟩

theorem allowed_of {ls : List Event} (hwait : .waitFails ∉ ls)
    (hname : .detach ∉ ls ∨ ∀ name, .setName name ∉ ls) : ∃ names, ∀ e ∈ ls, Allowed names e := by
  have hne : ∀ {e e'}, e ∈ ls → e' ∉ ls → e ≠ e' := by
    rintro e e' hmem hnot rfl
    exact hnot hmem
  rcases hname with hdetach | hnames
  . exact ⟨true, fun e he => ⟨hne he hwait, fun _ => hne he hdetach, nofun⟩⟩
  . exact ⟨false, fun e he => ⟨hne he hwait, nofun, fun _ name => hne he (hnames name)⟩⟩

/--
In every order of the steps of the two threads: the new thread accesses the object only while it is
there, a constructor that has returned has set `m_id` to the id of the new thread and its names, the
function is called at most once, and a thread that was joined has called it and has ended.
-/
theorem run_started {ls : List Event} (hrun : (lts tid).Run (start f name) ls s)
    (hwait : .waitFails ∉ ls) (hname : .detach ∉ ls ∨ ∀ name, .setName name ∉ ls)
    : s.fault = false
      ∧ (s.owner = .constructed ∨ s.owner = .joining ∨ s.owner = .destroyed
        → s.m_id = tid ∧ s.m_cb = none ∧ s.t_thread = true
          ∧ s.kernel_name = (nameOf name).take 15)
      ∧ (s.called = [] ∨ s.called = [f])
      ∧ (s.owner = .constructed → s.m_thread = false → s.run = .finished ∧ s.called = [f]) := by
  obtain ⟨names, hallowed⟩ := allowed_of hwait hname
  have hstep : ∀ (s : ThreadStart β) (e : Event) (s' : ThreadStart β),
      s.Present names ∧ s.Data f name tid → Allowed names e → (lts tid).step s e s'
        → s'.Present names ∧ s'.Data f name tid := by
    rintro s e s' ⟨hpresent, hdata⟩ hallowed ⟨hen, rfl⟩
    exact ⟨hpresent.step hallowed hen, hdata.step hpresent.sync hen⟩
  obtain ⟨hpresent, hdata⟩ :=
    hrun.invariant_of hstep hallowed ⟨present_start f name names, data_start f name tid⟩
  have hlate : s.owner = .constructed ∨ s.owner = .joining ∨ s.owner = .destroyed
      → 6 ≤ s.run.line := by
    intro howner
    cases hpresent.sync with
    | absent _ hown => rcases hown with hown | hown <;> rw [hown] at howner <;> simp at howner
    | early _ _ hown => rw [hown] at howner; simp at howner
    | notified hline => exact hline
    | late hline => exact hline
    | destroyed hline => exact hline
  refine ⟨hpresent.fault, ?_, ?_, ?_⟩
  . intro howner
    have hline := hlate howner
    rw [hdata.m_id, hdata.m_cb, hdata.t_thread, hdata.kernel_name, if_neg (by omega),
      if_neg (by omega), if_neg (by omega), decide_eq_true (by omega)]
    exact ⟨rfl, rfl, rfl, rfl⟩
  . rw [hdata.called]
    split
    . exact .inl rfl
    . exact .inr rfl
  . intro howner hthread
    rcases (hpresent.sync.of_constructed (.inl howner)).2.2.1 with hset | hfinished
    . rw [hthread] at hset
      cases hset
    . refine ⟨hfinished, ?_⟩
      rw [hdata.called, hfinished]
      rfl

theorem run_started_detached
    : ∃ s : ThreadStart Nat, s.owner = .destroyed ∧ s.called = [7] ∧ s.fault = false
      ∧ s.m_id = 4242 ∧ s.kernel_name = UNKNOW := by
  have hrun : ∃ s : ThreadStart Nat, (lts 4242).Run (start 7 [])
      [.create, .runName, .runId, .runTitle, .runSwap, .runNotify, .wait, .detach, .runCall] s
      ∧ s.owner = .destroyed ∧ s.called = [7] :=
    ⟨_, .cons ⟨rfl, rfl⟩ (.cons ⟨rfl, rfl⟩ (.cons ⟨rfl, rfl⟩ (.cons ⟨rfl, rfl⟩ (.cons ⟨rfl, rfl⟩
      (.cons ⟨rfl, rfl⟩ (.cons ⟨⟨rfl, by decide⟩, rfl⟩ (.cons ⟨⟨rfl, rfl⟩, rfl⟩
      (.cons ⟨rfl, rfl⟩ (.nil _))))))))), rfl, rfl⟩
  obtain ⟨s, hrun, howner, hcalled⟩ := hrun
  obtain ⟨hfault, hset, -, -⟩ := run_started hrun (by decide) (.inr fun name => by simp)
  obtain ⟨hid, -, -, hkernel⟩ := hset (.inr (.inr howner))
  exact ⟨s, howner, hcalled, hfault, hid, hkernel⟩

end Run

end ThreadStart

end CXS
