import CXS.Util.Sections
import Mathlib.Data.Finset.Card

/-!
This module contains the locks of `code/thread.h` and their guards `ScopedLockImpl`,
`ReadScopedLockImpl` and `WriteScopedLockImpl`. It is proved that the code under the guards of one lock
is atomic, for any number of threads and in any order of their steps, where a thread has no second guard
of a lock that it already has one of. So a thread that calls `wrlock` does not have the lock, and the
error `EDEADLK` that `RWMutex` ignores does not come up; nor does `EAGAIN` for too many readers.
-/

namespace CXS

/--
What the guards use of a lock. An attempt of `lock`, `rdlock` or `wrlock` that fails is made again.
-/
structure Lock (σ : Type) where
  new : σ
  offers : Access → Prop
  attempt : Access → σ → σ × Bool
  unlock : σ → σ

structure RWLock where
  readers : Nat
  writer : Bool
  deriving DecidableEq, Repr

namespace Lock

-- `atomic_flag_test_and_set_explicit` and `atomic_flag_clear_explicit`
def CASLock : Lock Bool where
  new := false
  offers m := m = .write
  attempt _ m_mutex := (true, !m_mutex)
  unlock _ := false

-- `pthread_mutex_t`
def Mutex : Lock Bool where
  new := false
  offers m := m = .write
  attempt _ m_mutex := if m_mutex then (m_mutex, false) else (true, true)
  unlock _ := false

-- `pthread_spinlock_t`
def Spinlock : Lock Bool :=
  Mutex

-- `pthread_rwlock_t`
def RWMutex : Lock RWLock where
  new := ⟨0, false⟩
  offers _ := True
  attempt
    | .read, m_lock =>
      if m_lock.writer then (m_lock, false) else (⟨m_lock.readers + 1, false⟩, true)
    | .write, m_lock =>
      if m_lock.writer ∨ 0 < m_lock.readers then (m_lock, false) else (⟨0, true⟩, true)
  unlock m_lock :=
    if m_lock.writer then ⟨m_lock.readers, false⟩ else ⟨m_lock.readers - 1, false⟩

/-- The lock counts the readers that have it and knows if a writer has it. -/
structure Counts {σ : Type} (lock : Lock σ) (R : σ → Nat → Bool → Prop) : Prop where
  new : R lock.new 0 false
  alone : ∀ {s r}, R s r true → r = 0
  free : ∀ {s m}, lock.offers m → R s 0 false → (lock.attempt m s).2 = true
  failed : ∀ {s s' r w m}, R s r w → lock.attempt m s = (s', false) → R s' r w
  read : ∀ {s s' r w}, lock.offers .read → R s r w → lock.attempt .read s = (s', true)
    → w = false ∧ R s' (r + 1) false
  write : ∀ {s s' r w}, lock.offers .write → R s r w → lock.attempt .write s = (s', true)
    → r = 0 ∧ w = false ∧ R s' 0 true
  unlock_read : ∀ {s r}, R s (r + 1) false → R (lock.unlock s) r false
  unlock_write : ∀ {s}, R s 0 true → R (lock.unlock s) 0 false

def Taken (s : Bool) (r : Nat) (w : Bool) : Prop :=
  r = 0 ∧ s = w

theorem CASLock_counts : CASLock.Counts Taken where
  new := ⟨rfl, rfl⟩
  alone h := h.1
  free := by
    rintro s m - ⟨-, rfl⟩
    rfl
  failed := by
    rintro s s' r w m ⟨rfl, rfl⟩ heq
    injection heq with hs hfail
    rw [Bool.not_eq_false'] at hfail
    exact ⟨rfl, by rw [← hs, hfail]⟩
  read := nofun
  write := by
    rintro s s' r w - ⟨rfl, rfl⟩ heq
    injection heq with hs hgot
    rw [Bool.not_eq_true'] at hgot
    exact ⟨rfl, hgot, rfl, hs.symm⟩
  unlock_read h := by cases h.1
  unlock_write _ := ⟨rfl, rfl⟩

theorem Mutex_counts : Mutex.Counts Taken where
  new := ⟨rfl, rfl⟩
  alone h := h.1
  free := by
    rintro s m - ⟨-, rfl⟩
    rfl
  failed := by
    rintro s s' r w m ⟨rfl, rfl⟩ heq
    cases s with
    | true =>
      injection heq with hs
      exact ⟨rfl, hs.symm⟩
    | false => cases heq
  read := nofun
  write := by
    rintro s s' r w - ⟨rfl, rfl⟩ heq
    cases s with
    | true => cases heq
    | false =>
      injection heq with hs
      exact ⟨rfl, rfl, rfl, hs.symm⟩
  unlock_read h := by cases h.1
  unlock_write _ := ⟨rfl, rfl⟩

def Holding (s : RWLock) (r : Nat) (w : Bool) : Prop :=
  s = ⟨r, w⟩ ∧ (w = true → r = 0)

theorem RWMutex_counts : RWMutex.Counts Holding where
  new := ⟨rfl, nofun⟩
  alone h := h.2 rfl
  free := by
    rintro s m - ⟨rfl, -⟩
    cases m <;> rfl
  failed := by
    rintro s s' r w m ⟨rfl, halone⟩ heq
    unfold attempt RWMutex at heq
    cases m with
    | read =>
      dsimp only at heq
      split at heq
      . injection heq with hs
        exact ⟨hs.symm, halone⟩
      . cases heq
    | write =>
      dsimp only at heq
      split at heq
      . injection heq with hs
        exact ⟨hs.symm, halone⟩
      . cases heq
  read := by
    rintro s s' r w - ⟨rfl, -⟩ heq
    cases w with
    | true => cases heq
    | false =>
      injection heq with hs
      exact ⟨rfl, hs.symm, nofun⟩
  write := by
    rintro s s' r w - ⟨rfl, -⟩ heq
    unfold attempt RWMutex at heq
    dsimp only at heq
    split at heq
    . cases heq
    . next hfree =>
      injection heq with hs
      rw [not_or, Nat.not_lt, Nat.le_zero, Bool.not_eq_true] at hfree
      exact ⟨hfree.2, hfree.1, hs.symm, fun _ => rfl⟩
  unlock_read := by
    rintro s r ⟨rfl, -⟩
    exact ⟨rfl, nofun⟩
  unlock_write := by
    rintro s ⟨rfl, -⟩
    exact ⟨rfl, nofun⟩

end Lock

/-- Where a thread is in the members of its guard, whose `m_locked` is false in `locking` and `locked`. -/
inductive GuardPc where
  | outside
  | locking (m : Access)
  | locked (m : Access)
  | guard (m : Access) (m_locked : Bool)
  | unlocked (m : Access)
  deriving DecidableEq, Repr

namespace GuardPc

def access : GuardPc → Option Access
  | .outside => none
  | .locking m => some m
  | .locked m => some m
  | .guard m _ => some m
  | .unlocked m => some m

-- the lock is the thread's
def inside : GuardPc → Option Access
  | .locked m => some m
  | .guard m m_locked => if m_locked then some m else none
  | _ => none

end GuardPc

structure Guarded (σ ι L δ : Type) where
  lock : σ
  pc : ι → GuardPc
  locals : ι → L
  data : δ

namespace Guarded

variable {σ ι L δ : Type} [DecidableEq ι]

inductive Event where
  | think
  | construct (m : Access)
  | lock
  | attempt (m : Access) (got : Bool)
  | setLocked
  | access
  | unlock (left : Option Access)
  | clearLocked
  | destroyed

def goto (s : Guarded σ ι L δ) (i : ι) (pc : GuardPc) : Guarded σ ι L δ :=
  { s with pc := Function.update s.pc i pc }

inductive Step (lock : Lock σ) (P : Sections ι L δ)
    : Guarded σ ι L δ → ι × Event → Guarded σ ι L δ → Prop where
  | think {s : Guarded σ ι L δ} {i : ι} {l : L} (hout : (s.pc i).inside = none)
    (hthink : P.think i (s.locals i) l)
    : Step lock P s (i, .think) { s with locals := Function.update s.locals i l }
  | construct {s : Guarded σ ι L δ} {i : ι} {m : Access} (hpc : s.pc i = .outside)
    (hm : lock.offers m) : Step lock P s (i, .construct m) (s.goto i (.locking m))
  | lock {s : Guarded σ ι L δ} {i : ι} {m : Access} (hpc : s.pc i = .guard m false)
    : Step lock P s (i, .lock) (s.goto i (.locking m))
  | lockAgain {s : Guarded σ ι L δ} {i : ι} {m : Access} (hpc : s.pc i = .guard m true)
    : Step lock P s (i, .lock) s
  | failed {s : Guarded σ ι L δ} {i : ι} {m : Access} {x : σ} (hpc : s.pc i = .locking m)
    (hfail : lock.attempt m s.lock = (x, false))
    : Step lock P s (i, .attempt m false) { s with lock := x }
  | got {s : Guarded σ ι L δ} {i : ι} {m : Access} {x : σ} (hpc : s.pc i = .locking m)
    (hgot : lock.attempt m s.lock = (x, true))
    : Step lock P s (i, .attempt m true) ({ s with lock := x }.goto i (.locked m))
  | setLocked {s : Guarded σ ι L δ} {i : ι} {m : Access} (hpc : s.pc i = .locked m)
    : Step lock P s (i, .setLocked) (s.goto i (.guard m true))
  | access {s : Guarded σ ι L δ} {i : ι} {m : Access} {l : L} {d : δ}
    (hpc : s.pc i = .guard m true) (haccess : P.access i m (s.locals i, s.data) (l, d))
    : Step lock P s (i, .access)
        { s with locals := Function.update s.locals i l, data := d }
  | unlock {s : Guarded σ ι L δ} {i : ι} {m : Access} (hpc : s.pc i = .guard m true)
    : Step lock P s (i, .unlock (some m))
        ({ s with lock := lock.unlock s.lock }.goto i (.unlocked m))
  | unlockAgain {s : Guarded σ ι L δ} {i : ι} {m : Access} (hpc : s.pc i = .guard m false)
    : Step lock P s (i, .unlock none) s
  | clearLocked {s : Guarded σ ι L δ} {i : ι} {m : Access} (hpc : s.pc i = .unlocked m)
    : Step lock P s (i, .clearLocked) (s.goto i (.guard m false))
  | destroyed {s : Guarded σ ι L δ} {i : ι} {m : Access} (hpc : s.pc i = .guard m false)
    : Step lock P s (i, .destroyed) (s.goto i .outside)

def lts (lock : Lock σ) (P : Sections ι L δ) : LTS (Guarded σ ι L δ) (ι × Event) where
  step := Step lock P

def start (lock : Lock σ) (locals : ι → L) (data : δ) : Guarded σ ι L δ where
  lock := lock.new
  pc := fun _ => .outside
  locals := locals
  data := data

-- the threads and the data without the lock
def sections (s : Guarded σ ι L δ) : Sections.State ι L δ where
  locals := s.locals
  data := s.data
  inside := fun i => (s.pc i).inside

def label : ι × Event → Option (Sections.Label ι)
  | (i, .think) => some (.think i)
  | (i, .attempt m true) => some (.enter i m)
  | (i, .access) => some (.access i)
  | (i, .unlock (some m)) => some (.leave i m)
  | _ => none

section Counted

variable {lock : Lock σ} {R : σ → Nat → Bool → Prop} {x x' : σ} {inside : ι → Option Access}
  {i : ι} {m : Access}

def Counted (R : σ → Nat → Bool → Prop) (x : σ) (inside : ι → Option Access) : Prop :=
  ∃ (readers : Finset ι) (w : Bool), (∀ i, i ∈ readers ↔ inside i = some .read)
    ∧ (w = true ↔ ∃ i, inside i = some .write) ∧ R x readers.card w

omit [DecidableEq ι] in
theorem Counted.failed (hlock : lock.Counts R) (h : Counted R x inside)
    (hfail : lock.attempt m x = (x', false)) : Counted R x' inside := by
  obtain ⟨readers, w, hreaders, hw, hr⟩ := h
  exact ⟨readers, w, hreaders, hw, hlock.failed hr hfail⟩

theorem Counted.enter (hlock : lock.Counts R) (h : Counted R x inside) (hout : inside i = none)
    (hm : lock.offers m) (hgot : lock.attempt m x = (x', true))
    : (∀ j n, inside j = some n → m = .read ∧ n = .read)
      ∧ Counted R x' (Function.update inside i (some m)) := by
  obtain ⟨readers, w, hreaders, hw, hr⟩ := h
  have hother : ∀ j, inside j ≠ none → j ≠ i := by
    rintro j hj rfl
    exact hj hout
  have hnew : ∀ j n, Function.update inside i (some m) j = some n
      ↔ j = i ∧ m = n ∨ inside j = some n := by
    intro j n
    by_cases hji : j = i
    . rw [hji, Function.update_self, hout, Option.some.injEq]
      simp
    . rw [Function.update_of_ne hji]
      simp [hji]
  cases m with
  | read =>
    obtain ⟨rfl, hr'⟩ := hlock.read hm hr hgot
    have hnone : ∀ j, inside j ≠ some .write := by
      intro j hj
      cases hw.mpr ⟨j, hj⟩
    constructor
    . intro j n hj
      cases n with
      | read => exact ⟨rfl, rfl⟩
      | write => exact absurd hj (hnone j)
    . refine ⟨insert i readers, false, ?_, ?_, ?_⟩
      . intro j
        rw [Finset.mem_insert, hreaders, hnew]
        simp
      . simp [hnew, hnone]
      . rw [Finset.card_insert_of_notMem]
        . exact hr'
        . rw [hreaders, hout]
          exact nofun
  | write =>
    obtain ⟨hzero, rfl, hr'⟩ := hlock.write hm hr hgot
    rw [Finset.card_eq_zero] at hzero
    have hnone : ∀ j n, inside j ≠ some n := by
      intro j n hj
      cases n with
      | read =>
        rw [← hreaders, hzero] at hj
        cases hj
      | write => cases hw.mpr ⟨j, hj⟩
    constructor
    . intro j n hj
      exact absurd hj (hnone j n)
    . refine ⟨∅, true, ?_, ?_, hr'⟩
      . intro j
        simp [hnew, hnone]
      . simp [hnew, hnone]

theorem Counted.leave (hlock : lock.Counts R) (h : Counted R x inside)
    (hexcl : Sections.Exclusive inside) (hin : inside i = some m)
    : Counted R (lock.unlock x) (Function.update inside i none) := by
  obtain ⟨readers, w, hreaders, hw, hr⟩ := h
  have hnew : ∀ j n, Function.update inside i none j = some n ↔ j ≠ i ∧ inside j = some n := by
    intro j n
    by_cases hji : j = i
    . rw [hji, Function.update_self]
      simp
    . rw [Function.update_of_ne hji]
      simp [hji]
  cases m with
  | read =>
    have hnone : ∀ j, inside j ≠ some .write := by
      intro j hj
      have hji : j ≠ i := by
        rintro rfl
        rw [hin] at hj
        cases hj
      cases (hexcl j i .write .read hji hj hin).1
    have hmem : i ∈ readers := (hreaders i).mpr hin
    have hfalse : w = false := by
      rw [← Bool.not_eq_true, hw]
      rintro ⟨j, hj⟩
      exact hnone j hj
    subst hfalse
    refine ⟨readers.erase i, false, ?_, ?_, ?_⟩
    . intro j
      rw [Finset.mem_erase, hreaders, hnew]
    . simp [hnew, hnone]
    . rw [← Finset.card_erase_add_one hmem] at hr
      exact hlock.unlock_read hr
  | write =>
    have hnone : ∀ j n, j ≠ i → inside j ≠ some n := by
      intro j n hji hj
      cases (hexcl i j .write n hji.symm hin hj).1
    have htrue : w = true := hw.mpr ⟨i, hin⟩
    subst htrue
    have hzero := hlock.alone hr
    rw [hzero] at hr
    refine ⟨∅, false, ?_, ?_, hlock.unlock_write hr⟩
    . intro j
      rw [hnew]
      constructor
      . exact nofun
      . rintro ⟨hji, hj⟩
        exact absurd hj (hnone j .read hji)
    . constructor
      . exact nofun
      . rintro ⟨j, hj⟩
        rw [hnew] at hj
        exact absurd hj.2 (hnone j .write hj.1)

end Counted

section Run

variable {lock : Lock σ} {R : σ → Nat → Bool → Prop} {P : Sections ι L δ}
  {s s' : Guarded σ ι L δ} {l : ι × Event} {i : ι}

structure Inv (lock : Lock σ) (R : σ → Nat → Bool → Prop) (s : Guarded σ ι L δ) : Prop where
  exclusive : Sections.Exclusive s.sections.inside
  offers : ∀ i m, (s.pc i).access = some m → lock.offers m
  counted : Counted R s.lock s.sections.inside

theorem inside_goto (s : Guarded σ ι L δ) (i : ι) (pc : GuardPc)
    : (s.goto i pc).sections.inside = Function.update s.sections.inside i pc.inside := by
  funext j
  change (Function.update s.pc i pc j).inside = _
  by_cases hji : j = i
  . rw [hji, Function.update_self, Function.update_self]
  . rw [Function.update_of_ne hji, Function.update_of_ne hji]
    rfl

theorem sections_goto (s : Guarded σ ι L δ) (i : ι) (pc : GuardPc)
    : (s.goto i pc).sections
        = { s.sections with inside := Function.update s.sections.inside i pc.inside } := by
  rw [← inside_goto]
  rfl

theorem sections_goto_same {pc : GuardPc} (h : pc.inside = (s.pc i).inside)
    : (s.goto i pc).sections = s.sections := by
  rw [sections_goto, h]
  have hsame : Function.update s.sections.inside i (s.pc i).inside = s.sections.inside :=
    Function.update_eq_self i s.sections.inside
  rw [hsame]

theorem offers_goto {pc : GuardPc} (h : ∀ i m, (s.pc i).access = some m → lock.offers m)
    (hpc : ∀ m, pc.access = some m → lock.offers m)
    : ∀ j m, ((s.goto i pc).pc j).access = some m → lock.offers m := by
  intro j m hj
  change (Function.update s.pc i pc j).access = some m at hj
  by_cases hji : j = i
  . rw [hji, Function.update_self] at hj
    exact hpc m hj
  . rw [Function.update_of_ne hji] at hj
    exact h j m hj

theorem Inv.goto_same {old pc : GuardPc} (h : Inv lock R s) (hpc : s.pc i = old)
    (hin : pc.inside = old.inside)
    (haccess : ∀ m, pc.access = some m → old.access = some m ∨ lock.offers m)
    : P.lts.Run s.sections [] (s.goto i pc).sections ∧ Inv lock R (s.goto i pc) := by
  subst hpc
  have hsame := sections_goto_same hin
  refine ⟨?_, ?_, ?_, ?_⟩
  . rw [hsame]
    exact .nil _
  . rw [hsame]
    exact h.exclusive
  . apply offers_goto h.offers
    intro m hm
    exact (haccess m hm).elim (h.offers i m) id
  . rw [hsame]
    exact h.counted

theorem Inv.got {m : Access} {x : σ} (hlock : lock.Counts R) (h : Inv lock R s)
    (hpc : s.pc i = .locking m) (hgot : lock.attempt m s.lock = (x, true))
    : P.Step s.sections (.enter i m) ({ s with lock := x }.goto i (.locked m)).sections
      ∧ Inv lock R ({ s with lock := x }.goto i (.locked m)) := by
  have hm : lock.offers m := h.offers i m (by rw [hpc]; rfl)
  have hout : s.sections.inside i = none := by
    change (s.pc i).inside = none
    rw [hpc]
    rfl
  obtain ⟨hfree, hcounted⟩ := h.counted.enter hlock hout hm hgot
  have hstep : P.Step s.sections (.enter i m) ({ s with lock := x }.goto i (.locked m)).sections := by
    rw [sections_goto]
    exact .enter hout hfree
  refine ⟨hstep, h.exclusive.step hstep, ?_, ?_⟩
  . apply offers_goto h.offers
    intro n hn
    injection hn with hn
    exact hn ▸ hm
  . rw [inside_goto]
    exact hcounted

theorem Inv.unlock {m : Access} (hlock : lock.Counts R) (h : Inv lock R s)
    (hpc : s.pc i = .guard m true)
    : P.Step s.sections (.leave i m)
        ({ s with lock := lock.unlock s.lock }.goto i (.unlocked m)).sections
      ∧ Inv lock R ({ s with lock := lock.unlock s.lock }.goto i (.unlocked m)) := by
  have hin : s.sections.inside i = some m := by
    change (s.pc i).inside = some m
    rw [hpc]
    rfl
  have hstep : P.Step s.sections (.leave i m)
      ({ s with lock := lock.unlock s.lock }.goto i (.unlocked m)).sections := by
    rw [sections_goto]
    exact .leave hin
  refine ⟨hstep, h.exclusive.step hstep, ?_, ?_⟩
  . apply offers_goto h.offers
    intro n hn
    injection hn with hn
    exact hn ▸ h.offers i m (by rw [hpc]; rfl)
  . rw [inside_goto]
    exact h.counted.leave hlock h.exclusive hin

theorem Inv.step (hlock : lock.Counts R) (h : Inv lock R s) (hstep : Step lock P s l s')
    : P.lts.Run s.sections (label l).toList s'.sections ∧ Inv lock R s' := by
  cases hstep with
  | think hout hthink => exact ⟨.cons (.think hout hthink) (.nil _), h.exclusive, h.offers, h.counted⟩
  | construct hpc hm =>
    refine h.goto_same hpc rfl ?_
    intro n hn
    exact .inr (Option.some.inj hn ▸ hm)
  | lock hpc => exact h.goto_same hpc rfl fun _ => .inl
  | lockAgain hpc => exact ⟨.nil _, h⟩
  | failed hpc hfail => exact ⟨.nil _, h.exclusive, h.offers, h.counted.failed hlock hfail⟩
  | got hpc hgot =>
    obtain ⟨henter, hinv⟩ := h.got (P := P) hlock hpc hgot
    exact ⟨.cons henter (.nil _), hinv⟩
  | setLocked hpc => exact h.goto_same hpc rfl fun _ => .inl
  | @access i m x d hpc haccess =>
    have hin : s.sections.inside i = some m := by
      change (s.pc i).inside = some m
      rw [hpc]
      rfl
    exact ⟨.cons (.access hin haccess) (.nil _), h.exclusive, h.offers, h.counted⟩
  | unlock hpc =>
    obtain ⟨hleave, hinv⟩ := h.unlock (P := P) hlock hpc
    exact ⟨.cons hleave (.nil _), hinv⟩
  | unlockAgain hpc => exact ⟨.nil _, h⟩
  | clearLocked hpc => exact h.goto_same hpc rfl fun _ => .inl
  | destroyed hpc => exact h.goto_same hpc rfl nofun

omit [DecidableEq ι] in
theorem inv_start (hlock : lock.Counts R) (locals : ι → L) (data : δ)
    : Inv lock R (start lock locals data) where
  exclusive := nofun
  offers := nofun
  counted := by
    refine ⟨∅, false, ?_, ?_, hlock.new⟩
    . intro i
      exact ⟨nofun, nofun⟩
    . exact ⟨nofun, nofun⟩

theorem run_sections (hlock : lock.Counts R) {locals : ι → L} {data : δ} {ls : List (ι × Event)}
    (hrun : (lts lock P).Run (start lock locals data) ls s)
    : P.lts.Run (start lock locals data).sections (ls.filterMap label) s.sections
      ∧ Inv lock R s := by
  have hstep : ∀ (pre : List (ι × Event)) (s : Guarded σ ι L δ) (l : ι × Event)
      (s' : Guarded σ ι L δ),
      (P.lts.Run (start lock locals data).sections (pre.filterMap label) s.sections ∧ Inv lock R s)
      → (lts lock P).step s l s'
      → P.lts.Run (start lock locals data).sections ((pre ++ [l]).filterMap label) s'.sections
        ∧ Inv lock R s' := by
    rintro pre s l s' ⟨hrun, hinv⟩ hstep
    obtain ⟨hrun', hinv'⟩ := hinv.step hlock hstep
    refine ⟨?_, hinv'⟩
    have hlast : [l].filterMap label = (label l).toList := by
      cases hl : label l with
      | none => exact List.filterMap_cons_none hl
      | some k => exact List.filterMap_cons_some hl
    rw [List.filterMap_append, hlast]
    exact hrun.append hrun'
  have hall : P.lts.Run (start lock locals data).sections (([] ++ ls).filterMap label) s.sections
      ∧ Inv lock R s :=
    hrun.history hstep ⟨.nil _, inv_start hlock locals data⟩
  exact hall

omit [DecidableEq ι] in
theorem Inv.free {m : Access} (hlock : lock.Counts R) (h : Inv lock R s)
    (hout : ∀ i, (s.pc i).inside = none) (hm : lock.offers m)
    : (lock.attempt m s.lock).2 = true := by
  obtain ⟨readers, w, hreaders, hw, hr⟩ := h.counted
  have hnone : ∀ i n, s.sections.inside i ≠ some n := by
    intro i n hi
    have hi' := hout i
    change s.sections.inside i = none at hi'
    rw [hi'] at hi
    cases hi
  have hempty : readers = ∅ := by
    apply Finset.eq_empty_of_forall_notMem
    intro i hi
    exact hnone i .read ((hreaders i).mp hi)
  have hfalse : w = false := by
    rw [← Bool.not_eq_true, hw]
    rintro ⟨i, hi⟩
    exact hnone i .write hi
  rw [hempty, hfalse] at hr
  exact hlock.free hm hr

end Run

end Guarded

inductive LockKind where
  | Mutex
  | Spinlock
  | CASLock
  | RWMutex
  deriving DecidableEq, Repr

namespace LockKind

def State : LockKind → Type
  | .Mutex => Bool
  | .Spinlock => Bool
  | .CASLock => Bool
  | .RWMutex => RWLock

def lock : (k : LockKind) → Lock k.State
  | .Mutex => Lock.Mutex
  | .Spinlock => Lock.Spinlock
  | .CASLock => Lock.CASLock
  | .RWMutex => Lock.RWMutex

theorem counts (k : LockKind) : ∃ R, k.lock.Counts R := by
  cases k with
  | Mutex => exact ⟨_, Lock.Mutex_counts⟩
  | Spinlock => exact ⟨_, Lock.Mutex_counts⟩
  | CASLock => exact ⟨_, Lock.CASLock_counts⟩
  | RWMutex => exact ⟨_, Lock.RWMutex_counts⟩

end LockKind

namespace Guarded

variable {ι L δ : Type} [DecidableEq ι]

/--
In every run of threads that access data under the guards of a lock, only readers are inside together,
the sections are atomic in the order of their `unlock`, and where nobody is inside the lock is free.
-/
theorem guarded_atomic (k : LockKind) (P : Sections ι L δ) {locals : ι → L} {data : δ}
    {ls : List (ι × Event)} {s : Guarded k.State ι L δ}
    (hrun : (lts k.lock P).Run (start k.lock locals data) ls s)
    : Sections.Exclusive (fun i => (s.pc i).inside)
      ∧ (∃ c, P.atomic.Run (locals, data)
          ((ls.filterMap label).filterMap Sections.Label.atomic) c ∧ P.Pending c s.sections)
      ∧ ((∀ i, (s.pc i).inside = none)
        → ∀ m, k.lock.offers m → (k.lock.attempt m s.lock).2 = true) := by
  obtain ⟨R, hlock⟩ := k.counts
  obtain ⟨hsections, hinv⟩ := run_sections hlock hrun
  obtain ⟨hexcl, c, hatomic, hpending⟩ := Sections.run_atomic hsections
  refine ⟨hexcl, ⟨c, hatomic, hpending⟩, ?_⟩
  intro hout m hm
  exact hinv.free hlock hout hm

def counter : Sections Bool Nat Nat where
  think _ _ _ := False
  access _ m x y := m = .write ∧ (y = (x.2 + 1, x.2) ∨ y = (x.1, x.1))
  read_keeps := by
    rintro i x y ⟨hread, -⟩
    cases hread

theorem guarded_atomic_counter
    : ∃ s : Guarded Bool Bool Nat Nat, s.data = 1 ∧ s.pc true = .locked .write
      ∧ Sections.Exclusive (fun i => (s.pc i).inside)
      ∧ ∃ c, counter.atomic.Run (fun _ => 0, 0) [(false, some .write)] c
        ∧ counter.Pending c s.sections := by
  have hrun : ∃ s : Guarded Bool Bool Nat Nat,
      (lts LockKind.CASLock.lock counter).Run (start LockKind.CASLock.lock (fun _ => 0) 0)
        [(false, .construct .write), (true, .construct .write), (false, .attempt .write true),
          (true, .attempt .write false), (false, .setLocked), (false, .access), (false, .access),
          (false, .unlock (some .write)), (true, .attempt .write true)] s
      ∧ s.data = 1 ∧ s.pc true = .locked .write :=
    ⟨_, .cons (.construct rfl rfl) (.cons (.construct rfl rfl) (.cons (.got rfl rfl)
      (.cons (.failed rfl rfl) (.cons (.setLocked rfl) (.cons (.access rfl ⟨rfl, .inl rfl⟩)
      (.cons (.access rfl ⟨rfl, .inr rfl⟩) (.cons (.unlock rfl) (.cons (.got rfl rfl)
      (.nil _))))))))), rfl, rfl⟩
  obtain ⟨s, hrun, hdata, hpc⟩ := hrun
  obtain ⟨hexcl, hatomic, -⟩ := guarded_atomic .CASLock counter hrun
  exact ⟨s, hdata, hpc, hexcl, hatomic⟩

end Guarded

end CXS
