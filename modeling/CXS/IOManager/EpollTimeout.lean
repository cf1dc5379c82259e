import Mathlib.Algebra.Group.Int.Defs
import CXS.Timer.Basic

namespace CXS

def intOfUInt64 (n : UInt64) : Int32 :=
  n.toInt64.toInt32

def uint64OfInt (i : Int32) : UInt64 :=
  i.toInt64.toUInt64

def MAX_TIMEOUT : Int32 :=
  3000

def noTimeout : UInt64 :=
  ~~~0

def boundTimeout (next_timeout : UInt64) : UInt64 :=
  if next_timeout ≠ noTimeout then
    uint64OfInt (min (intOfUInt64 next_timeout) MAX_TIMEOUT)
  else
    uint64OfInt MAX_TIMEOUT

def epollTimeouts (next_timeout : UInt64) : Nat → List Int32
  | 0 => [intOfUInt64 (boundTimeout next_timeout)]
  | retries + 1 =>
    let next_timeout := boundTimeout next_timeout
    intOfUInt64 next_timeout :: epollTimeouts next_timeout retries

namespace TimerManager

variable {Cb : Type}

-- `IOManager::stopping(timeout)`, which also returns `timeout`
def stopping (tm : TimerManager Cb) (now m_pendingEventCount : Nat) (scheduler_stopping : Bool)
    : UInt64 × Bool :=
  let timeout := UInt64.ofNat (tm.getNextTimer now).2
  (timeout, timeout == noTimeout && m_pendingEventCount == 0 && scheduler_stopping)

def idleTimeouts (tm : TimerManager Cb) (now m_pendingEventCount : Nat) (scheduler_stopping : Bool)
    (retries : Nat) : List Int32 :=
  let (next_timeout, stops) := tm.stopping now m_pendingEventCount scheduler_stopping
  if stops then [] else epollTimeouts next_timeout retries

end TimerManager

theorem toInt_min (a b : Int32) : (min a b).toInt = min a.toInt b.toInt := by
  have hmin : min a b = if a ≤ b then a else b := rfl
  rw [hmin]
  split
  . next hle =>
    rw [Int32.le_iff_toInt_le] at hle
    omega
  . next hle =>
    rw [Int32.le_iff_toInt_le] at hle
    omega

theorem toInt_intOfUInt64 (n : UInt64)
    : (intOfUInt64 n).toInt =
        if n.toNat % 2 ^ 32 < 2 ^ 31 then (n.toNat % 2 ^ 32 : Int) else n.toNat % 2 ^ 32 - 2 ^ 32 := by
  have hint : n.toInt64.toInt = n.toBitVec.toInt := rfl
  have hnat : n.toBitVec.toNat = n.toNat := rfl
  unfold intOfUInt64
  rw [Int64.toInt_toInt32, hint, BitVec.toInt_eq_toNat_bmod, hnat, Int.bmod_bmod_of_dvd (by decide),
    Int.bmod_def]
  split <;> omega

theorem toNat_uint64OfInt {i : Int32} (h : 0 ≤ i.toInt) : ((uint64OfInt i).toNat : Int) = i.toInt := by
  have hle : 0 ≤ i.toInt64 := by
    rw [Int64.le_iff_toInt_le, Int32.toInt_toInt64]
    exact h
  unfold uint64OfInt
  rw [Int64.toNat_toUInt64_of_le hle, ← Int64.toNat_toInt, Int32.toInt_toInt64]
  exact Int.toNat_of_nonneg h

theorem intOfUInt64_uint64OfInt (i : Int32) : intOfUInt64 (uint64OfInt i) = i := by
  unfold intOfUInt64 uint64OfInt
  rw [Int64.toInt64_toUInt64, Int32.toInt32_toInt64]

theorem toInt_boundTimeout (n : UInt64)
    : (intOfUInt64 (boundTimeout n)).toInt =
        if n = noTimeout then 3000 else min (intOfUInt64 n).toInt 3000 := by
  have hmax : MAX_TIMEOUT.toInt = 3000 := rfl
  unfold boundTimeout
  by_cases heq : n = noTimeout
  . rw [if_neg (not_not.mpr heq), if_pos heq, intOfUInt64_uint64OfInt, hmax]
  . rw [if_pos heq, if_neg heq, intOfUInt64_uint64OfInt, toInt_min, hmax]

theorem uint64OfInt_boundTimeout (n : UInt64)
    : uint64OfInt (intOfUInt64 (boundTimeout n)) = boundTimeout n := by
  unfold boundTimeout
  split
  . rw [intOfUInt64_uint64OfInt]
  . rw [intOfUInt64_uint64OfInt]

structure TimeoutFits (next_timeout : UInt64) (timeout : Int32) : Prop where
  nonneg : 0 ≤ timeout.toInt
  le_max : timeout.toInt ≤ 3000
  le_next : timeout.toInt ≤ next_timeout.toNat

def Narrows (next_timeout : UInt64) : Prop :=
  next_timeout = noTimeout ∨ next_timeout.toNat % 2 ^ 32 < 2 ^ 31

theorem timeoutFits_boundTimeout_iff (n : UInt64)
    : TimeoutFits n (intOfUInt64 (boundTimeout n)) ↔ Narrows n := by
  have hint := toInt_intOfUInt64 n
  have hbound := toInt_boundTimeout n
  constructor
  . intro h
    by_cases heq : n = noTimeout
    . exact .inl heq
    . rw [if_neg heq] at hbound
      have hnonneg := h.nonneg
      apply Or.inr
      apply Classical.byContradiction
      intro hge
      rw [if_neg hge] at hint
      omega
  . intro h
    by_cases heq : n = noTimeout
    . have hnat : n.toNat = 2 ^ 64 - 1 := by
        rw [heq]
        rfl
      rw [if_pos heq] at hbound
      constructor <;> omega
    . rw [if_pos (h.resolve_left heq)] at hint
      rw [if_neg heq] at hbound
      constructor <;> omega

theorem TimeoutFits.next {n : UInt64} (h : TimeoutFits n (intOfUInt64 (boundTimeout n)))
    : (boundTimeout n).toNat ≤ 3000 ∧ (boundTimeout n).toNat ≤ n.toNat := by
  have hnat := toNat_uint64OfInt h.nonneg
  rw [uint64OfInt_boundTimeout] at hnat
  have hmax := h.le_max
  have hnext := h.le_next
  omega

theorem epollTimeouts_fit {n : UInt64} (h : Narrows n) (retries : Nat)
    : ∀ t ∈ epollTimeouts n retries, TimeoutFits n t := by
  induction retries generalizing n with
  | zero =>
    intro t ht
    rw [List.mem_singleton.mp ht]
    exact (timeoutFits_boundTimeout_iff n).mpr h
  | succ retries ih =>
    have hfits := (timeoutFits_boundTimeout_iff n).mpr h
    have hnext := hfits.next
    intro t ht
    rcases List.mem_cons.mp ht with heq | ht
    . rw [heq]
      exact hfits
    . have hfits' := ih (.inr (by omega)) t ht
      have hle := hfits'.le_next
      exact ⟨hfits'.nonneg, hfits'.le_max, by omega⟩

theorem boundTimeout_mem_epollTimeouts (n : UInt64) (retries : Nat)
    : intOfUInt64 (boundTimeout n) ∈ epollTimeouts n retries := by
  cases retries with
  | zero => exact List.mem_cons_self
  | succ retries => exact List.mem_cons_self

theorem epollTimeouts_fit_iff (n : UInt64) (retries : Nat)
    : (∀ t ∈ epollTimeouts n retries, TimeoutFits n t) ↔ Narrows n := by
  constructor
  . intro h
    rw [← timeoutFits_boundTimeout_iff]
    exact h _ (boundTimeout_mem_epollTimeouts n retries)
  . intro h
    exact epollTimeouts_fit h retries

namespace TimerManager

variable {Cb : Type}

theorem getNextTimer_surjective {ms : Nat} (hms : ms < 2 ^ 64) (cb : Cb)
    : ∃ tm r, (lts Cb).Run (TimerManager.new 0) [(.addTimer 0 ms cb false 0, r)] tm
        ∧ (tm.getNextTimer 0).2 = ms := by
  refine ⟨_, _, .cons rfl (.nil _), ?_⟩
  have hwrap : wrap64 (0 + ms) = ms := by
    rw [Nat.zero_add]
    exact Nat.mod_eq_of_lt hms
  have hnext : ∀ next, (if 0 ≥ next then 0 else next - 0) = next := by
    intro next
    split <;> omega
  exact (hnext _).trans hwrap

theorem idleTimeouts_fit_iff (tm : TimerManager Cb) (now m_pendingEventCount : Nat)
    (scheduler_stopping : Bool) (retries : Nat)
    : (∀ t ∈ tm.idleTimeouts now m_pendingEventCount scheduler_stopping retries,
        TimeoutFits (.ofNat (tm.getNextTimer now).2) t) ↔ Narrows (.ofNat (tm.getNextTimer now).2) := by
  unfold idleTimeouts stopping
  dsimp only
  split
  . next hstops =>
    simp only [Bool.and_eq_true, beq_iff_eq] at hstops
    constructor
    . intro _
      exact .inl hstops.1.1
    . intro _ t ht
      cases ht
  . exact epollTimeouts_fit_iff _ retries

def farTimer : TimerManager Unit where
  heap :=
    [
      {
        addr := 16
        m_recurring := false
        m_ms := 2147483648
        m_next := 1702147483648
        m_cb := some ()
      }
    ]
  m_timers := [0]
  m_tickled := true
  m_previouseTime := 1700000000000

theorem idleTimeouts_far_timer
    : (lts Unit).Run (new 1700000000000)
          [(.addTimer 16 2147483648 () false 1700000000000, .timer 0 true)] farTimer
      ∧ (farTimer.getNextTimer 1700000000000).2 = 2147483648
      ∧ farTimer.idleTimeouts 1700000000000 0 false 0 = [-2147483648]
      ∧ ¬ ∀ t ∈ farTimer.idleTimeouts 1700000000000 0 false 0,
          TimeoutFits (.ofNat (farTimer.getNextTimer 1700000000000).2) t := by
  have htimeouts : farTimer.idleTimeouts 1700000000000 0 false 0 = [-2147483648] := by decide
  refine ⟨.cons rfl (.nil _), by decide, htimeouts, ?_⟩
  intro h
  rw [htimeouts] at h
  exact absurd (h _ List.mem_cons_self).nonneg (by decide)

end TimerManager

end CXS
