import Mathlib.Algebra.Group.Nat.Defs
import Mathlib.Algebra.Group.Int.Defs

namespace CXS

structure Timespec where
  tv_sec : Int64
  tv_nsec : Int64
  sec_nonneg : 0 ≤ tv_sec
  nsec_nonneg : 0 ≤ tv_nsec
  nsec_lt : tv_nsec < 1000000000

namespace Sleep

inductive Call (α : Type) where
  | origin (arg : α)
  | addTimer (ms : UInt64)

-- `unsigned int`, widened after the product
def sleep (t_hook_enable : Bool) (seconds : UInt32) : Call UInt32 :=
  if !t_hook_enable then
    .origin seconds
  else
    .addTimer (seconds * 1000).toUInt64

def usleep (t_hook_enable : Bool) (usec : UInt32) : Call UInt32 :=
  if !t_hook_enable then
    .origin usec
  else
    .addTimer (usec / 1000).toUInt64

-- a signed result that does not fit is undefined
def signed (n : Int) : Option Int64 :=
  if -2 ^ 63 ≤ n ∧ n < 2 ^ 63 then
    some (Int64.ofInt n)
  else
    none

-- the sum is a `long`, `timeout_ms` an `int` and the parameter of `addTimer` a `uint64_t`
def nanosleep (t_hook_enable : Bool) (req : Timespec) : Option (Call Timespec) :=
  if !t_hook_enable then
    some (.origin req)
  else
    match signed (req.tv_sec.toInt * 1000) with
    | none => none
    | some ms =>
      match signed (ms.toInt + (req.tv_nsec / 1000000).toInt) with
      | none => none
      | some ms =>
        let timeout_ms : Int32 := ms.toInt32
        some (.addTimer timeout_ms.toInt64.toUInt64)

/-- The call ends in a timer that is not set to run before `ns` nanoseconds are over. -/
def Delays {α : Type} (call : Option (Call α)) (ns : Nat) : Prop :=
  ∃ ms : UInt64, call = some (.addTimer ms) ∧ ns ≤ ms.toNat * 10 ^ 6

theorem delays_addTimer {α : Type} (ms : UInt64) (ns : Nat)
    : Delays (some (Call.addTimer (α := α) ms)) ns ↔ ns ≤ ms.toNat * 10 ^ 6 := by
  constructor
  . intro ⟨ms', h, hle⟩
    cases h
    exact hle
  . intro h
    exact ⟨ms, rfl, h⟩

theorem sleep_delays_iff (seconds : UInt32)
    : Delays (some (sleep true seconds)) (seconds.toNat * 10 ^ 9)
        ↔ seconds.toNat * 1000 < 2 ^ 32 := by
  have hms : ((seconds * 1000).toUInt64).toNat = seconds.toNat * 1000 % 2 ^ 32 := by
    rw [UInt32.toNat_toUInt64, UInt32.toNat_mul]
    rfl
  unfold sleep
  rw [if_neg (by decide), delays_addTimer, hms]
  omega

theorem usleep_delays_iff (usec : UInt32)
    : Delays (some (usleep true usec)) (usec.toNat * 10 ^ 3) ↔ 1000 ∣ usec.toNat := by
  have hms : ((usec / 1000).toUInt64).toNat = usec.toNat / 1000 := by
    rw [UInt32.toNat_toUInt64, UInt32.toNat_div]
    rfl
  unfold usleep
  rw [if_neg (by decide), delays_addTimer, hms]
  omega

end Sleep

namespace Timespec

variable (req : Timespec)

def sec : Nat :=
  req.tv_sec.toInt.toNat

def nsec : Nat :=
  req.tv_nsec.toInt.toNat

def ms : Nat :=
  req.sec * 1000 + req.nsec / 10 ^ 6

theorem toInt_tv_sec : req.tv_sec.toInt = req.sec := by
  have h := Int64.le_iff_toInt_le.mp req.sec_nonneg
  have h0 : (0 : Int64).toInt = 0 := rfl
  unfold sec
  omega

theorem toInt_tv_nsec : req.tv_nsec.toInt = req.nsec := by
  have h := Int64.le_iff_toInt_le.mp req.nsec_nonneg
  have h0 : (0 : Int64).toInt = 0 := rfl
  unfold nsec
  omega

theorem nsec_lt_second : req.nsec < 10 ^ 9 := by
  have h := Int64.lt_iff_toInt_lt.mp req.nsec_lt
  have h9 : (1000000000 : Int64).toInt = 1000000000 := rfl
  rw [toInt_tv_nsec] at h
  omega

theorem toInt_tv_nsec_div : (req.tv_nsec / 1000000).toInt = (req.nsec / 10 ^ 6 : Nat) := by
  have hlt := req.nsec_lt_second
  have h6 : (1000000 : Int64).toInt = (10 ^ 6 : Nat) := rfl
  rw [Int64.toInt_div, toInt_tv_nsec, h6, ← Int.ofNat_tdiv]
  apply Int.bmod_eq_of_le <;> omega

end Timespec

namespace Sleep

theorem signed_natCast (n : Nat)
    : signed n = if n < 2 ^ 63 then some (Int64.ofInt n) else none := by
  unfold signed
  split <;> split <;> first | rfl | omega

theorem toNat_wrap (ms : Nat) (h : ms < 2 ^ 63)
    : (Int64.ofInt ms).toInt32.toInt64.toUInt64.toNat
        = if ms % 2 ^ 32 < 2 ^ 31 then ms % 2 ^ 32 else ms % 2 ^ 32 + (2 ^ 64 - 2 ^ 32) := by
  have hint : (Int64.ofInt ms).toInt32.toInt64.toInt = (ms : Int).bmod (2 ^ 32) := by
    rw [Int32.toInt_toInt64, Int64.toInt_toInt32, Int64.toInt_ofInt_of_le (by omega) (by omega)]
  have hbits := BitVec.toInt_eq_toNat_cond (Int64.ofInt ms).toInt32.toInt64.toBitVec
  have hlt := (Int64.ofInt ms).toInt32.toInt64.toBitVec.isLt
  rw [Int64.toInt_toBitVec, hint] at hbits
  rw [← Int64.toNat_toBitVec]
  have hmod : (ms : Int).bmod (2 ^ 32)
      = if ms % 2 ^ 32 < 2 ^ 31 then (ms : Int) % 2 ^ 32 else (ms : Int) % 2 ^ 32 - 2 ^ 32 := by
    rw [Int.bmod_def]
    split <;> split <;> omega
  rw [hmod] at hbits
  split at hbits <;> split at hbits <;> split <;> omega

theorem nanosleep_eq (req : Timespec)
    : nanosleep true req
        = if req.ms < 2 ^ 63 then some (.addTimer (Int64.ofInt req.ms).toInt32.toInt64.toUInt64)
          else none := by
  have hms : req.ms = req.sec * 1000 + req.nsec / 10 ^ 6 := rfl
  unfold nanosleep
  rw [if_neg (by decide), Timespec.toInt_tv_sec, Timespec.toInt_tv_nsec_div]
  have hmul : (req.sec : Int) * 1000 = (req.sec * 1000 : Nat) := by omega
  rw [hmul, signed_natCast]
  by_cases hsec : req.sec * 1000 < 2 ^ 63
  . rw [if_pos hsec]
    dsimp only
    rw [Int64.toInt_ofInt_of_le (by omega) (by omega), ← Int.natCast_add, signed_natCast, ← hms]
    by_cases hfits : req.ms < 2 ^ 63
    . rw [if_pos hfits, if_pos hfits]
    . rw [if_neg hfits, if_neg hfits]
  . rw [if_neg hsec, if_neg (by omega)]

theorem nanosleep_delays_iff (req : Timespec)
    : Delays (nanosleep true req) (req.sec * 10 ^ 9 + req.nsec)
        ↔ (req.ms < 2 ^ 31 ∧ 10 ^ 6 ∣ req.nsec)
          ∨ (req.ms < 2 ^ 63 ∧ 2 ^ 31 ≤ req.ms % 2 ^ 32) := by
  have hnsec := req.nsec_lt_second
  have hms : req.ms = req.sec * 1000 + req.nsec / 10 ^ 6 := rfl
  rw [nanosleep_eq]
  by_cases hfits : req.ms < 2 ^ 63
  . rw [if_pos hfits, delays_addTimer, toNat_wrap req.ms hfits]
    split <;> omega
  . rw [if_neg hfits]
    constructor
    . intro ⟨ms, h, _⟩
      cases h
    . intro h
      omega

theorem sleeps_delay_iff (seconds usec : UInt32) (req : Timespec)
    : (Delays (some (sleep true seconds)) (seconds.toNat * 10 ^ 9)
        ↔ seconds.toNat * 1000 < 2 ^ 32)
      ∧ (Delays (some (usleep true usec)) (usec.toNat * 10 ^ 3) ↔ 1000 ∣ usec.toNat)
      ∧ (Delays (nanosleep true req) (req.sec * 10 ^ 9 + req.nsec)
          ↔ (req.ms < 2 ^ 31 ∧ 10 ^ 6 ∣ req.nsec)
            ∨ (req.ms < 2 ^ 63 ∧ 2 ^ 31 ≤ req.ms % 2 ^ 32)) :=
  ⟨sleep_delays_iff seconds, usleep_delays_iff usec, nanosleep_delays_iff req⟩

theorem sleeps_shorter
    : sleep true 4294968 = .addTimer 704
      ∧ ¬ Delays (some (sleep true 4294968)) ((4294968 : UInt32).toNat * 10 ^ 9)
      ∧ ¬ Delays (some (usleep true 999)) ((999 : UInt32).toNat * 10 ^ 3)
      ∧ ¬ Delays (nanosleep true ⟨0, 999999, by decide, by decide, by decide⟩) 999999 := by
  refine ⟨rfl, ?_, ?_, ?_⟩
  . rw [sleep_delays_iff]
    decide
  . rw [usleep_delays_iff]
    decide
  . have h := nanosleep_delays_iff ⟨0, 999999, by decide, by decide, by decide⟩
    intro hdelays
    exact absurd (h.mp hdelays) (by decide)

end Sleep

end CXS
