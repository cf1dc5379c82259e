import Mathlib.Algebra.Group.Nat.Defs

namespace CXS

def roundDiv (n d : Nat) : Nat :=
  if d < 2 * (n % d) ∨ d = 2 * (n % d) ∧ n / d % 2 = 1 then n / d + 1 else n / d

theorem roundDiv_le (n d : Nat) : roundDiv n d ≤ n / d + 1 := by
  unfold roundDiv
  split <;> omega

def significand (p v : Nat) : Nat :=
  if v.log2 < p then
    v * 2 ^ (p - 1 - v.log2)
  else
    roundDiv v (2 ^ (v.log2 - (p - 1)))

/--
The bits of `v` in the format with `p` significant bits and the given bias. A significand that is
rounded up to the next power of two carries into the exponent.
-/
def binaryOfNat (p bias v : Nat) : Nat :=
  if v = 0 then
    0
  else
    (bias + v.log2) * 2 ^ (p - 1) + (significand p v - 2 ^ (p - 1))

example : binaryOfNat 24 127 1 = 0x3f800000 := by decide
example : binaryOfNat 24 127 16777217 = 0x4b800000 := by decide
example : binaryOfNat 24 127 4294967295 = 0x4f800000 := by decide

variable {p bias v : Nat}

theorem significand_le (hp : 0 < p) : significand p v ≤ 2 ^ p := by
  have hhigh := @Nat.lt_log2_self v
  unfold significand
  split
  . next hsmall =>
    have hsplit : 2 ^ p = 2 ^ (v.log2 + 1) * 2 ^ (p - 1 - v.log2) := by
      rw [← Nat.pow_add]
      congr 1
      omega
    rw [hsplit]
    apply Nat.mul_le_mul_right
    omega
  . next hlarge =>
    have hsplit : 2 ^ (v.log2 + 1) = 2 ^ (v.log2 - (p - 1)) * 2 ^ p := by
      rw [← Nat.pow_add]
      congr 1
      omega
    have hdiv : v / 2 ^ (v.log2 - (p - 1)) < 2 ^ p := by
      apply Nat.div_lt_of_lt_mul
      omega
    have := roundDiv_le v (2 ^ (v.log2 - (p - 1)))
    omega

theorem binaryOfNat_ge (hv : v ≠ 0) : (bias + v.log2) * 2 ^ (p - 1) ≤ binaryOfNat p bias v := by
  unfold binaryOfNat
  rw [if_neg hv]
  omega

theorem binaryOfNat_le (hp : 0 < p) (hv : v ≠ 0)
    : binaryOfNat p bias v ≤ (bias + v.log2 + 1) * 2 ^ (p - 1) := by
  have hle := @significand_le p v hp
  have hsplit : 2 ^ p = 2 ^ (p - 1) + 2 ^ (p - 1) := by
    rw [← Nat.two_mul, ← Nat.pow_succ']
    congr 1
    omega
  unfold binaryOfNat
  rw [if_neg hv, Nat.succ_mul]
  omega

end CXS
