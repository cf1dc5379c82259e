import Mathlib.Algebra.Group.Nat.Defs
import Mathlib.Data.List.Basic

namespace CXS

def bytesOf : Nat → Nat → List UInt8
  | 0, _ => []
  | n + 1, v => UInt8.ofNat v :: bytesOf n (v / 256)

def ofBytes : List UInt8 → Nat
  | [] => 0
  | b :: bs => b.toNat + 256 * ofBytes bs

@[simp]
theorem length_bytesOf (n v : Nat) : (bytesOf n v).length = n := by
  induction n generalizing v with
  | zero => rfl
  | succ n ih =>
    unfold bytesOf
    rw [List.length_cons, ih]

theorem ofBytes_lt (bs : List UInt8) : ofBytes bs < 256 ^ bs.length := by
  induction bs with
  | nil => decide
  | cons b bs ih =>
    have hb := b.toNat_lt
    unfold ofBytes
    rw [List.length_cons, Nat.pow_succ]
    omega

theorem ofBytes_bytesOf (n v : Nat) (h : v < 256 ^ n) : ofBytes (bytesOf n v) = v := by
  induction n generalizing v with
  | zero =>
    rw [Nat.pow_zero] at h
    have : v = 0 := by omega
    subst this
    rfl
  | succ n ih =>
    rw [Nat.pow_succ] at h
    unfold bytesOf ofBytes
    rw [ih (v / 256) (by omega), UInt8.toNat_ofNat']
    omega

theorem bytesOf_ofBytes (bs : List UInt8) : bytesOf bs.length (ofBytes bs) = bs := by
  induction bs with
  | nil => rfl
  | cons b bs ih =>
    have hb := b.toNat_lt
    unfold ofBytes
    rw [List.length_cons]
    unfold bytesOf
    have hdiv : (b.toNat + 256 * ofBytes bs) / 256 = ofBytes bs := by omega
    have hlow : UInt8.ofNat (b.toNat + 256 * ofBytes bs) = b := by
      apply UInt8.toNat_inj.mp
      rw [UInt8.toNat_ofNat']
      omega
    rw [hdiv, ih, hlow]

theorem testBit_ofBytes (bs : List UInt8) (i : Nat)
    : (ofBytes bs).testBit i = (bs.getD (i / 8) 0).toNat.testBit (i % 8) := by
  induction bs generalizing i with
  | nil => simp [ofBytes]
  | cons b bs ih =>
    have hb : b.toNat < 2 ^ 8 := b.toNat_lt
    have hcons : ofBytes (b :: bs) = b.toNat + 256 * ofBytes bs := rfl
    have hsum : ofBytes (b :: bs) = 2 ^ 8 * ofBytes bs + b.toNat := by
      omega
    rw [hsum, Nat.testBit_two_pow_mul_add _ hb]
    split
    . next hlt =>
      rw [Nat.div_eq_of_lt hlt, Nat.mod_eq_of_lt hlt]
      rfl
    . next hge =>
      have hdiv : i / 8 = (i - 8) / 8 + 1 := by omega
      have hmod : i % 8 = (i - 8) % 8 := by omega
      rw [ih, hdiv, hmod, List.getD_cons_succ]

theorem getElem?_bytesOf {n i : Nat} (v : Nat) (hi : i < n)
    : (bytesOf n v)[i]? = some (UInt8.ofNat (v / 256 ^ i)) := by
  induction n generalizing i v with
  | zero => omega
  | succ n ih =>
    unfold bytesOf
    cases i with
    | zero =>
      rw [Nat.pow_zero, Nat.div_one]
      rfl
    | succ i =>
      rw [List.getElem?_cons_succ, ih (v / 256) (by omega), Nat.div_div_eq_div_mul,
        Nat.pow_succ, Nat.mul_comm]

theorem testBit_bytesOf {n i k : Nat} (v : Nat) (hi : i < n) (hk : k < 8)
    : ((bytesOf n v).getD i 0).toNat.testBit k = v.testBit (8 * i + k) := by
  rw [List.getD_eq_getElem?_getD, getElem?_bytesOf v hi, Option.getD_some, UInt8.toNat_ofNat',
    Nat.testBit_mod_two_pow, decide_eq_true hk, Bool.true_and, show 256 ^ i = 2 ^ (8 * i) by
      rw [Nat.pow_mul], Nat.testBit_div_two_pow, Nat.add_comm]

theorem forall_byte {P : UInt8 → Prop} (h : ∀ n : Fin 256, P (UInt8.ofNat n)) (b : UInt8) : P b := by
  have hb := h ⟨b.toNat, b.toNat_lt⟩
  rw [UInt8.ofNat_toNat] at hb
  exact hb

theorem forall_mem_of_all {P : UInt8 → Prop} [DecidablePred P] {text : List UInt8}
    (h : text.all (fun b => decide (P b)) = true)
    : ∀ b ∈ text, P b := by
  intro b hb
  exact of_decide_eq_true (List.all_eq_true.mp h b hb)

end CXS
