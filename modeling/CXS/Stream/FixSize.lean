import Mathlib.Algebra.Group.Nat.Defs
import Mathlib.Algebra.Ring.Int.Defs
import Mathlib.Algebra.Order.BigOperators.Group.List
import Mathlib.Algebra.Order.Group.Int

/-!
This module contains the four loops of `code/stream.cc` that move a fixed number of bytes by calling
the virtual `read` or `write` again and again. A loop is given the results of these calls in order
and yields the calls it makes and what it returns, or that it is still waiting for a result.

The result of a call is an `int`, but the loops keep it in a `size_t`. So `len <= 0` only holds for
`0`, and a negative result moves `offset` back and makes `left` larger.
-/

namespace CXS
namespace Stream

def sizeMod : Nat := 2 ^ 64

def toSize (r : Int) : Nat :=
  (r % sizeMod).toNat

def toInt (n : Nat) : Int :=
  (n : Int).bmod (2 ^ 32)

structure Transfer where
  offset : Nat
  length : Nat
  result : Int
  deriving DecidableEq, Repr

inductive Outcome where
  | returned (ret : Int)
  | waiting
  deriving DecidableEq, Repr

def fixSize (advance : Nat → Int → Nat) (size : Nat) (results : List Int)
    : List Transfer × Outcome :=
  go size 0 results
where
  go (left offset : Nat) (results : List Int) : List Transfer × Outcome :=
    if left > 0 then
      match results with
      | [] => ([], .waiting)
      | r :: results =>
        let len := toSize r
        if len ≤ 0 then
          ([⟨offset, left, r⟩], .returned (toInt len))
        else
          let rest := go ((left + sizeMod - len) % sizeMod) (advance offset r) results
          (⟨offset, left, r⟩ :: rest.1, rest.2)
    else
      ([], .returned (toInt size))

def advanceOffset (offset : Nat) (r : Int) : Nat :=
  (offset + toSize r) % sizeMod

def advanceCursor (cursor : Nat) (r : Int) : Nat :=
  cursor + r.toNat

def readFixSize (size : Nat) (results : List Int) : List Transfer × Outcome :=
  fixSize advanceOffset size results

def readFixSizeByteArray (size : Nat) (results : List Int) : List Transfer × Outcome :=
  fixSize advanceCursor size results

def writeFixSize (size : Nat) (results : List Int) : List Transfer × Outcome :=
  fixSize advanceOffset size results

def writeFixSizeByteArray (size : Nat) (results : List Int) : List Transfer × Outcome :=
  fixSize advanceCursor size results

-- the results a stream can give to a loop that still misses `left` bytes: an `int` that is at most
-- `left`, as long as every result before was positive and bytes are missing
def Delivers (left : Nat) (results : List Int) : Prop :=
  ∀ (pre : List Int) (r : Int) (post : List Int), results = pre ++ r :: post
    → (∀ x ∈ pre, 0 < x) → pre.sum < (left : Int) → -2 ^ 31 ≤ r ∧ r ≤ left - pre.sum

def ranges (size offset : Nat) : List Int → List Transfer
  | [] => []
  | r :: results => ⟨offset, size - offset, r⟩ :: ranges size (offset + r.toNat) results

/--
What the loops are for. The positive results before the loop ends fit into `[offset, size)`. It ends
when they have filled it and returns `ret`, or at the first result that is not positive and returns
that, or it waits because there is no further result.
-/
def Faithful (ret : Int) (size offset : Nat) (results : List Int) (out : List Transfer × Outcome)
    : Prop :=
  ∃ pre post : List Int, results = pre ++ post ∧ (∀ x ∈ pre, 0 < x) ∧ offset + pre.sum ≤ size
    ∧ ((offset + pre.sum = size ∧ out = (ranges size offset pre, .returned ret))
      ∨ (∃ r post', post = r :: post' ∧ offset + pre.sum < size ∧ r ≤ 0
          ∧ out = (ranges size offset (pre ++ [r]), .returned r))
      ∨ (post = [] ∧ offset + pre.sum < size ∧ out = (ranges size offset pre, .waiting)))

def NoError (left : Nat) (results : List Int) : Prop :=
  ∀ (pre : List Int) (r : Int) (post : List Int), results = pre ++ r :: post
    → (∀ x ∈ pre, 0 < x) → pre.sum < (left : Int) → 0 ≤ r

theorem Delivers.head {left : Nat} {r : Int} {results : List Int} (h : Delivers left (r :: results))
    (hleft : 0 < left) : -2 ^ 31 ≤ r ∧ r ≤ left := by
  have := h [] r results rfl (by simp) (by simpa using hleft)
  simpa using this

theorem Delivers.tail {left : Nat} {r : Int} {results : List Int} (h : Delivers left (r :: results))
    (hr : 0 < r) (hle : r ≤ left) : Delivers (left - r.toNat) results := by
  intro pre x post heq hpos hsum
  have := h (r :: pre) x post (by rw [heq]; rfl) (by simpa using ⟨hr, hpos⟩)
    (by rw [List.sum_cons]; omega)
  rw [List.sum_cons] at this
  omega

theorem Delivers.nil (left : Nat) : Delivers left [] := by
  intro pre r post heq
  cases pre with
  | nil => cases heq
  | cons => cases heq

theorem Delivers.cons {left : Nat} {r : Int} {results : List Int} (hge : -2 ^ 31 ≤ r)
    (hle : r ≤ left) (h : 0 < r → Delivers (left - r.toNat) results)
    : Delivers left (r :: results) := by
  intro pre x post heq hpos hsum
  cases pre with
  | nil =>
    injection heq with hx
    rw [← hx, List.sum_nil]
    omega
  | cons y pre =>
    injection heq with hy heq
    subst hy
    have hr : 0 < r := hpos r List.mem_cons_self
    rw [List.sum_cons] at hsum ⊢
    have := h hr pre x post heq (fun z hz => hpos z (List.mem_cons_of_mem r hz)) (by omega)
    omega

theorem noError_cons_iff {left : Nat} {r : Int} {results : List Int} (hr : 0 < r) (hle : r ≤ left)
    : NoError left (r :: results) ↔ NoError (left - r.toNat) results := by
  constructor
  . intro h pre x post heq hpos hsum
    apply h (r :: pre) x post
    . rw [heq]
      rfl
    . simpa using ⟨hr, hpos⟩
    . rw [List.sum_cons]
      omega
  . intro h pre x post heq hpos hsum
    cases pre with
    | nil =>
      injection heq with hx
      omega
    | cons y pre =>
      injection heq with hy heq
      subst hy
      rw [List.sum_cons] at hsum
      apply h pre x post heq
      . intro z hz
        apply hpos
        apply List.mem_cons_of_mem
        assumption
      . omega

theorem faithful_cons_iff {ret : Int} {size offset : Nat} {r : Int} {results : List Int}
    {ts : List Transfer} {o : Outcome} (hr : 0 < r) (hle : r ≤ (size - offset : Nat))
    : Faithful ret size offset (r :: results) (⟨offset, size - offset, r⟩ :: ts, o)
        ↔ Faithful ret size (offset + r.toNat) results (ts, o) := by
  constructor
  . intro h
    obtain ⟨pre, post, heq, hpos, hsum, hout⟩ := h
    cases pre with
    | nil =>
      rw [List.sum_nil] at hsum hout
      rcases hout with ⟨hend, -⟩ | ⟨x, post', hx, -, hneg, -⟩ | ⟨hnil, -, -⟩
      . omega
      . rw [hx] at heq
        injection heq with hrx
        omega
      . rw [hnil] at heq
        cases heq
    | cons y pre =>
      injection heq with hy heq
      subst hy
      rw [List.sum_cons] at hsum
      refine ⟨pre, post, heq, ?_, by omega, ?_⟩
      . intro z hz
        apply hpos
        apply List.mem_cons_of_mem
        assumption
      . rw [List.sum_cons] at hout
        rcases hout with ⟨hend, hout⟩ | ⟨x, post', hx, hlt, hneg, hout⟩ | ⟨hnil, hlt, hout⟩
        . refine .inl ⟨by omega, ?_⟩
          simp only [ranges, Prod.mk.injEq, List.cons.injEq, true_and] at hout
          rw [hout.1, hout.2]
        . refine .inr (.inl ⟨x, post', hx, by omega, hneg, ?_⟩)
          simp only [ranges, List.cons_append, Prod.mk.injEq, List.cons.injEq, true_and] at hout
          rw [hout.1, hout.2]
        . refine .inr (.inr ⟨hnil, by omega, ?_⟩)
          simp only [ranges, Prod.mk.injEq, List.cons.injEq, true_and] at hout
          rw [hout.1, hout.2]
  . intro h
    obtain ⟨pre, post, heq, hpos, hsum, hout⟩ := h
    refine ⟨r :: pre, post, by rw [heq]; rfl, by simpa using ⟨hr, hpos⟩, ?_, ?_⟩
    . rw [List.sum_cons]
      omega
    . rw [List.sum_cons]
      rcases hout with ⟨hend, hout⟩ | ⟨x, post', hx, hlt, hneg, hout⟩ | ⟨hnil, hlt, hout⟩
      . injection hout with hts ho
        refine .inl ⟨by omega, ?_⟩
        rw [hts, ho]
        rfl
      . injection hout with hts ho
        refine .inr (.inl ⟨x, post', hx, by omega, hneg, ?_⟩)
        rw [hts, ho]
        rfl
      . injection hout with hts ho
        refine .inr (.inr ⟨hnil, by omega, ?_⟩)
        rw [hts, ho]
        rfl

section Loop

variable (advance : Nat → Int → Nat) (size : Nat)

theorem toSize_pos {r : Int} (hr : 0 < r) (hr' : r ≤ 2 ^ 31) : toSize r = r.toNat := by
  unfold toSize sizeMod
  omega

theorem toSize_neg {r : Int} (hr : r < 0) (hr' : -2 ^ 31 ≤ r)
    : toSize r = sizeMod - (-r).toNat := by
  unfold toSize sizeMod
  omega

theorem fixSize.go_zero (offset : Nat) (results : List Int)
    : go advance size 0 offset results = ([], .returned (toInt size)) := by
  unfold go
  simp

theorem fixSize.go_negative {left offset : Nat} {r : Int} {results : List Int} (hleft : 0 < left)
    (hbound : left < 2 ^ 31) (hr : r < 0) (hr' : -2 ^ 31 ≤ r)
    : ∃ ts o, go advance size left offset (r :: results) = (⟨offset, left, r⟩ :: ts, o)
        ∧ (ts = [] → o = .waiting) := by
  have hlen := toSize_neg hr hr'
  have hleft' : (left + sizeMod - toSize r) % sizeMod = left + (-r).toNat := by
    rw [hlen]
    unfold sizeMod
    omega
  unfold go
  rw [if_pos hleft]
  dsimp only
  rw [if_neg (by rw [hlen]; unfold sizeMod; omega), hleft']
  refine ⟨_, _, rfl, ?_⟩
  unfold go
  rw [if_pos (by omega)]
  cases results with
  | nil =>
    intro
    rfl
  | cons x results =>
    dsimp only
    split
    . intro h
      cases h
    . intro h
      cases h

theorem fixSize.go_positive {left offset : Nat} {r : Int} {results : List Int}
    (hadvance : advance offset r = offset + r.toNat) (hbound : left < 2 ^ 31) (hr : 0 < r)
    (hle : r ≤ left)
    : go advance size left offset (r :: results)
        = (⟨offset, left, r⟩ ::
            (go advance size (left - r.toNat) (offset + r.toNat) results).1,
          (go advance size (left - r.toNat) (offset + r.toNat) results).2) := by
  have hlen := toSize_pos hr (by omega)
  have hleft : (left + sizeMod - toSize r) % sizeMod = left - r.toNat := by
    rw [hlen]
    unfold sizeMod
    omega
  conv => lhs; unfold go
  rw [if_pos (by omega)]
  dsimp only
  rw [if_neg (by omega), hleft, hadvance]

theorem fixSize.not_faithful_of_negative {offset : Nat} {r : Int} {results : List Int}
    (hoffset : offset < size) (hbound : size < 2 ^ 31) (hr : r < 0) (hr' : -2 ^ 31 ≤ r) (ret : Int)
    : ¬Faithful ret size offset (r :: results)
        (go advance size (size - offset) offset (r :: results)) := by
  intro hfaith
  obtain ⟨ts, o, hgo, hwait⟩ :=
    @go_negative advance size (size - offset) offset r results (by omega) (by omega) hr hr'
  rw [hgo] at hfaith
  obtain ⟨pre, post, heq, hpre, hsum, hout⟩ := hfaith
  cases pre with
  | nil =>
    rw [List.sum_nil] at hsum hout
    rcases hout with ⟨hend, -⟩ | ⟨x, post', -, -, -, hout⟩ | ⟨hnil, -, -⟩
    . omega
    . -- the loop would have stopped at the error
      simp only [List.nil_append, ranges, Prod.mk.injEq, List.cons.injEq] at hout
      rw [hwait hout.1.2] at hout
      cases hout.2
    . rw [hnil] at heq
      cases heq
  | cons y pre =>
    injection heq with hy
    have := hpre y List.mem_cons_self
    omega

theorem fixSize.faithful_of_zero {offset : Nat} (results : List Int) (hoffset : offset < size)
    (ret : Int)
    : Faithful ret size offset (0 :: results)
        (go advance size (size - offset) offset (0 :: results)) := by
  refine ⟨[], 0 :: results, rfl, by simp, by rw [List.sum_nil]; omega, ?_⟩
  refine .inr (.inl ⟨0, results, rfl, by rw [List.sum_nil]; omega, Int.le_refl 0, ?_⟩)
  unfold go
  rw [if_pos (by omega)]
  rfl

theorem noError_zero (left : Nat) (results : List Int) : NoError left (0 :: results) := by
  intro pre x post heq hpre hsum
  cases pre with
  | nil =>
    injection heq with hx
    omega
  | cons y pre =>
    injection heq with hy
    have := hpre y List.mem_cons_self
    omega

theorem fixSize.go_faithful_iff
    (hadvance : ∀ (o : Nat) (r : Int), o ≤ 2 ^ 31 → 0 < r → r ≤ 2 ^ 31
      → advance o r = o + r.toNat)
    (hsize : size < 2 ^ 31) (offset : Nat) (results : List Int) (hoffset : offset ≤ size)
    (hdel : Delivers (size - offset) results)
    : Faithful (toInt size) size offset results (go advance size (size - offset) offset results)
        ↔ NoError (size - offset) results := by
  induction results generalizing offset with
  | nil =>
    constructor
    . intro _ pre r post heq
      cases pre with
      | nil => cases heq
      | cons => cases heq
    . intro _
      refine ⟨[], [], rfl, by simp, by simpa using hoffset, ?_⟩
      by_cases hend : offset = size
      . subst hend
        rw [Nat.sub_self, go_zero]
        refine .inl ⟨by simp, rfl⟩
      . refine .inr (.inr ⟨rfl, by rw [List.sum_nil]; omega, ?_⟩)
        unfold go
        rw [if_pos (by omega)]
        rfl
  | cons r results ih =>
    by_cases hend : offset = size
    . subst hend
      rw [Nat.sub_self, go_zero]
      constructor
      . intro _ pre x post heq hpos hsum
        have := List.sum_nonneg (l := pre) (fun x hx => Int.le_of_lt (hpos x hx))
        omega
      . intro _
        exact ⟨[], r :: results, rfl, by simp, by simp, .inl ⟨by simp, rfl⟩⟩
    . have hr := hdel.head (by omega)
      rcases Int.lt_trichotomy r 0 with hneg | hzero | hpos
      . -- neither side holds: the loop does not stop at the error
        constructor
        . intro hfaith
          exfalso
          exact not_faithful_of_negative advance size (by omega) hsize hneg hr.1 _ hfaith
        . intro hno
          have := hno [] r results rfl (by simp) (by rw [List.sum_nil]; omega)
          omega
      . subst hzero
        constructor
        . intro _
          apply noError_zero
        . intro _
          exact faithful_of_zero advance size results (by omega) _
      . have hsub : size - offset - r.toNat = size - (offset + r.toNat) := by omega
        rw [go_positive advance size (hadvance offset r (by omega) hpos (by omega)) (by omega) hpos
          hr.2]
        rw [faithful_cons_iff hpos hr.2, noError_cons_iff hpos hr.2, hsub]
        apply ih
        . omega
        . rw [← hsub]
          exact hdel.tail hpos hr.2

end Loop

theorem fixSize_faithful_iff (advance : Nat → Int → Nat)
    (hadvance : ∀ (o : Nat) (r : Int), o ≤ 2 ^ 31 → 0 < r → r ≤ 2 ^ 31
      → advance o r = o + r.toNat)
    (n : Nat) (hn : n < 2 ^ 31) (results : List Int) (hdel : Delivers n results)
    : Faithful n n 0 results (fixSize advance n results) ↔ NoError n results := by
  have hret : toInt n = n := by
    unfold toInt
    rw [Int.bmod_eq_of_le (by omega) (by omega)]
  have := fixSize.go_faithful_iff advance n hadvance hn 0 results (Nat.zero_le n) hdel
  rw [hret] at this
  exact this

theorem advanceOffset_eq (o : Nat) (r : Int) (ho : o ≤ 2 ^ 31) (hr : 0 < r) (hr' : r ≤ 2 ^ 31)
    : advanceOffset o r = o + r.toNat := by
  unfold advanceOffset
  rw [toSize_pos hr hr']
  unfold sizeMod
  omega

theorem advanceCursor_eq (o : Nat) (r : Int) (_ : o ≤ 2 ^ 31) (_ : 0 < r) (_ : r ≤ 2 ^ 31)
    : advanceCursor o r = o + r.toNat :=
  rfl

theorem fixSize_loops_faithful_iff (n : Nat) (hn : n ≤ 2147483647) (results : List Int)
    (hdel : Delivers n results)
    : (Faithful n n 0 results (readFixSize n results) ↔ NoError n results)
      ∧ (Faithful n n 0 results (readFixSizeByteArray n results) ↔ NoError n results)
      ∧ (Faithful n n 0 results (writeFixSize n results) ↔ NoError n results)
      ∧ (Faithful n n 0 results (writeFixSizeByteArray n results) ↔ NoError n results) := by
  have hoffset := fixSize_faithful_iff advanceOffset advanceOffset_eq n (by omega) results hdel
  have hcursor := fixSize_faithful_iff advanceCursor advanceCursor_eq n (by omega) results hdel
  exact ⟨hoffset, hcursor, hoffset, hcursor⟩

theorem fixSize_loops_two_results
    : Faithful 4 4 0 [3, 1] (readFixSize 4 [3, 1]) ↔ NoError 4 [3, 1] := by
  apply (fixSize_loops_faithful_iff 4 (by decide) [3, 1] _).1
  apply Delivers.cons (by decide) (by decide)
  intro
  apply Delivers.cons (by decide) (by decide)
  intro
  apply Delivers.nil

theorem readFixSize_after_error
    : Delivers 4 [-1, 5]
      ∧ readFixSize 4 [-1, 5] = ([⟨0, 4, -1⟩, ⟨2 ^ 64 - 1, 5, 5⟩], .returned 4)
      ∧ ¬Faithful 4 4 0 [-1, 5] (readFixSize 4 [-1, 5]) := by
  have hdel : Delivers 4 [-1, 5] := by
    apply Delivers.cons (by decide) (by decide)
    intro h
    cases h
  refine ⟨hdel, by decide, ?_⟩
  intro hfaith
  have hno := (fixSize_faithful_iff advanceOffset advanceOffset_eq 4 (by decide) [-1, 5] hdel).mp
    hfaith
  have := hno [] (-1) [5] rfl (by simp) (by simp)
  omega

end Stream
end CXS
