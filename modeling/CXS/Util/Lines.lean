import Mathlib.Data.List.Basic
import Mathlib.Data.List.DropRight

namespace CXS
namespace Lines

def cr : UInt8 := 13

def lf : UInt8 := 10

def crlf : List UInt8 := [cr, lf]

def consHead (c : UInt8) : List (List UInt8) → List (List UInt8)
  | [] => [[c]]
  | line :: lines => (c :: line) :: lines

def split : List UInt8 → List (List UInt8)
  | [] => [[]]
  | [c] => [[c]]
  | c :: d :: text =>
    if c = cr ∧ d = lf then
      [] :: split text
    else
      consHead c (split (d :: text))

def notEmpty (line : List UInt8) : Bool :=
  !line.isEmpty

def block (text : List UInt8) : List (List UInt8) :=
  (split text).tail.takeWhile notEmpty

def name (line : List UInt8) : List UInt8 :=
  line.takeWhile (· ≠ 58)

def blank (c : UInt8) : Bool :=
  c == 32 || c == 9

def trim (text : List UInt8) : List UInt8 :=
  (text.dropWhile fun c => blank c).rdropWhile fun c => blank c

def value (line : List UInt8) : List UInt8 :=
  trim (line.dropWhile (· ≠ 58)).tail

def lower (c : UInt8) : UInt8 :=
  if 65 ≤ c ∧ c ≤ 90 then c + 32 else c

def named (n : List UInt8) (line : List UInt8) : Bool :=
  line.contains 58 && (name line).map lower == n

def digit (c : UInt8) : Option Nat :=
  if 48 ≤ c ∧ c ≤ 57 then some (c.toNat - 48) else none

def number (text : List UInt8) : Option Nat :=
  if text.isEmpty then none else text.foldlM (fun v c => (digit c).map (10 * v + ·)) 0

def amount : List UInt8 → Option Int
  | [] => none
  | c :: text =>
    if c = 43 then
      (number text).map Int.ofNat
    else if c = 45 then
      (number text).map fun n => -Int.ofNat n
    else
      (number (c :: text)).map Int.ofNat

def decimal (n : Nat) : List UInt8 :=
  (Nat.toDigits 10 n).map fun c => UInt8.ofNat c.toNat

section Split

theorem split_crlf (text : List UInt8) : split (cr :: lf :: text) = [] :: split text := by
  rw [split, if_pos ⟨rfl, rfl⟩]

theorem split_ne_nil (text : List UInt8) : split text ≠ [] := by
  fun_induction split text with
  | case1 => exact List.cons_ne_nil _ _
  | case2 c => exact List.cons_ne_nil _ _
  | case3 c d text h ih => exact List.cons_ne_nil _ _
  | case4 c d text h ih =>
    unfold consHead
    split
    . exact List.cons_ne_nil _ _
    . exact List.cons_ne_nil _ _

theorem split_append_crlf (a b : List UInt8) : split (a ++ crlf ++ b) = split a ++ split b := by
  fun_induction split a with
  | case1 => exact split_crlf b
  | case2 c =>
    have hnot : ¬ (c = cr ∧ cr = lf) := by
      intro h
      exact absurd h.2 (by decide)
    have heq : [c] ++ crlf ++ b = c :: cr :: lf :: b := rfl
    rw [heq, split, if_neg hnot, split_crlf]
    rfl
  | case3 c d text h ih =>
    rw [h.1, h.2]
    rw [List.cons_append, List.cons_append, List.cons_append, List.cons_append, split_crlf, ih]
    rfl
  | case4 c d text h ih =>
    rw [List.cons_append, List.cons_append, List.cons_append, List.cons_append, split, if_neg h]
    rw [List.cons_append, List.cons_append] at ih
    rw [ih]
    cases hsplit : split (d :: text) with
    | nil => exact absurd hsplit (split_ne_nil _)
    | cons line lines => rfl

theorem split_of_not_mem {line : List UInt8} (h : cr ∉ line) : split line = [line] := by
  fun_induction split line with
  | case1 => rfl
  | case2 c => rfl
  | case3 c d text hcr ih =>
    rw [hcr.1] at h
    exact absurd List.mem_cons_self h
  | case4 c d text hcr ih =>
    rw [List.mem_cons, not_or] at h
    rw [ih h.2]
    rfl

theorem split_flatMap {lines : List (List UInt8)} (h : ∀ line ∈ lines, cr ∉ line) (rest : List UInt8)
    : split (lines.flatMap (· ++ crlf) ++ rest) = lines ++ split rest := by
  induction lines with
  | nil => rfl
  | cons line lines ih =>
    rw [List.forall_mem_cons] at h
    rw [List.flatMap_cons, List.append_assoc, split_append_crlf, split_of_not_mem h.1, ih h.2]
    rfl

theorem notEmpty_of_not_mem {lines : List (List UInt8)} (h : [] ∉ lines)
    : ∀ line ∈ lines, notEmpty line = true := by
  intro line hline
  cases line with
  | nil => exact absurd hline h
  | cons c line => rfl

theorem takeWhile_notEmpty_append_of_mem {lines : List (List UInt8)} (h : [] ∈ lines)
    (rest : List (List UInt8))
    : (lines ++ rest).takeWhile notEmpty = lines.takeWhile notEmpty := by
  induction lines with
  | nil => cases h
  | cons line lines ih =>
    cases line with
    | nil => rfl
    | cons c line =>
      rw [List.mem_cons, or_iff_right (List.cons_ne_nil c line).symm] at h
      rw [List.cons_append, List.takeWhile_cons_of_pos rfl, List.takeWhile_cons_of_pos rfl, ih h]

/--
The block of a text that starts with `first`, goes on with `lines` and an empty line, and ends with
anything. The lines that end inside `first` come first, and an empty one among them ends the block.
-/
theorem block_eq (first : List UInt8) {lines : List (List UInt8)} (hcr : ∀ line ∈ lines, cr ∉ line)
    (hempty : [] ∉ lines) (rest : List UInt8)
    : block (first ++ crlf ++ (lines.flatMap (· ++ crlf) ++ (crlf ++ rest)))
        = if [] ∈ (split first).tail then
            (split first).tail.takeWhile notEmpty
          else
            (split first).tail ++ lines := by
  have hrest : split (crlf ++ rest) = [] :: split rest := split_crlf rest
  unfold block
  rw [split_append_crlf, split_flatMap hcr, hrest, List.tail_append_of_ne_nil (split_ne_nil first)]
  split
  . next hmem => exact takeWhile_notEmpty_append_of_mem hmem _
  . next hmem =>
    rw [List.takeWhile_append_of_pos (notEmpty_of_not_mem hmem),
      List.takeWhile_append_of_pos (notEmpty_of_not_mem hempty), List.takeWhile_cons_of_neg,
      List.append_nil]
    exact Bool.false_ne_true

end Split

section Number

theorem digit_digitChar : ∀ d < 10, digit (UInt8.ofNat (Nat.digitChar d).toNat) = some d := by
  decide

theorem foldlM_digit_append_singleton (text : List UInt8) (c : UInt8)
    : (text ++ [c]).foldlM (fun v c => (digit c).map (10 * v + ·)) 0
        = (text.foldlM (fun v c => (digit c).map (10 * v + ·)) 0).bind
            fun v => (digit c).map (10 * v + ·) := by
  rw [List.foldlM_append]
  simp only [List.foldlM_cons, List.foldlM_nil, bind_pure]
  rfl

theorem foldlM_digit_decimal (n : Nat)
    : (decimal n).foldlM (fun v c => (digit c).map (10 * v + ·)) 0 = some n := by
  induction n using Nat.strongRecOn with
  | ind n ih =>
    unfold decimal at ih ⊢
    by_cases hn : n < 10
    . rw [Nat.toDigits_of_lt_base hn]
      simp [digit_digitChar n hn]
    . rw [Nat.toDigits_of_base_le (by decide) (by omega), List.map_append, List.map_singleton,
        foldlM_digit_append_singleton, ih (n / 10) (by omega), Option.bind_some,
        digit_digitChar (n % 10) (Nat.mod_lt n (by decide)), Option.map_some]
      congr 1
      exact Nat.div_add_mod n 10

@[simp]
theorem number_decimal (n : Nat) : number (decimal n) = some n := by
  have hne : (decimal n).isEmpty = false := by
    rw [List.isEmpty_eq_false_iff]
    unfold decimal
    rw [Ne, List.map_eq_nil_iff]
    exact Nat.toDigits_ne_nil
  unfold number
  rw [hne, if_neg Bool.false_ne_true]
  exact foldlM_digit_decimal n

theorem digit_range : ∀ d < 10, 48 ≤ UInt8.ofNat (Nat.digitChar d).toNat
    ∧ UInt8.ofNat (Nat.digitChar d).toNat ≤ 57 := by
  decide

theorem mem_decimal {n : Nat} {c : UInt8} (h : c ∈ decimal n) : 48 ≤ c ∧ c ≤ 57 := by
  induction n using Nat.strongRecOn with
  | ind n ih =>
    unfold decimal at ih h
    by_cases hn : n < 10
    . rw [Nat.toDigits_of_lt_base hn, List.map_singleton, List.mem_singleton] at h
      rw [h]
      exact digit_range n hn
    . rw [Nat.toDigits_of_base_le (by decide) (by omega), List.map_append, List.mem_append,
        List.map_singleton, List.mem_singleton] at h
      rcases h with h | h
      . exact ih (n / 10) (by omega) h
      . rw [h]
        exact digit_range (n % 10) (Nat.mod_lt n (by decide))

theorem amount_decimal (n : Nat) : amount (decimal n) = some (n : Int) := by
  have hnumber := number_decimal n
  cases hdecimal : decimal n with
  | nil =>
    rw [hdecimal] at hnumber
    cases hnumber
  | cons c text =>
    have hrange : 48 ≤ c ∧ c ≤ 57 := by
      apply mem_decimal (n := n)
      rw [hdecimal]
      exact List.mem_cons_self
    rw [hdecimal] at hnumber
    rw [amount, if_neg, if_neg, hnumber]
    . rfl
    . rintro rfl
      exact absurd hrange.1 (by decide)
    . rintro rfl
      exact absurd hrange.1 (by decide)

end Number

section Trim

theorem trim_blank (text : List UInt8) : trim (32 :: text) = trim text := by
  unfold trim
  rw [List.dropWhile_cons_of_pos (by decide)]

theorem trim_of_forall {text : List UInt8} (h : ∀ c ∈ text, blank c = false) : trim text = text := by
  have hleft : text.dropWhile (fun c => blank c) = text := by
    cases text with
    | nil => rfl
    | cons c text =>
      apply List.dropWhile_cons_of_neg
      rw [h c List.mem_cons_self]
      exact Bool.false_ne_true
  unfold trim
  rw [hleft, List.rdropWhile_eq_self_iff]
  intro hne
  rw [h _ (List.getLast_mem hne)]
  exact Bool.false_ne_true

theorem trim_decimal (n : Nat) : trim (decimal n) = decimal n := by
  apply trim_of_forall
  intro c hc
  obtain ⟨hle, -⟩ := mem_decimal hc
  unfold blank
  rw [Bool.or_eq_false_iff, beq_eq_false_iff_ne, beq_eq_false_iff_ne]
  constructor
  . rintro rfl
    exact absurd hle (by decide)
  . rintro rfl
    exact absurd hle (by decide)

end Trim

section Header

variable {n : List UInt8} (v : List UInt8)

def header (n v : List UInt8) : List UInt8 :=
  n ++ [58, 32] ++ v

theorem name_header (hn : 58 ∉ n) : name (header n v) = n := by
  unfold name header
  rw [List.append_assoc, List.takeWhile_append_of_pos]
  . exact List.append_nil n
  . intro c hc
    rw [decide_eq_true_eq]
    intro heq
    rw [heq] at hc
    exact hn hc

theorem value_header (hn : 58 ∉ n) : value (header n v) = trim v := by
  unfold value header
  rw [List.append_assoc, List.dropWhile_append_of_pos]
  . exact trim_blank v
  . intro c hc
    rw [decide_eq_true_eq]
    intro heq
    rw [heq] at hc
    exact hn hc

theorem named_header (m : List UInt8) (hn : 58 ∉ n)
    : named m (header n v) = (n.map lower == m) := by
  have hcolon : (header n v).contains 58 = true := by
    rw [List.contains_iff_mem]
    unfold header
    simp
  unfold named
  rw [hcolon, name_header v hn, Bool.true_and]

end Header

end Lines
end CXS
