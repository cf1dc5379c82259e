import Mathlib.Data.List.Basic

namespace List

variable {α : Type u}

theorem take_drop_append_take_drop (xs : List α) (p k l : Nat)
    : (xs.drop p).take k ++ (xs.drop (p + k)).take l = (xs.drop p).take (k + l) := by
  rw [← drop_drop, ← take_add]

def overwrite (xs : List α) (p : Nat) (ys : List α) : List α :=
  xs.take p ++ ys ++ xs.drop (p + ys.length)

@[simp]
theorem overwrite_nil (xs : List α) (p : Nat) : xs.overwrite p [] = xs := by
  simp [overwrite]

theorem length_overwrite {xs ys : List α} {p : Nat} (h : p + ys.length ≤ xs.length)
    : (xs.overwrite p ys).length = xs.length := by
  simp only [overwrite, length_append, length_take, length_drop]
  omega

theorem take_overwrite {xs ys : List α} {p : Nat} (h : p ≤ xs.length)
    : (xs.overwrite p ys).take (p + ys.length) = xs.take p ++ ys := by
  have hlen : (xs.take p ++ ys).length = p + ys.length := by
    simp only [length_append, length_take]
    omega
  unfold overwrite
  rw [take_append_of_le_length (by omega)]
  rw [take_of_length_le (by omega)]

theorem drop_overwrite {xs ys : List α} {p : Nat} (h : p ≤ xs.length)
    : (xs.overwrite p ys).drop (p + ys.length) = xs.drop (p + ys.length) := by
  have hlen : (xs.take p ++ ys).length = p + ys.length := by
    simp only [length_append, length_take]
    omega
  unfold overwrite
  rw [← hlen, drop_left]

theorem overwrite_overwrite {xs ys zs : List α} {p : Nat} (h : p ≤ xs.length)
    : (xs.overwrite p ys).overwrite (p + ys.length) zs = xs.overwrite p (ys ++ zs) := by
  rw [overwrite, take_overwrite h, ← drop_drop, drop_overwrite h, drop_drop, overwrite]
  simp only [append_assoc, length_append, Nat.add_assoc]

theorem overwrite_overwrite_of_le {xs ys zs : List α} {p k : Nat} (h : p + ys.length ≤ xs.length)
    (hk : k ≤ ys.length) (hz : k + zs.length = ys.length)
    : (xs.overwrite p ys).overwrite (p + k) zs = xs.overwrite p (ys.take k ++ zs) := by
  obtain ⟨as, bs, rfl, rfl⟩ : ∃ as bs, ys = as ++ bs ∧ k = as.length :=
    ⟨ys.take k, ys.drop k, (take_append_drop k ys).symm, by rw [length_take]; omega⟩
  have hbs : zs.length = bs.length := by
    rw [length_append] at hz
    omega
  have hlen : (xs.take p ++ as).length = p + as.length := by
    simp only [length_append, length_take]
    rw [length_append] at h
    omega
  rw [take_left]
  unfold overwrite
  rw [← append_assoc (xs.take p) as bs, append_assoc (xs.take p ++ as), ← hlen, take_left]
  rw [← drop_drop, drop_left, hbs, drop_left]
  simp only [append_assoc, length_append, hbs]

theorem overwrite_append {xs ws ys : List α} {p : Nat} (h : p + ys.length ≤ xs.length)
    : (xs ++ ws).overwrite p ys = xs.overwrite p ys ++ ws := by
  unfold overwrite
  rw [take_append_of_le_length (by omega)]
  rw [drop_append_of_le_length (by omega)]
  simp only [append_assoc]

theorem overwrite_append_right {xs ws ys : List α} {p : Nat}
    : (ws ++ xs).overwrite (ws.length + p) ys = ws ++ xs.overwrite p ys := by
  simp only [overwrite, take_append, drop_append]
  rw [take_of_length_le (by omega)]
  rw [drop_of_length_le (by omega)]
  have h1 : ws.length + p - ws.length = p := by omega
  have h2 : ws.length + p + ys.length - ws.length = p + ys.length := by omega
  rw [h1, h2]
  simp only [append_assoc, nil_append]

theorem take_overwrite_append {xs ws ys : List α} {p n : Nat} (hp : p ≤ xs.length)
    (hn : n ≤ max xs.length (p + ys.length))
    : ((xs ++ ws).overwrite p ys).take n = (xs.overwrite p ys).take n := by
  have hdrop : (xs ++ ws).drop (p + ys.length)
      = xs.drop (p + ys.length) ++ ws.drop (p + ys.length - xs.length) := drop_append
  unfold overwrite
  rw [take_append_of_le_length hp, hdrop, ← append_assoc]
  rw [take_append_of_le_length]
  simp only [length_append, length_take, length_drop]
  omega

theorem overwrite_zero_of_length_le {xs ys : List α} (h : xs.length ≤ ys.length)
    : xs.overwrite 0 ys = ys := by
  unfold overwrite
  rw [drop_of_length_le (by omega)]
  simp

theorem filterMap_getElem?_range' (xs : List α) (p n : Nat)
    : (range' p n).filterMap (xs[·]?) = (xs.drop p).take n := by
  induction n generalizing p with
  | zero => simp
  | succ n ih =>
    rw [range'_succ, filterMap_cons, ih]
    by_cases hp : p < xs.length
    . rw [getElem?_eq_getElem hp, drop_eq_getElem_cons hp]
      rfl
    . rw [getElem?_eq_none (by omega)]
      rw [drop_of_length_le (by omega), drop_of_length_le (by omega)]
      simp

theorem range'_append_eq {xs : List Nat} {s l p n : Nat} (hl : 0 < l)
    (h : range' s l ++ xs = range' p n) : s = p ∧ xs = range' (p + l) (n - l) := by
  have hlen := congrArg length h
  simp only [length_append, length_range'] at hlen
  have hs : s = p := by
    have hhead := congrArg head? h
    rw [show l = (l - 1) + 1 by omega, show n = (n - 1) + 1 by omega] at hhead
    rw [range'_succ, range'_succ] at hhead
    injection hhead
  subst hs
  have hsplit := @range'_append_1 s l (n - l)
  rw [show l + (n - l) = n by omega, ← h] at hsplit
  exact ⟨rfl, (append_cancel_left hsplit).symm⟩

end List

def Chunked {α : Type u} (b : Nat) (xs : List (List α)) : Prop :=
  ∀ x ∈ xs, x.length = b

namespace Chunked

variable {α : Type u} {b : Nat} {xs : List (List α)}

theorem tail {x : List α} (h : Chunked b (x :: xs)) : Chunked b xs := by
  intro y hy
  exact h y (List.mem_cons_of_mem x hy)

theorem head {x : List α} (h : Chunked b (x :: xs)) : x.length = b :=
  h x List.mem_cons_self

theorem length_flatten (h : Chunked b xs) : xs.flatten.length = xs.length * b := by
  induction xs with
  | nil => simp
  | cons x xs ih =>
    have hx := h.head
    have hxs := ih h.tail
    simp only [List.flatten_cons, List.length_append, List.length_cons, hx, hxs]
    rw [Nat.succ_mul]
    omega

theorem drop_flatten (h : Chunked b xs) (i : Nat)
    : xs.flatten.drop (i * b) = (xs.drop i).flatten := by
  induction xs generalizing i with
  | nil => simp
  | cons x xs ih =>
    cases i with
    | zero => simp
    | succ i =>
      rw [List.flatten_cons, List.drop_succ_cons, ← ih h.tail]
      rw [List.drop_append, h.head]
      rw [List.drop_of_length_le (by rw [h.head, Nat.succ_mul]; omega)]
      have : (i + 1) * b - b = i * b := by
        rw [Nat.succ_mul]
        omega
      rw [this]
      simp

theorem take_flatten (h : Chunked b xs) (i : Nat)
    : xs.flatten.take (i * b) = (xs.take i).flatten := by
  induction xs generalizing i with
  | nil => simp
  | cons x xs ih =>
    cases i with
    | zero => simp
    | succ i =>
      rw [List.flatten_cons, List.take_succ_cons, List.flatten_cons, ← ih h.tail]
      rw [List.take_append, h.head]
      rw [List.take_of_length_le (by rw [h.head, Nat.succ_mul]; omega)]
      have : (i + 1) * b - b = i * b := by
        rw [Nat.succ_mul]
        omega
      rw [this]

theorem drop_flatten_offset (h : Chunked b xs) {i r : Nat} {x : List α} (hx : xs[i]? = some x)
    (hr : r ≤ b)
    : xs.flatten.drop (i * b + r) = x.drop r ++ (xs.drop (i + 1)).flatten := by
  have hi : i < xs.length := (List.getElem?_eq_some_iff.mp hx).1
  have hxlen : x.length = b := h x (List.mem_of_getElem? hx)
  rw [← List.drop_drop, h.drop_flatten, List.drop_eq_getElem_cons hi]
  have : xs[i] = x := (List.getElem?_eq_some_iff.mp hx).2
  rw [this, List.flatten_cons]
  rw [List.drop_append_of_le_length (by omega)]

theorem flatten_set_overwrite (h : Chunked b xs) {i r : Nat} {x ys : List α}
    (hx : xs[i]? = some x) (hr : r + ys.length ≤ b)
    : (xs.set i (x.overwrite r ys)).flatten = xs.flatten.overwrite (i * b + r) ys := by
  have hi : i < xs.length := (List.getElem?_eq_some_iff.mp hx).1
  have hxi : xs[i] = x := (List.getElem?_eq_some_iff.mp hx).2
  have hxlen : x.length = b := h x (List.mem_of_getElem? hx)
  have htake : Chunked b (xs.take i) := fun y hy => h y (List.mem_of_mem_take hy)
  have hlen : (xs.take i).flatten.length = i * b := by
    rw [htake.length_flatten, List.length_take]
    rw [Nat.min_eq_left (by omega)]
  have hsplit : xs.flatten = (xs.take i).flatten ++ (x ++ (xs.drop (i + 1)).flatten) := by
    conv => lhs; rw [← List.take_append_drop i xs]
    rw [List.drop_eq_getElem_cons hi, hxi]
    simp
  rw [List.set_eq_take_append_cons_drop, if_pos hi]
  rw [List.flatten_append, List.flatten_cons, hsplit, ← hlen]
  rw [List.overwrite_append_right, List.overwrite_append (by omega)]

end Chunked
