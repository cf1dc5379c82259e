import CXS.Util.Bytes

namespace CXS
namespace AddressText

def hexValue (c : Char) : Option Nat :=
  if '0' ≤ c ∧ c ≤ '9' then
    some (c.toNat - '0'.toNat)
  else if 'a' ≤ c ∧ c ≤ 'f' then
    some (c.toNat - 'a'.toNat + 10)
  else if 'A' ≤ c ∧ c ≤ 'F' then
    some (c.toNat - 'A'.toNat + 10)
  else
    none

def hexNumber (s : List Char) : Option Nat :=
  s.foldlM (fun v c => (hexValue c).map (16 * v + ·)) 0

def readGroup (s : List Char) : Option Nat :=
  if 1 ≤ s.length ∧ s.length ≤ 4 then hexNumber s else none

def readGroups (s : List Char) : Option (List Nat) :=
  if s.isEmpty then some [] else (s.splitOn ':').mapM readGroup

def cut : List Char → Option (List Char × List Char)
  | [] => none
  | c :: s =>
    if c = ':' ∧ s.head? = some ':' then
      some ([], s.tail)
    else
      (cut s).map fun (l, r) => (c :: l, r)

def groupsOf (s : List Char) : Option (List Nat) :=
  match cut s with
  | none => (readGroups s).filter fun gs => gs.length == 8
  | some (l, r) =>
    (readGroups l).bind fun l =>
      (readGroups r).bind fun r =>
        if l.length + r.length < 8 then
          some (l ++ List.replicate (8 - l.length - r.length) 0 ++ r)
        else
          none

def octets (gs : List Nat) : List UInt8 :=
  gs.flatMap fun g => [UInt8.ofNat (g / 256), UInt8.ofNat g]

/--
The bytes of the address that a text denotes, in the order of the network.
-/
def read (s : List Char) : Option (List UInt8) :=
  (groupsOf s).map octets

def join (gs : List Nat) : List Char :=
  [':'].intercalate (gs.map (Nat.toDigits 16))

/--
The texts with lower-case digits, no leading zeros and at most one `::`, with the groups they stand for.
-/
inductive Form : List Char → List Nat → Prop where
  | full {gs : List Nat} (hlen : gs.length = 8) (hlt : ∀ g ∈ gs, g < 2 ^ 16) : Form (join gs) gs
  | compressed {l r : List Nat} {zeros : Nat} (hpos : 0 < zeros)
      (hlen : l.length + zeros + r.length = 8) (hl : ∀ g ∈ l, g < 2 ^ 16) (hr : ∀ g ∈ r, g < 2 ^ 16)
    : Form (join l ++ [':', ':'] ++ join r) (l ++ List.replicate zeros 0 ++ r)

section Digits

variable {n : Nat} {c : Char}

theorem hexValue_digitChar : ∀ d < 16, hexValue (Nat.digitChar d) = some d := by
  decide

theorem hexNumber_append_singleton (s : List Char) (c : Char)
    : hexNumber (s ++ [c]) = (hexNumber s).bind fun v => (hexValue c).map (16 * v + ·) := by
  unfold hexNumber
  rw [List.foldlM_append]
  simp only [List.foldlM_cons, List.foldlM_nil, bind_pure]
  rfl

theorem hexNumber_toDigits (n : Nat) : hexNumber (Nat.toDigits 16 n) = some n := by
  induction n using Nat.strongRecOn with
  | ind n ih =>
    by_cases hn : n < 16
    . rw [Nat.toDigits_of_lt_base hn]
      unfold hexNumber
      simp [hexValue_digitChar n hn]
    . rw [Nat.toDigits_of_base_le (by decide) (by omega), hexNumber_append_singleton,
        ih (n / 16) (by omega), Option.bind_some,
        hexValue_digitChar (n % 16) (Nat.mod_lt n (by decide)), Option.map_some]
      congr 1
      exact Nat.div_add_mod n 16

theorem exists_of_mem_toDigits (h : c ∈ Nat.toDigits 16 n) : ∃ d < 16, c = Nat.digitChar d := by
  induction n using Nat.strongRecOn with
  | ind n ih =>
    by_cases hn : n < 16
    . rw [Nat.toDigits_of_lt_base hn, List.mem_singleton] at h
      exact ⟨n, hn, h⟩
    . rw [Nat.toDigits_of_base_le (by decide) (by omega), List.mem_append, List.mem_singleton] at h
      rcases h with h | h
      . exact ih (n / 16) (by omega) h
      . exact ⟨n % 16, Nat.mod_lt n (by decide), h⟩

theorem colon_not_mem_toDigits (n : Nat) : ':' ∉ Nat.toDigits 16 n := by
  intro h
  obtain ⟨d, _, hd⟩ := exists_of_mem_toDigits h
  exact Nat.digitChar_ne ':' (by decide) hd.symm

theorem readGroup_toDigits (h : n < 2 ^ 16) : readGroup (Nat.toDigits 16 n) = some n := by
  have hle : (Nat.toDigits 16 n).length ≤ 4 :=
    (Nat.length_toDigits_le_iff (by decide) (by decide)).mpr h
  unfold readGroup
  rw [if_pos ⟨Nat.length_toDigits_pos, hle⟩]
  exact hexNumber_toDigits n

end Digits

section Join

variable {gs : List Nat} {g g' : Nat} {s w : List Char} {c : Char}

@[simp]
theorem join_nil : join [] = [] := rfl

@[simp]
theorem join_singleton (g : Nat) : join [g] = Nat.toDigits 16 g := by
  simp [join]

theorem join_cons_cons (g g' : Nat) (gs : List Nat)
    : join (g :: g' :: gs) = Nat.toDigits 16 g ++ ':' :: join (g' :: gs) := by
  simp [join]

theorem join_append_singleton (hne : gs ≠ []) (g : Nat)
    : join (gs ++ [g]) = join gs ++ ':' :: Nat.toDigits 16 g := by
  induction gs with
  | nil => exact absurd rfl hne
  | cons g₁ gs ih =>
    cases gs with
    | nil => simp [join_cons_cons]
    | cons g₂ gs =>
      rw [List.cons_append, List.cons_append, join_cons_cons, ← List.cons_append, ih (by simp),
        join_cons_cons]
      simp

theorem join_eq_nil_iff : join gs = [] ↔ gs = [] := by
  cases gs with
  | nil => simp
  | cons g gs =>
    cases gs with
    | nil => simp [Nat.toDigits_ne_nil]
    | cons g' gs => simp [join_cons_cons]

theorem mem_join (h : c ∈ join gs) : c = ':' ∨ ∃ d < 16, c = Nat.digitChar d := by
  induction gs with
  | nil => simp at h
  | cons g gs ih =>
    cases gs with
    | nil =>
      rw [join_singleton] at h
      exact .inr (exists_of_mem_toDigits h)
    | cons g' gs =>
      rw [join_cons_cons, List.mem_append, List.mem_cons] at h
      rcases h with h | h | h
      . exact .inr (exists_of_mem_toDigits h)
      . exact .inl h
      . exact ih h

theorem mapM_readGroup (hlt : ∀ g ∈ gs, g < 2 ^ 16)
    : (gs.map (Nat.toDigits 16)).mapM readGroup = some gs := by
  induction gs with
  | nil => rfl
  | cons g gs ih =>
    rw [List.map_cons, List.mapM_cons, readGroup_toDigits (hlt g List.mem_cons_self),
      ih fun g hg => hlt g (List.mem_cons_of_mem _ hg)]
    rfl

theorem readGroups_join (hlt : ∀ g ∈ gs, g < 2 ^ 16) : readGroups (join gs) = some gs := by
  unfold readGroups
  by_cases hgs : gs = []
  . rw [hgs]
    rfl
  . have hne : join gs ≠ [] := fun h => hgs (join_eq_nil_iff.mp h)
    rw [if_neg (by simpa using hne)]
    unfold join
    rw [List.splitOn_intercalate]
    . exact mapM_readGroup hlt
    . intro l hl
      obtain ⟨g, _, rfl⟩ := List.mem_map.mp hl
      exact colon_not_mem_toDigits g
    . simpa using hgs

end Join

section Cut

variable {gs : List Nat} {w : List Char}

theorem cut_append (hw : ':' ∉ w) (s : List Char)
    : cut (w ++ s) = (cut s).map fun (l, r) => (w ++ l, r) := by
  induction w with
  | nil => simp
  | cons c w ih =>
    have hc : c ≠ ':' := by
      rintro rfl
      exact hw List.mem_cons_self
    rw [List.cons_append, cut, if_neg (fun h => hc h.1),
      ih (fun h => hw (List.mem_cons_of_mem _ h)), Option.map_map]
    rfl

theorem head?_join (g : Nat) (gs : List Nat) (s : List Char)
    : (join (g :: gs) ++ s).head? ≠ some ':' := by
  obtain ⟨c, w, hw⟩ := List.exists_cons_of_ne_nil (Nat.toDigits_ne_nil (n := g) (b := 16))
  have hc : c ≠ ':' := by
    rintro rfl
    apply colon_not_mem_toDigits g
    rw [hw]
    exact List.mem_cons_self
  cases gs with
  | nil =>
    rw [join_singleton, hw]
    simpa using hc
  | cons g' gs =>
    rw [join_cons_cons, hw]
    simpa using hc

theorem cut_join (gs : List Nat) (s : List Char)
    : cut (join gs ++ s) = (cut s).map fun (l, r) => (join gs ++ l, r) := by
  induction gs with
  | nil => simp
  | cons g gs ih =>
    cases gs with
    | nil =>
      rw [join_singleton]
      exact cut_append (colon_not_mem_toDigits g) s
    | cons g' gs =>
      have hcolon : cut (':' :: (join (g' :: gs) ++ s))
          = (cut s).map fun (l, r) => (':' :: (join (g' :: gs) ++ l), r) := by
        rw [cut, if_neg (fun h => head?_join g' gs s h.2), ih, Option.map_map]
        rfl
      rw [join_cons_cons, List.append_assoc, cut_append (colon_not_mem_toDigits g),
        List.cons_append, hcolon, Option.map_map]
      simp [Function.comp_def]

end Cut

theorem groupsOf_form {s : List Char} {gs : List Nat} (h : Form s gs) : groupsOf s = some gs := by
  cases h with
  | full hlen hlt =>
    have hcut : cut (join gs) = none := by
      have := cut_join gs []
      rw [List.append_nil] at this
      rw [this]
      rfl
    unfold groupsOf
    rw [hcut]
    dsimp only
    rw [readGroups_join hlt]
    simp [hlen]
  | @compressed l r zeros hpos hlen hl hr =>
    have hcut : cut (join l ++ [':', ':'] ++ join r) = some (join l, join r) := by
      rw [List.append_assoc, cut_join, List.cons_append, cut, if_pos ⟨rfl, rfl⟩]
      simp
    unfold groupsOf
    rw [hcut]
    dsimp only
    rw [readGroups_join hl, readGroups_join hr, Option.bind_some, Option.bind_some,
      if_pos (by omega), show 8 - l.length - r.length = zeros by omega]

theorem octets_groups {n : Nat} {bs : List UInt8} (h : bs.length = 2 * n)
    : octets ((List.range n).map fun i => ofBytes ((bs.drop (2 * i)).take 2).reverse) = bs := by
  induction n generalizing bs with
  | zero =>
    rw [List.eq_nil_of_length_eq_zero h]
    rfl
  | succ n ih =>
    match bs, h with
    | b :: c :: bs, h =>
      have htail := @ih bs (by simp only [List.length_cons] at h; omega)
      have hhigh : UInt8.ofNat ((c.toNat + 256 * (b.toNat + 256 * 0)) / 256) = b := by
        have hc := c.toNat_lt
        rw [show (c.toNat + 256 * (b.toNat + 256 * 0)) / 256 = b.toNat by omega]
        exact UInt8.ofNat_toNat
      have hlow : UInt8.ofNat (c.toNat + 256 * (b.toNat + 256 * 0)) = c := by
        apply UInt8.toNat_inj.mp
        rw [UInt8.toNat_ofNat']
        have hc := c.toNat_lt
        omega
      rw [List.range_succ_eq_map, List.map_cons, List.map_map]
      unfold octets at htail ⊢
      rw [List.flatMap_cons]
      simp only [Nat.mul_zero, List.drop_zero, List.take_succ_cons, List.take_zero,
        List.reverse_cons, List.reverse_nil, List.nil_append, List.cons_append, ofBytes, hhigh,
        hlow]
      exact congrArg (fun s => b :: c :: s) htail

end AddressText
end CXS
