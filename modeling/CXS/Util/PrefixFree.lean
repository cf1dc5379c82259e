import Mathlib.Data.List.Infix
import Mathlib.Data.List.Find

universe u v

namespace PrefixFree

variable {ε : Type u} {α : Type v}

theorem start_append_cons {word key rest : List α} {c : α}
    : word <+: key ++ c :: rest
      ↔ word <+: key ∨ ∃ tail, word = key ++ c :: tail ∧ tail <+: rest := by
  constructor
  . intro h
    rcases List.prefix_or_prefix_of_prefix h (List.prefix_append key (c :: rest)) with hle | hle
    . exact .inl hle
    . obtain ⟨tail, rfl⟩ := hle
      rw [List.prefix_append_right_inj] at h
      cases tail with
      | nil => exact .inl (by rw [List.append_nil])
      | cons d tail =>
        rw [List.cons_prefix_cons] at h
        exact .inr ⟨tail, by rw [h.1], h.2⟩
  . rintro (h | ⟨tail, rfl, h⟩)
    . exact h.trans (List.prefix_append key (c :: rest))
    . rw [List.prefix_append_right_inj, List.cons_prefix_cons]
      exact ⟨rfl, h⟩

def Free (table : List ε) (name : ε → List α) : Prop :=
  ∀ entry ∈ table, ∀ other ∈ table, name entry <+: name other → entry = other

theorem Free.unique {table : List ε} {name : ε → List α} (hfree : Free table name) {text : List α}
    {entry other : ε} (hentry : entry ∈ table) (hother : other ∈ table) (h : name entry <+: text)
    (h' : name other <+: text) : entry = other := by
  rcases List.prefix_or_prefix_of_prefix h h' with hle | hle
  . exact hfree entry hentry other hother hle
  . exact (hfree other hother entry hentry hle).symm

variable [DecidableEq α]

def byName (table : List ε) (name : ε → List α) (key : List α) : Option ε :=
  table.find? (fun entry => name entry == key)

def byStart (table : List ε) (name : ε → List α) (text : List α) : Option ε :=
  table.find? (fun entry => (name entry).isPrefixOf text)

variable {table : List ε} {name : ε → List α} {key text : List α} {entry : ε}

theorem byName_eq_some (h : byName table name key = some entry) : entry ∈ table ∧ name entry = key := by
  refine ⟨List.mem_of_find?_eq_some h, ?_⟩
  simpa using List.find?_some h

theorem byStart_eq_some (h : byStart table name text = some entry)
    : entry ∈ table ∧ name entry <+: text := by
  refine ⟨List.mem_of_find?_eq_some h, ?_⟩
  simpa using List.find?_some h

theorem exists_byStart (hmem : entry ∈ table) (hstart : name entry <+: text)
    : ∃ found, byStart table name text = some found := by
  cases hfound : byStart table name text with
  | some found => exact ⟨found, rfl⟩
  | none =>
    have hnone := List.find?_eq_none.mp hfound entry hmem
    simp [hstart] at hnone

/-- The lookups of a key and of a text behind it agree if and only if the text starts with no name
but the key. -/
theorem Free.byStart_eq_byName_iff (hfree : Free table name) (hkey : key <+: text)
    : byStart table name text = byName table name key
      ↔ ∀ entry ∈ table, name entry <+: text → name entry = key := by
  constructor
  . intro heq entry hmem hstart
    obtain ⟨found, hfound⟩ := exists_byStart hmem hstart
    have hname := byName_eq_some (heq ▸ hfound)
    rw [hfree.unique hmem hname.1 hstart (byStart_eq_some hfound).2]
    exact hname.2
  . intro h
    unfold byStart byName
    apply List.find?_congr
    intro entry hmem
    rw [Bool.eq_iff_iff, List.isPrefixOf_iff_prefix, beq_iff_eq]
    constructor
    . exact h entry hmem
    . intro heq
      rw [heq]
      exact hkey

end PrefixFree
