import CXS.Config.Lookup
import CXS.Util.Keyed
import Mathlib.Data.List.Induction

namespace CXS
namespace Config

section Spec

mutual

-- all nodes in the order of the tree, with the keys on the way from the root
def nodes (keys : List (List Char)) (place : List Nat) (node : Yaml)
    : List (List (List Char) × NodeRef) :=
  (keys, ⟨place, node⟩) ::
    match node with
    | .map entries => entryNodes keys place 0 entries
    | _ => []

def entryNodes (keys : List (List Char)) (place : List Nat) (i : Nat)
    : List (List Char × Yaml) → List (List (List Char) × NodeRef)
  | [] => []
  | (key, node) :: entries =>
    nodes (keys ++ [key]) (i :: place) node ++ entryNodes keys place (i + 1) entries

end

def dotted (keys : List (List Char)) : List Char :=
  List.intercalate ['.'] keys

variable {T V : Type} (emit : Yaml → List Char)

def expectedNode (cfg : Config T V) (i : List (List Char) × NodeRef) : Option FromString :=
  (cfg.LookupBase (tolower (dotted i.1))).map fun var => ⟨var, i.2.place, text emit i.2.node⟩

def expected (cfg : Config T V) (root : Yaml) : List FromString :=
  (nodes [] [] root).filterMap (cfg.expectedNode emit)

/--
A node with these keys belongs to no variable if a key has a character that is not one of a name, or
if the first key is empty.
-/
structure Addressed (cfg : Config T V) (keys : List (List Char)) : Prop where
  chars : keys.any hasInvalidChar = true → cfg.LookupBase (tolower (dotted keys)) = none
  first : keys.any hasInvalidChar = false → keys.head? = some []
    → cfg.LookupBase (dotted keys) = none
      ∧ cfg.LookupBase (dotted (keys.dropWhile List.isEmpty)) = none

end Spec

section Path

def path (keys : List (List Char)) : List Char :=
  dotted (keys.dropWhile List.isEmpty)

theorem dotted_snoc {keys : List (List Char)} (hne : keys ≠ []) (key : List Char)
    : dotted (keys ++ [key]) = dotted keys ++ '.' :: key := by
  induction keys with
  | nil => exact absurd rfl hne
  | cons k keys ih =>
    cases keys with
    | nil => simp [dotted, List.intercalate]
    | cons k' keys =>
      have ih := ih (by simp)
      unfold dotted List.intercalate at ih ⊢
      simp only [List.cons_append, List.intersperse_cons_cons, List.flatten_cons] at ih ⊢
      rw [ih]
      simp

theorem dotted_eq_nil {keys : List (List Char)} : dotted keys = [] ↔ keys = [] ∨ keys = [[]] := by
  cases keys with
  | nil => simp [dotted, List.intercalate]
  | cons k keys =>
    cases keys with
    | nil => simp [dotted, List.intercalate]
    | cons k' keys => simp [dotted, List.intercalate]

theorem dropWhile_isEmpty_snoc (keys : List (List Char)) (key : List Char)
    : (keys ++ [key]).dropWhile List.isEmpty
        = if (keys.dropWhile List.isEmpty).isEmpty then
            [key].dropWhile List.isEmpty
          else
            keys.dropWhile List.isEmpty ++ [key] := by
  rw [List.dropWhile_append]

theorem path_eq_nil {keys : List (List Char)}
    : path keys = [] ↔ keys.dropWhile List.isEmpty = [] := by
  unfold path
  rw [dotted_eq_nil]
  constructor
  . intro h
    rcases h with h | h
    . exact h
    . have hhead := List.head?_dropWhile_not List.isEmpty keys
      rw [h] at hhead
      cases hhead
  . exact .inl

theorem joinKey_path (keys : List (List Char)) (key : List Char)
    : joinKey (path keys) key = path (keys ++ [key]) := by
  have hnil := @path_eq_nil keys
  unfold joinKey
  split
  . next hempty =>
    rw [List.isEmpty_iff, hnil] at hempty
    unfold path
    rw [dropWhile_isEmpty_snoc, hempty]
    cases key with
    | nil => rfl
    | cons c key => simp [dotted, List.intercalate]
  . next hempty =>
    rw [List.isEmpty_iff, hnil] at hempty
    unfold path
    rw [dropWhile_isEmpty_snoc, if_neg (by simpa using hempty), dotted_snoc hempty]

theorem hasInvalidChar_append (a b : List Char)
    : hasInvalidChar (a ++ b) = (hasInvalidChar a || hasInvalidChar b) := by
  unfold hasInvalidChar
  rw [List.any_append]

theorem hasInvalidChar_dot (key : List Char) : hasInvalidChar ('.' :: key) = hasInvalidChar key := by
  unfold hasInvalidChar
  rw [List.any_cons]
  have hdot : (!nameChars.contains '.') = false := by decide
  rw [hdot, Bool.false_or]

theorem hasInvalidChar_dotted (keys : List (List Char))
    : hasInvalidChar (dotted keys) = keys.any hasInvalidChar := by
  induction keys using List.reverseRecOn with
  | nil => rfl
  | append_singleton keys key ih =>
    rw [List.any_append, ← ih]
    by_cases hne : keys = []
    . subst hne
      simp [dotted, List.intercalate, hasInvalidChar]
    . rw [dotted_snoc hne, hasInvalidChar_append, hasInvalidChar_dot]
      simp

theorem hasInvalidChar_path (keys : List (List Char))
    : hasInvalidChar (path keys) = keys.any hasInvalidChar := by
  unfold path
  rw [hasInvalidChar_dotted]
  induction keys with
  | nil => rfl
  | cons key keys ih =>
    rw [List.dropWhile_cons]
    split
    . next hempty =>
      rw [List.isEmpty_iff.mp hempty, List.any_cons, ih]
      rfl
    . rfl

theorem tolower_of_valid {name : List Char} (h : hasInvalidChar name = false)
    : tolower name = name := by
  have hchars : nameChars.all (fun c => c.toLower == c) = true := by decide
  rw [List.all_eq_true] at hchars
  unfold tolower
  unfold hasInvalidChar at h
  rw [List.any_eq_false] at h
  conv => rhs; rw [← List.map_id name]
  apply List.map_congr_left
  intro c hc
  apply eq_of_beq
  apply hchars
  simpa using h c hc

end Path

section Traverse

variable (keys : List (List Char)) (place : List Nat) (j : Nat) {node : Yaml}

theorem nodes_leaf (h : ∀ entries, node ≠ .map entries)
    : nodes keys place node = [(keys, ⟨place, node⟩)] := by
  cases node with
  | map entries => exact absurd rfl (h entries)
  | _ => rfl

theorem nodes_map (entries : List (List Char × Yaml))
    : nodes keys place (.map entries)
        = (keys, ⟨place, .map entries⟩) :: entryNodes keys place 0 entries := by
  unfold nodes
  rfl

theorem entryNodes_nil : entryNodes keys place j [] = [] := by
  unfold entryNodes
  rfl

theorem entryNodes_cons (key : List Char) (node : Yaml) (entries : List (List Char × Yaml))
    : entryNodes keys place j ((key, node) :: entries)
        = nodes (keys ++ [key]) (j :: place) node ++ entryNodes keys place (j + 1) entries := by
  conv => lhs; unfold entryNodes

theorem nodes_keys
    : (∀ node keys place, ∀ i ∈ nodes keys place node, keys <+: i.1)
      ∧ ∀ entries keys place j, ∀ i ∈ entryNodes keys place j entries, keys <+: i.1 := by
  apply Yaml.induct
  . intro node hleaf keys place i hi
    rw [nodes_leaf keys place hleaf, List.mem_singleton] at hi
    subst hi
    apply List.prefix_refl
  . intro entries ih keys place i hi
    rw [nodes_map] at hi
    rcases List.mem_cons.mp hi with rfl | hi
    . apply List.prefix_refl
    . apply ih keys place 0 i hi
  . intro keys place j i hi
    rw [entryNodes_nil] at hi
    cases hi
  . intro key node entries ihnode ihentries keys place j i hi
    rw [entryNodes_cons] at hi
    rcases List.mem_append.mp hi with hi | hi
    . exact (List.prefix_append keys [key]).trans (ihnode (keys ++ [key]) (j :: place) i hi)
    . apply ihentries keys place (j + 1) i hi

def visit (i : List (List Char) × NodeRef) : Option (List Char × NodeRef) :=
  if i.1.any hasInvalidChar then none else some (path i.1, i.2)

theorem listAllMember_of_invalid (h : keys.any hasInvalidChar = true)
    : ListAllMember (path keys) place node = (nodes keys place node).filterMap visit := by
  have hnil : (nodes keys place node).filterMap visit = [] := by
    rw [List.filterMap_eq_nil_iff]
    intro i hi
    obtain ⟨rest, hrest⟩ := nodes_keys.1 node keys place i hi
    unfold visit
    rw [← hrest, List.any_append, h, Bool.true_or]
    rfl
  unfold ListAllMember
  rw [hasInvalidChar_path, if_pos h, hnil]

theorem visit_of_valid (h : ¬keys.any hasInvalidChar = true) (ref : NodeRef)
    : visit (keys, ref) = some (path keys, ref) := by
  unfold visit
  rw [if_neg h]

theorem listAllMember_eq
    : (∀ node keys place,
        ListAllMember (path keys) place node = (nodes keys place node).filterMap visit)
      ∧ ∀ entries keys place j,
        ListEntries (path keys) place j entries
          = (entryNodes keys place j entries).filterMap visit := by
  apply Yaml.induct
  . intro node hleaf keys place
    by_cases hkeys : keys.any hasInvalidChar = true
    . apply listAllMember_of_invalid keys place hkeys
    . rw [nodes_leaf keys place hleaf, List.filterMap_cons, visit_of_valid keys hkeys]
      unfold ListAllMember
      rw [hasInvalidChar_path, if_neg hkeys]
      cases node with
      | map entries => exact absurd rfl (hleaf entries)
      | _ => rfl
  . intro entries ih keys place
    by_cases hkeys : keys.any hasInvalidChar = true
    . apply listAllMember_of_invalid keys place hkeys
    . rw [nodes_map, List.filterMap_cons, visit_of_valid keys hkeys, ← ih keys place 0]
      unfold ListAllMember
      rw [hasInvalidChar_path, if_neg hkeys]
  . intro keys place j
    rw [entryNodes_nil]
    unfold ListEntries
    rfl
  . intro key node entries ihnode ihentries keys place j
    rw [entryNodes_cons, List.filterMap_append, ← ihnode, ← ihentries, ← joinKey_path]
    conv => lhs; unfold ListEntries

theorem nodes_place
    : (∀ node keys place, ∀ i ∈ nodes keys place node, place <:+ i.2.place)
      ∧ ∀ entries keys place j, ∀ i ∈ entryNodes keys place j entries,
        ∃ k, j ≤ k ∧ (k :: place) <:+ i.2.place := by
  apply Yaml.induct
  . intro node hleaf keys place i hi
    rw [nodes_leaf keys place hleaf, List.mem_singleton] at hi
    subst hi
    apply List.suffix_refl
  . intro entries ih keys place i hi
    rw [nodes_map] at hi
    rcases List.mem_cons.mp hi with rfl | hi
    . apply List.suffix_refl
    . obtain ⟨k, -, hk⟩ := ih keys place 0 i hi
      exact (List.suffix_cons k place).trans hk
  . intro keys place j i hi
    rw [entryNodes_nil] at hi
    cases hi
  . intro key node entries ihnode ihentries keys place j i hi
    rw [entryNodes_cons] at hi
    rcases List.mem_append.mp hi with hi | hi
    . exact ⟨j, Nat.le_refl j, ihnode (keys ++ [key]) (j :: place) i hi⟩
    . obtain ⟨k, hle, hk⟩ := ihentries keys place (j + 1) i hi
      exact ⟨k, by omega, hk⟩

theorem head_eq_of_suffix {a b : Nat} {place l : List Nat} (ha : (a :: place) <:+ l)
    (hb : (b :: place) <:+ l) : a = b := by
  have hsuffix : (a :: place) <:+ (b :: place) :=
    List.suffix_of_suffix_length_le ha hb (by simp)
  have heq := hsuffix.eq_of_length (by simp)
  injection heq

theorem nodes_nodup
    : (∀ node keys place, ((nodes keys place node).map (fun i => i.2.place)).Nodup)
      ∧ ∀ entries keys place j,
        ((entryNodes keys place j entries).map (fun i => i.2.place)).Nodup := by
  apply Yaml.induct
  . intro node hleaf keys place
    rw [nodes_leaf keys place hleaf]
    simp
  . intro entries ih keys place
    rw [nodes_map, List.map_cons, List.nodup_cons]
    refine ⟨?_, ih keys place 0⟩
    intro hmem
    obtain ⟨i, hi, hplace⟩ := List.mem_map.mp hmem
    obtain ⟨k, -, hk⟩ := nodes_place.2 entries keys place 0 i hi
    have hlength := hk.length_le
    rw [hplace, List.length_cons] at hlength
    dsimp only at hlength
    omega
  . intro keys place j
    rw [entryNodes_nil]
    apply List.nodup_nil
  . intro key node entries ihnode ihentries keys place j
    rw [entryNodes_cons, List.map_append, List.nodup_append]
    refine ⟨ihnode (keys ++ [key]) (j :: place), ihentries keys place (j + 1), ?_⟩
    intro a ha b hb hab
    obtain ⟨i, hi, rfl⟩ := List.mem_map.mp ha
    obtain ⟨i', hi', rfl⟩ := List.mem_map.mp hb
    have hfirst := nodes_place.1 node (keys ++ [key]) (j :: place) i hi
    obtain ⟨k, hle, hk⟩ := nodes_place.2 entries keys place (j + 1) i' hi'
    rw [hab] at hfirst
    have := head_eq_of_suffix hfirst hk
    omega

end Traverse

section Names

variable {T V : Type} {cfg : Config T V}

def Named (cfg : Config T V) : Prop :=
  ∀ name p, cfg.s_datas name = some p → ∃ var, cfg.vars[p]? = some var ∧ var.m_name = name

theorem Named.create (h : Named cfg) {type : T} {name : List Char} {default_value : V}
    (hvalid : hasInvalidChar name = false) : Named (cfg.create type name default_value) := by
  intro name' p hp
  have hvars : (cfg.create type name default_value).vars
      = cfg.vars ++ [{ m_name := tolower name, type := type, m_value := default_value }] := rfl
  by_cases hname : name' = name
  . rw [hname, create_datas_self] at hp
    injection hp with hp
    rw [hvars, ← hp, List.getElem?_concat_length]
    refine ⟨_, rfl, ?_⟩
    rw [hname]
    apply tolower_of_valid hvalid
  . rw [create_datas_of_ne hname] at hp
    obtain ⟨var, hvar, hm_name⟩ := h name' p hp
    refine ⟨var, ?_, hm_name⟩
    rw [hvars, List.getElem?_append_left (List.getElem?_eq_some_iff.mp hvar).1]
    exact hvar

theorem Named.inj (h : Named cfg) {name name' : List Char} {p : Nat}
    (hp : cfg.LookupBase name = some p) (hp' : cfg.LookupBase name' = some p) : name = name' := by
  obtain ⟨var, hvar, hname⟩ := h name p hp
  obtain ⟨var', hvar', hname'⟩ := h name' p hp'
  rw [hvar] at hvar'
  injection hvar' with hvar'
  rw [← hname, ← hname', hvar']

variable [DecidableEq T]

theorem Named.call (h : Named cfg) (c : Call T V) : Named (cfg.call c).1 := by
  cases c with
  | LookupBase name => exact h
  | Lookup type name => exact h
  | LookupDefault type name default_value =>
    unfold Config.call
    dsimp only
    rcases lookupDefault_cases cfg type name default_value with hsame | hcreate
    . rw [hsame.1]
      exact h
    . rw [hcreate.2.2]
      apply h.create hcreate.2.1

theorem reachable_named (h : (lts T V).Reachable (· = new) cfg) : Named cfg := by
  apply h.invariant
  . intro s hs name p hp
    rw [hs] at hp
    cases hp
  . intro s l t hs hstep
    have hcall := hs.call l.1
    rw [step_eq hstep] at hcall
    exact hcall

end Names

section Node

variable {T V : Type} {cfg : Config T V} {emit : Yaml → List Char}

theorem loadFromYaml_eq (root : Yaml)
    : cfg.LoadFromYaml emit root
        = (nodes [] [] root).filterMap (fun i => (visit i).bind (cfg.loadNode emit)) := by
  unfold LoadFromYaml
  have hpath : path [] = [] := rfl
  rw [← hpath, listAllMember_eq.1, List.filterMap_filterMap]

theorem map_fromString_inj {a b : Option Nat} {place : List Nat} {val : List Char}
    : a.map (FromString.mk · place val) = b.map (FromString.mk · place val) ↔ a = b := by
  constructor
  . apply Option.map_injective
    intro x y h
    injection h
  . intro h
    rw [h]

theorem length_path_le (keys : List (List Char)) : (path keys).length ≤ (dotted keys).length := by
  unfold path
  induction keys with
  | nil => exact Nat.le_refl _
  | cons key keys ih =>
    rw [List.dropWhile_cons]
    split
    . apply Nat.le_trans ih
      cases keys with
      | nil => simp [dotted, List.intercalate]
      | cons key' keys =>
        simp [dotted, List.intercalate]
        omega
    . exact Nat.le_refl _

theorem path_ne_dotted {key : List Char} {keys : List (List Char)}
    : path ([] :: key :: keys) ≠ dotted ([] :: key :: keys) := by
  intro heq
  have hlength := congrArg List.length heq
  have hle := length_path_le (key :: keys)
  have hpath : path ([] :: key :: keys) = path (key :: keys) := rfl
  have hdotted : dotted ([] :: key :: keys) = '.' :: dotted (key :: keys) := by
    simp [dotted, List.intercalate]
  rw [hpath, hdotted, List.length_cons] at hlength
  omega

theorem lookup_eq_iff (h : Named cfg) {name name' : List Char} (hne : name ≠ name')
    : cfg.LookupBase name = cfg.LookupBase name'
      ↔ cfg.LookupBase name' = none ∧ cfg.LookupBase name = none := by
  constructor
  . intro heq
    cases hname : cfg.LookupBase name with
    | none => exact ⟨by rw [← heq, hname], rfl⟩
    | some p =>
      rw [hname] at heq
      exact absurd (h.inj hname heq.symm) hne
  . intro hboth
    rw [hboth.1, hboth.2]

theorem loadNode_path (hempty : cfg.LookupBase [] = none) {keys : List (List Char)} {ref : NodeRef}
    (hvalid : keys.any hasInvalidChar = false)
    : cfg.loadNode emit (path keys, ref)
        = (cfg.LookupBase (path keys)).map fun var => ⟨var, ref.place, text emit ref.node⟩ := by
  unfold loadNode
  dsimp only
  split
  . next hnil =>
    rw [List.isEmpty_iff.mp hnil, hempty]
    rfl
  . rw [tolower_of_valid (by rw [hasInvalidChar_path, hvalid])]

theorem visit_eq_expected_iff (h : Named cfg) (hempty : cfg.LookupBase [] = none)
    (i : List (List Char) × NodeRef)
    : (visit i).bind (cfg.loadNode emit) = cfg.expectedNode emit i ↔ Addressed cfg i.1 := by
  obtain ⟨keys, ref⟩ := i
  unfold expectedNode
  dsimp only
  cases hkeys : keys.any hasInvalidChar with
  | true =>
    have hvisit : visit (keys, ref) = none := by
      unfold visit
      rw [if_pos hkeys]
    rw [hvisit, Option.bind_none, eq_comm, Option.map_eq_none_iff]
    constructor
    . intro hnone
      refine ⟨fun _ => hnone, ?_⟩
      intro hvalid
      rw [hkeys] at hvalid
      cases hvalid
    . intro haddressed
      exact haddressed.chars hkeys
  | false =>
    rw [visit_of_valid keys (by simp [hkeys]), Option.bind_some, loadNode_path hempty hkeys,
      tolower_of_valid (by rw [hasInvalidChar_dotted, hkeys]), map_fromString_inj]
    have hchars : keys.any hasInvalidChar = true → cfg.LookupBase (tolower (dotted keys)) = none := by
      intro hinvalid
      rw [hkeys] at hinvalid
      cases hinvalid
    match keys with
    | [] =>
      constructor
      . intro _
        refine ⟨hchars, ?_⟩
        intro _ hhead
        cases hhead
      . intro _
        rfl
    | [[]] =>
      constructor
      . intro _
        exact ⟨hchars, fun _ _ => ⟨hempty, hempty⟩⟩
      . intro _
        rfl
    | [] :: key :: keys =>
      rw [lookup_eq_iff h path_ne_dotted]
      constructor
      . intro hboth
        exact ⟨hchars, fun _ _ => hboth⟩
      . intro haddressed
        exact haddressed.first hkeys rfl
    | (c :: key) :: keys =>
      constructor
      . intro _
        refine ⟨hchars, ?_⟩
        intro _ hhead
        cases hhead
      . intro _
        rfl

theorem root_unnamed {root : Yaml}
    (h : ∀ i ∈ nodes [] [] root, (visit i).bind (cfg.loadNode emit) = cfg.expectedNode emit i)
    : cfg.LookupBase [] = none := by
  have hroot : (([], ⟨[], root⟩) : List (List Char) × NodeRef) ∈ nodes [] [] root := by
    unfold nodes
    exact List.mem_cons_self
  have heq := h _ hroot
  have hnone : (visit ([], ⟨[], root⟩)).bind (cfg.loadNode emit) = none := rfl
  rw [hnone, eq_comm] at heq
  exact Option.map_eq_none_iff.mp heq

end Node

theorem loadFromYaml_eq_expected_iff {T V : Type} [DecidableEq T] (cfg : Config T V)
    (h : (lts T V).Reachable (· = new) cfg) (emit : Yaml → List Char) (root : Yaml)
    : cfg.LoadFromYaml emit root = cfg.expected emit root
      ↔ cfg.LookupBase [] = none ∧ ∀ i ∈ nodes [] [] root, Addressed cfg i.1 := by
  have hnamed := reachable_named h
  rw [loadFromYaml_eq]
  unfold expected
  rw [Keyed.filterMap_eq_iff (fun i => i.2.place) FromString.place]
  . constructor
    . intro heq
      have hempty := root_unnamed heq
      refine ⟨hempty, ?_⟩
      intro i hi
      exact (visit_eq_expected_iff hnamed hempty i).mp (heq i hi)
    . intro hall i hi
      exact (visit_eq_expected_iff hnamed hall.1 i).mpr (hall.2 i hi)
  . intro i y hy
    obtain ⟨v, hv, hload⟩ := Option.bind_eq_some_iff.mp hy
    unfold visit at hv
    split at hv
    . cases hv
    . injection hv with hv
      rw [← hv] at hload
      unfold loadNode at hload
      split at hload
      . cases hload
      . obtain ⟨var, -, rfl⟩ := Option.map_eq_some_iff.mp hload
        rfl
  . intro i y hy
    obtain ⟨var, -, rfl⟩ := Option.map_eq_some_iff.mp hy
    rfl
  . exact nodes_nodup.1 root [] []

section Example

def systemPort : Config Nat Nat :=
  (new.call (.LookupDefault 0 "system.port".toList 8080)).1

theorem reachable_systemPort : (lts Nat Nat).Reachable (· = new) systemPort :=
  ⟨new, [(.LookupDefault 0 "system.port".toList 8080, _)], rfl, .cons rfl (.nil _)⟩

def lowerTree : Yaml :=
  .map [
    ("system".toList, .map [("port".toList, .scalar "9900".toList)]),
    ("logs".toList, .sequence [.null])
  ]

theorem loadFromYaml_eq_expected_lower
    : systemPort.LoadFromYaml (fun _ => []) lowerTree = systemPort.expected (fun _ => []) lowerTree := by
  apply (loadFromYaml_eq_expected_iff systemPort reachable_systemPort (fun _ => []) lowerTree).mpr
  have hkeys : ∀ i ∈ nodes [] [] lowerTree,
      i.1.any hasInvalidChar = false ∧ i.1.head? ≠ some [] := by
    decide +kernel
  refine ⟨by decide +kernel, ?_⟩
  intro i hi
  constructor
  . intro hinvalid
    rw [(hkeys i hi).1] at hinvalid
    cases hinvalid
  . intro _ hhead
    exact absurd hhead (hkeys i hi).2

def upperTree : Yaml :=
  .map [("System".toList, .map [("port".toList, .scalar "9900".toList)])]

-- the node belongs to `system.port`, and the recursion stops at the upper-case letter above it
theorem loadFromYaml_upper
    : (lts Nat Nat).Reachable (· = new) systemPort
      ∧ systemPort.LoadFromYaml (fun _ => []) upperTree = []
      ∧ systemPort.expected (fun _ => []) upperTree = [⟨0, [0, 0], "9900".toList⟩] :=
  ⟨reachable_systemPort, by decide +kernel, by decide +kernel⟩

end Example

end Config
end CXS
