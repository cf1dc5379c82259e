import CXS.Config.LexicalCast

namespace CXS

theorem foldlM_bind_of_map {α β γ ε : Type} {f : α → Except ε β} {insert : γ → β → γ} {l : List α}
    {ys : List β} (h : l.map f = ys.map .ok) (acc : γ)
    : (l.foldlM (fun acc a => do let b ← f a; .ok (insert acc b)) acc : Except ε γ)
        = .ok (ys.foldl insert acc) := by
  induction l generalizing ys acc with
  | nil =>
    rw [List.map_nil, eq_comm, List.map_eq_nil_iff] at h
    rw [h]
    rfl
  | cons a l ih =>
    cases ys with
    | nil => cases h
    | cons b ys =>
      rw [List.map_cons, List.map_cons] at h
      injection h with hfst hrest
      rw [List.foldlM_cons, hfst, List.foldl_cons]
      exact ih hrest (insert acc b)

theorem foldl_snoc {α : Type} (xs ys : List α)
    : ys.foldl (fun xs y => xs ++ [y]) xs = xs ++ ys := by
  induction ys generalizing xs with
  | nil => rw [List.foldl_nil, List.append_nil]
  | cons y ys ih => rw [List.foldl_cons, ih, ← List.append_cons]

namespace Yaml

inductive Part : Yaml → Yaml → Prop where
  | whole (node : Yaml) : Part node node
  | item {p item : Yaml} {items : List Yaml} (hmem : item ∈ items) (h : Part p item)
    : Part p (.sequence items)
  | entry {p node : Yaml} {key : Text} {entries : List (Text × Yaml)} (hmem : (key, node) ∈ entries)
    (h : Part p node) : Part p (.map entries)

-- what is written of the tree is read back
def Loads (lib : Libraries) (node : Yaml) : Prop :=
  ∀ p, Part p node → lib.Load (lib.emit p) = .ok p

theorem set_of_new {entries : List (Text × Yaml)} {key : Text} (h : key ∉ entries.map Prod.fst)
    (value : Yaml)
    : (Yaml.map entries).set (String.ofList key) value = .map (entries ++ [(key, value)]) := by
  have hfind : (Yaml.map entries).find (String.ofList key) = none := by
    unfold find
    dsimp only
    rw [Option.map_eq_none_iff, List.find?_eq_none]
    intro entry hentry heq
    apply h
    rw [beq_iff_eq, String.toList_ofList] at heq
    rw [← heq]
    exact List.mem_map_of_mem hentry
  unfold set
  dsimp only
  rw [hfind, if_neg (by simp), String.toList_ofList]

theorem foldl_set {entries new : List (Text × Yaml)}
    (h : ((entries ++ new).map Prod.fst).Nodup)
    : new.foldl (fun node entry => node.set (String.ofList entry.1) entry.2) (Yaml.map entries)
        = .map (entries ++ new) := by
  induction new generalizing entries with
  | nil => rw [List.append_nil, List.foldl_nil]
  | cons entry new ih =>
    rw [List.append_cons] at h
    have hnew : entry.1 ∉ entries.map Prod.fst := by
      intro hmem
      rw [List.map_append, List.map_append] at h
      have hnodup := (List.nodup_append.mp h).1
      exact (List.nodup_append.mp hnodup).2.2 _ hmem entry.1 (by simp) rfl
    rw [List.foldl_cons, set_of_new hnew, ih h, ← List.append_cons]

end Yaml

theorem StdSet.elems_foldl {T : Type} [LinearOrder T] (xs : List T) (st : StdSet T)
    : (xs.foldl insert st).elems
        = xs.foldl (fun elems x => OrderedSet.insert (fun x y => decide (x < y)) x elems) st.elems := by
  induction xs generalizing st with
  | nil => rfl
  | cons x xs ih => exact ih (st.insert x)

theorem StdSet.foldl_insert {T : Type} [LinearOrder T] (st : StdSet T)
    : st.elems.foldl insert empty = st := by
  apply StdSet.ext
  rw [elems_foldl]
  exact OrderedSet.foldl_insert_perm (by simp) st.sorted (.refl _)

theorem StdMap.entries_foldl {T : Type} (v : List (Text × T)) (mp : StdMap T)
    : (v.foldl insert mp).entries
        = v.foldl (fun entries entry => OrderedSet.insert (fun i j => decide (i.1 < j.1)) entry entries)
          mp.entries := by
  induction v generalizing mp with
  | nil => rfl
  | cons entry v ih => exact ih (mp.insert entry)

theorem StdMap.foldl_insert {T : Type} (mp : StdMap T) {v : List (Text × T)}
    (hperm : v.Perm mp.entries) : v.foldl insert empty = mp := by
  apply StdMap.ext
  rw [entries_foldl]
  exact OrderedSet.foldl_insert_perm (by simp) mp.sorted hperm

theorem StdMap.nodup_of_perm {T : Type} {mp : StdMap T} {v : List (Text × T)}
    (hperm : v.Perm mp.entries) : (v.map Prod.fst).Nodup := by
  rw [(hperm.map Prod.fst).nodup_iff]
  apply List.Pairwise.map _ _ mp.sorted
  intro i j hij
  exact ne_of_lt hij

namespace LexicalCast

variable {T : Type} {lib : Libraries} {toStr : Nat → T → Except CastException Text}
  {fromStr : Text → Except CastException T} {node : Nat → T → Yaml}

def itemsTree (node : Nat → T → Yaml) (v : List T) : Yaml :=
  .sequence (v.zipIdx.map fun i => node i.2 i.1)

def entriesTree (node : Nat → T → Yaml) (v : List (Text × T)) : Yaml :=
  .map (v.zipIdx.map fun i => (i.1.1, node i.2 i.1.2))

def Through (lib : Libraries) (toStr : Except CastException Text)
    (fromStr : Text → Except CastException T) (node : Yaml) (x : T) : Prop :=
  toStr = .ok (lib.emit node) ∧ fromStr (lib.emit node) = .ok x

theorem itemNode_eq {i : T × Nat} (h : toStr i.2 i.1 = .ok (lib.emit (node i.2 i.1)))
    (hloads : (node i.2 i.1).Loads lib) : itemNode lib toStr i = .ok (node i.2 i.1) := by
  unfold itemNode
  rw [h]
  exact hloads _ (.whole _)

section Sequence

variable {v : List T} (hloads : (itemsTree node v).Loads lib)
  (h : ∀ i ∈ v.zipIdx, (node i.2 i.1).Loads lib
    → Through lib (toStr i.2 i.1) fromStr (node i.2 i.1) i.1)

include hloads

theorem loads_item {i : T × Nat} (hi : i ∈ v.zipIdx) : (node i.2 i.1).Loads lib := by
  intro p hp
  apply hloads
  exact .item (List.mem_map_of_mem hi) hp

include h

theorem sequenceToString_eq
    : sequenceToString lib toStr v = .ok (lib.emit (itemsTree node v)) := by
  have hitems : v.zipIdx.map (itemNode lib toStr)
      = (v.zipIdx.map fun i => node i.2 i.1).map .ok := by
    rw [List.map_map]
    apply List.map_congr_left
    intro i hi
    have hitem := loads_item hloads hi
    exact itemNode_eq (h i hi hitem).1 hitem
  unfold sequenceToString
  rw [foldlM_bind_of_map hitems, foldl_snoc]
  rfl

theorem sequenceFromString_eq {C : Type} (insert : C → T → C) (empty : C)
    : sequenceFromString lib fromStr insert empty (lib.emit (itemsTree node v))
        = .ok (v.foldl insert empty) := by
  have hitems : (List.range (itemsTree node v).size).map
      (fun i => fromStr (lib.emit ((itemsTree node v).index i))) = v.map .ok := by
    have hsize : (itemsTree node v).size = v.length := by
      unfold itemsTree Yaml.size
      dsimp only
      rw [List.length_map, List.length_zipIdx]
    apply List.ext_getElem
    . rw [List.length_map, List.length_map, List.length_range, hsize]
    . intro n _ hn
      rw [List.length_map] at hn
      have hmem : (v[n], n) ∈ v.zipIdx := by
        rw [List.mem_zipIdx_iff_getElem?]
        exact List.getElem?_eq_getElem hn
      have hindex : (itemsTree node v).index n = node n v[n] := by
        unfold itemsTree Yaml.index
        simp [hn]
      rw [List.getElem_map, List.getElem_map, List.getElem_range, hindex]
      exact (h _ hmem (loads_item hloads hmem)).2
  unfold sequenceFromString
  rw [hloads _ (.whole _)]
  exact foldlM_bind_of_map hitems empty

theorem through_list
    : Through lib (sequenceToString lib toStr v)
        (sequenceFromString lib fromStr (fun vec x => vec ++ [x]) []) (itemsTree node v) v := by
  refine ⟨sequenceToString_eq hloads h, ?_⟩
  rw [sequenceFromString_eq hloads h, foldl_snoc, List.nil_append]

end Sequence

theorem through_set [LinearOrder T] {st : StdSet T} (hloads : (itemsTree node st.elems).Loads lib)
    (h : ∀ i ∈ st.elems.zipIdx, (node i.2 i.1).Loads lib
      → Through lib (toStr i.2 i.1) fromStr (node i.2 i.1) i.1)
    : Through lib (setToString lib toStr st) (setFromString lib fromStr)
        (itemsTree node st.elems) st := by
  refine ⟨sequenceToString_eq hloads h, ?_⟩
  unfold setFromString
  rw [sequenceFromString_eq hloads h, st.foldl_insert]

section Entries

variable {v : List (Text × T)} {mp : StdMap T} (hperm : v.Perm mp.entries)
  (hloads : (entriesTree node v).Loads lib)
  (h : ∀ i ∈ v.zipIdx, (node i.2 i.1.2).Loads lib
    → Through lib (toStr i.2 i.1.2) fromStr (node i.2 i.1.2) i.1.2)

include hloads

theorem loads_entry {i : (Text × T) × Nat} (hi : i ∈ v.zipIdx) : (node i.2 i.1.2).Loads lib := by
  intro p hp
  apply hloads
  exact .entry (List.mem_map_of_mem (f := fun i => (i.1.1, node i.2 i.1.2)) hi) hp

include hperm h

theorem entriesToString_eq
    : entriesToString lib toStr v = .ok (lib.emit (entriesTree node v)) := by
  have hentries : v.zipIdx.map (entryNode lib toStr)
      = (v.zipIdx.map fun i => (i.1.1, node i.2 i.1.2)).map .ok := by
    rw [List.map_map]
    apply List.map_congr_left
    intro i hi
    have hentry := loads_entry hloads hi
    unfold entryNode
    rw [itemNode_eq (i := (i.1.2, i.2)) (h i hi hentry).1 hentry]
    rfl
  have hkeys : (v.zipIdx.map fun i => (i.1.1, node i.2 i.1.2)).map Prod.fst = v.map Prod.fst := by
    rw [List.map_map]
    conv => rhs; rw [← List.zipIdx_map_fst 0 v, List.map_map]
    rfl
  unfold entriesToString
  rw [foldlM_bind_of_map hentries (Yaml.map [])]
  rw [Yaml.foldl_set (by rw [List.nil_append, hkeys]; exact StdMap.nodup_of_perm hperm)]
  rfl

theorem entriesFromString_eq
    : entriesFromString lib fromStr (lib.emit (entriesTree node v)) = .ok mp := by
  have hvalues : (v.zipIdx.map fun i => (i.1.1, node i.2 i.1.2)).map (entryValue lib fromStr)
      = v.map .ok := by
    rw [List.map_map]
    conv => rhs; rw [← List.zipIdx_map_fst 0 v, List.map_map]
    apply List.map_congr_left
    intro i hi
    change entryValue lib fromStr (i.1.1, node i.2 i.1.2) = .ok i.1
    unfold entryValue
    rw [(h i hi (loads_entry hloads hi)).2]
    rfl
  unfold entriesFromString
  rw [hloads _ (.whole _), ← mp.foldl_insert hperm]
  exact foldlM_bind_of_map hvalues StdMap.empty

theorem through_map
    : Through lib (entriesToString lib toStr v) (entriesFromString lib fromStr)
        (entriesTree node v) mp :=
  ⟨entriesToString_eq hperm hloads h, entriesFromString_eq hperm hloads h⟩

end Entries

end LexicalCast

namespace ConfigVar
namespace Threads

variable {V : Type} {s : Threads V}

theorem toString_eq {toStr : V → Except CastException Text} {text : Text}
    (h : toStr s.m_value = .ok text) : s.toString toStr = text := by
  unfold toString
  rw [h]

theorem fromString_same [BEq V] [ReflBEq V] {th : Nat} {fromStr : Text → Except CastException V}
    {val : Text} (h : fromStr val = .ok s.m_value) (hpc : s.pc th = .out)
    : s.fromString fromStr th val = .ok (s, true) := by
  unfold fromString
  rw [h]
  dsimp only
  unfold exec
  dsimp only
  rw [hpc]
  dsimp only
  rw [if_pos (BEq.refl s.m_value)]
  rfl

end Threads
end ConfigVar

namespace ValueType

open LexicalCast Yaml

variable {ordered : Bool} (lib : Libraries) (iter : Iteration)

-- the tree that the text of a value is written from
def tree : {ordered : Bool} → (t : ValueType ordered) → List Nat → t.Val → Yaml
  | _, .int, _, n => .scalar (lib.intToString n)
  | _, .vector t, place, v => itemsTree (fun i x => t.tree (i :: place) x) v
  | _, .list t, place, v => itemsTree (fun i x => t.tree (i :: place) x) v
  | _, .set t, place, v =>
    itemsTree (fun i x => t.tree (i :: place) x) (@StdSet.elems _ (t.interp.less rfl) v)
  | _, .map t, place, v => entriesTree (fun i x => t.tree (i :: place) x) v.entries
  | _, .unordered_map t, place, v =>
    entriesTree (fun i x => t.tree (i :: place) x) (iter.order place v.entries)

variable {lib}

theorem through (hemit : ∀ n, lib.emit (.scalar (lib.intToString n)) = lib.intToString n)
    (hint : ∀ n, lib.stringToInt (lib.intToString n) = .ok n) (t : ValueType ordered)
    (place : List Nat) (v : t.Val) (hloads : (t.tree lib iter place v).Loads lib)
    : Through lib (t.toString lib iter place v) (t.fromString lib) (t.tree lib iter place v) v := by
  induction t generalizing place with
  | int =>
    constructor
    . exact congrArg Except.ok (hemit v).symm
    . exact (congrArg lib.stringToInt (hemit v)).trans (hint v)
  | vector t ih => exact through_list hloads fun i _ => ih (i.2 :: place) i.1
  | list t ih => exact through_list hloads fun i _ => ih (i.2 :: place) i.1
  | set t ih =>
    exact @through_set _ _ _ _ _ (t.interp.less rfl) v hloads fun i _ => ih (i.2 :: place) i.1
  | map t ih => exact through_map (.refl _) hloads fun i _ => ih (i.2 :: place) i.1.2
  | unordered_map t ih =>
    exact through_map (iter.perm place v.entries) hloads fun i _ => ih (i.2 :: place) i.1.2

/--
`LexicalCast` from the text of a value gives the value back, so `fromString(toString())` neither
changes the variable nor calls a listener.
-/
theorem lexicalCast_roundTrip (iter : Iteration) (t : ValueType ordered) (v : t.Val)
    (hloads : (t.tree lib iter [] v).Loads lib)
    (hemit : ∀ n, lib.emit (.scalar (lib.intToString n)) = lib.intToString n)
    (hint : ∀ n, lib.stringToInt (lib.intToString n) = .ok n)
    : (t.toString lib iter [] v).bind (t.fromString lib) = .ok v
      ∧ ∀ (s : ConfigVar.Threads t.Val) th, s.m_value = v → s.pc th = .out
        → s.fromString (t.fromString lib) th (s.toString (t.toString lib iter [])) = .ok (s, true) := by
  obtain ⟨hto, hfrom⟩ := through iter hemit hint t [] v hloads
  constructor
  . rw [hto]
    exact hfrom
  . intro s th hvalue hpc
    rw [← hvalue] at hto hfrom
    rw [ConfigVar.Threads.toString_eq hto]
    exact ConfigVar.Threads.fromString_same hfrom hpc

section Sample

def sampleLibraries : Libraries where
  Load text :=
    if text = "\x7b\x7d".toList then
      .ok (.map [])
    else if text = "cxs: 123".toList then
      .ok (.map [("cxs".toList, .scalar "123".toList)])
    else if text = "- cxs: 123\n- \x7b\x7d".toList then
      .ok (.sequence [.map [("cxs".toList, .scalar "123".toList)], .map []])
    else
      .ok (.scalar text)
  emit node :=
    match node with
    | .scalar text => text
    | .map [(key, .scalar text)] => key ++ ": ".toList ++ text
    | .sequence [.map [(key, .scalar text)], .map []] =>
      "- ".toList ++ key ++ ": ".toList ++ text ++ "\n- \x7b\x7d".toList
    | _ => "\x7b\x7d".toList
  intToString n :=
    if n.toInt < 0 then '-' :: Nat.toDigits 10 n.toInt.natAbs else Nat.toDigits 10 n.toInt.natAbs
  stringToInt text :=
    if text.head? = some '-' then
      .ok (Int32.ofInt (-(Nat.ofDigitChars 10 text.tail 0 : Nat)))
    else
      .ok (Int32.ofInt (Nat.ofDigitChars 10 text 0 : Nat))

theorem sampleLibraries_stringToInt (n : Int32)
    : sampleLibraries.stringToInt (sampleLibraries.intToString n) = .ok n := by
  have hround : Int32.ofInt n.toInt = n := Int32.ofInt_toInt n
  dsimp only [sampleLibraries]
  by_cases hneg : n.toInt < 0
  . rw [if_pos hneg, if_pos List.head?_cons, List.tail_cons, Nat.ofDigitChars_ten_toDigits]
    rw [show -(n.toInt.natAbs : Int) = n.toInt by omega, hround]
  . have hhead : (Nat.toDigits 10 n.toInt.natAbs).head? ≠ some '-' := by
      intro hhead
      have hdigit := Nat.isDigit_of_mem_toDigits (by decide) (by decide) (List.mem_of_head? hhead)
      exact absurd hdigit (by decide)
    rw [if_neg hneg, if_neg hhead, Nat.ofDigitChars_ten_toDigits]
    rw [show (n.toInt.natAbs : Int) = n.toInt by omega, hround]

def inOrder : Iteration where
  order _ _ entries := entries
  perm _ _ entries := .refl entries

def sample : (vector (map int)).Val :=
  [⟨[("cxs".toList, (123 : Int32))], List.pairwise_singleton _ _⟩, ⟨[], .nil⟩]

theorem sample_loads
    : ((vector (map int)).tree sampleLibraries inOrder [] sample).Loads sampleLibraries := by
  change (Yaml.sequence [.map [("cxs".toList, .scalar "123".toList)], .map []]).Loads sampleLibraries
  intro p hp
  cases hp with
  | whole => rfl
  | item hmem hp =>
    simp only [List.mem_cons, List.not_mem_nil, or_false] at hmem
    rcases hmem with rfl | rfl
    . cases hp with
      | whole => rfl
      | entry hmem hp =>
        simp only [List.mem_cons, List.not_mem_nil, or_false, Prod.mk.injEq] at hmem
        rw [hmem.2] at hp
        cases hp
        rfl
    . cases hp with
      | whole => rfl
      | entry hmem hp => cases hmem

theorem sample_roundTrip
    : ((vector (map int)).toString sampleLibraries inOrder [] sample).bind
        ((vector (map int)).fromString sampleLibraries) = .ok sample :=
  (lexicalCast_roundTrip inOrder _ sample sample_loads (fun _ => rfl) sampleLibraries_stringToInt).1

end Sample

end ValueType

end CXS
