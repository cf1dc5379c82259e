import CXS.Config.Listeners
import CXS.Config.Node
import CXS.Util.OrderedSet
import Mathlib.Data.Char
import Mathlib.Data.List.Lex
import Mathlib.Data.Prod.Lex
import Mathlib.Order.Lattice

/-!
This module contains `LexicalCast` of `code/config.hpp` between strings and the types that are built
from `int` by the containers of the standard library.

`YAML::Load`, the stream operator of a node and `boost::lexical_cast` are arguments. In every loop
`ss.str("")` empties the stream, so what `ss.str()` gives is what was written after it.
-/

namespace CXS

abbrev Text :=
  List Char

inductive CastException where
  | ParserException
  | InvalidNode
  | bad_lexical_cast
  deriving DecidableEq, Repr

-- what is used of `yaml-cpp` and of `boost`
structure Libraries where
  Load : Text → Except CastException Yaml
  emit : Yaml → Text
  intToString : Int32 → Text
  stringToInt : Text → Except CastException Int32

@[ext]
structure StdSet (T : Type) [LinearOrder T] where
  elems : List T
  sorted : OrderedSet.Sorted id elems

@[ext]
structure StdMap (T : Type) where
  entries : List (Text × T)
  sorted : OrderedSet.Sorted Prod.fst entries

section Containers

variable {T : Type}

namespace StdSet

variable [LinearOrder T]

def empty : StdSet T where
  elems := []
  sorted := .nil

def insert (st : StdSet T) (x : T) : StdSet T where
  elems := OrderedSet.insert (fun x y => decide (x < y)) x st.elems
  sorted := st.sorted.insert_any (by simp) x

-- `std::lexicographical_compare`
instance : LinearOrder (StdSet T) :=
  LinearOrder.lift' elems fun _ _ => StdSet.ext

end StdSet

namespace StdMap

def empty : StdMap T where
  entries := []
  sorted := .nil

-- an entry with a key that is there already is dropped
def insert (mp : StdMap T) (entry : Text × T) : StdMap T where
  entries := OrderedSet.insert (fun i j => decide (i.1 < j.1)) entry mp.entries
  sorted := mp.sorted.insert_any (by simp) entry

instance [DecidableEq T] : DecidableEq (StdMap T) :=
  fun _ _ => decidable_of_iff _ StdMap.ext_iff.symm

def lexEntries (mp : StdMap T) : List (Text ×ₗ T) :=
  mp.entries.map toLex

instance [LinearOrder T] : LinearOrder (StdMap T) :=
  LinearOrder.lift' lexEntries fun _ _ h =>
    StdMap.ext (List.map_injective_iff.mpr toLex.injective h)

end StdMap

end Containers

namespace Yaml

-- the pairs that the iterators of a node lead to. Those of a sequence have no key.
def pairs : Yaml → Except CastException (List (Text × Yaml))
  | .map entries => .ok entries
  | .sequence (_ :: _) => .error .InvalidNode
  | _ => .ok []

end Yaml

namespace LexicalCast

variable {T : Type} (lib : Libraries)

section ToString

-- `LexicalCast<T, std::string>`. The position of an element in its container is passed along.
variable (cast : Nat → T → Except CastException Text)

-- `YAML::Load(LexicalCast<T, std::string>()(i))`
def itemNode (i : T × Nat) : Except CastException Yaml := do
  let text ← cast i.2 i.1
  lib.Load text

def sequenceToString (v : List T) : Except CastException Text := do
  let items ← v.zipIdx.foldlM (fun items i => do
    let item ← itemNode lib cast i
    .ok (items ++ [item])) []
  .ok (lib.emit (.sequence items))

def vectorToString (v : List T) : Except CastException Text :=
  sequenceToString lib cast v

def listToString (v : List T) : Except CastException Text :=
  sequenceToString lib cast v

def setToString [LinearOrder T] (v : StdSet T) : Except CastException Text :=
  sequenceToString lib cast v.elems

def entryNode (i : (Text × T) × Nat) : Except CastException (Text × Yaml) := do
  let value ← itemNode lib cast (i.1.2, i.2)
  .ok (i.1.1, value)

def entriesToString (v : List (Text × T)) : Except CastException Text := do
  let node ← v.zipIdx.foldlM (fun node i => do
    let entry ← entryNode lib cast i
    .ok (node.set (String.ofList entry.1) entry.2)) (Yaml.map [])
  .ok (lib.emit node)

def mapToString (v : StdMap T) : Except CastException Text :=
  entriesToString lib cast v.entries

-- the iterators visit the entries in the order `order`
def unorderedMapToString (order : List (Text × T) → List (Text × T)) (v : StdMap T)
    : Except CastException Text :=
  entriesToString lib cast (order v.entries)

end ToString

section FromString

-- `LexicalCast<std::string, T>`
variable (cast : Text → Except CastException T)

def sequenceFromString {C : Type} (insert : C → T → C) (empty : C) (v : Text)
    : Except CastException C := do
  let node ← lib.Load v
  (List.range node.size).foldlM (fun vec i => do
    let x ← cast (lib.emit (node.index i))
    .ok (insert vec x)) empty

def vectorFromString (v : Text) : Except CastException (List T) :=
  sequenceFromString lib cast (fun vec x => vec ++ [x]) [] v

def listFromString (v : Text) : Except CastException (List T) :=
  sequenceFromString lib cast (fun vec x => vec ++ [x]) [] v

def setFromString [LinearOrder T] (v : Text) : Except CastException (StdSet T) :=
  sequenceFromString lib cast StdSet.insert StdSet.empty v

def entryValue (i : Text × Yaml) : Except CastException (Text × T) := do
  let x ← cast (lib.emit i.2)
  .ok (i.1, x)

def entriesFromString (v : Text) : Except CastException (StdMap T) := do
  let node ← lib.Load v
  let pairs ← node.pairs
  pairs.foldlM (fun mp i => do
    let entry ← entryValue lib cast i
    .ok (mp.insert entry)) StdMap.empty

def mapFromString (v : Text) : Except CastException (StdMap T) :=
  entriesFromString lib cast v

def unorderedMapFromString (v : Text) : Except CastException (StdMap T) :=
  entriesFromString lib cast v

end FromString

end LexicalCast

open LexicalCast

/--
The types that are built from `int`. The flag says whether the type has an `operator<`, which the
elements of a `std::set` need and a `std::unordered_map` does not have.
-/
inductive ValueType : Bool → Type where
  | int : ValueType true
  | vector {ordered : Bool} (t : ValueType ordered) : ValueType ordered
  | list {ordered : Bool} (t : ValueType ordered) : ValueType ordered
  | set (t : ValueType true) : ValueType true
  | map {ordered : Bool} (t : ValueType ordered) : ValueType ordered
  | unordered_map {ordered : Bool} (t : ValueType ordered) : ValueType false

structure Compared (ordered : Bool) : Type 1 where
  Val : Type
  eq : DecidableEq Val
  less : ordered = true → LinearOrder Val

/--
The orders in which the iterators of the `std::unordered_map`s in a value visit the entries. `place`
are the positions of the elements on the way from the container to the whole value.
-/
structure Iteration where
  order (place : List Nat) {α : Type} : List (Text × α) → List (Text × α)
  perm : ∀ place {α : Type} (entries : List (Text × α)), (order place entries).Perm entries

namespace ValueType

variable {ordered : Bool}

def interp : {ordered : Bool} → ValueType ordered → Compared ordered
  | _, .int =>
    ⟨Int32, inferInstance, fun _ => LinearOrder.lift' Int32.toInt fun _ _ => Int32.toInt_inj.mp⟩
  | _, .vector t | _, .list t =>
    let _ := t.interp.eq
    ⟨List t.interp.Val, inferInstance, fun h => let _ := t.interp.less h; inferInstance⟩
  | _, .set t =>
    let _ := t.interp.less rfl
    ⟨StdSet t.interp.Val, inferInstance, fun _ => inferInstance⟩
  | _, .map t =>
    let _ := t.interp.eq
    ⟨StdMap t.interp.Val, inferInstance, fun h => let _ := t.interp.less h; inferInstance⟩
  | _, .unordered_map t =>
    let _ := t.interp.eq
    ⟨StdMap t.interp.Val, inferInstance, nofun⟩

abbrev Val (t : ValueType ordered) : Type :=
  t.interp.Val

instance (t : ValueType ordered) : DecidableEq t.Val :=
  t.interp.eq

variable (lib : Libraries) (iter : Iteration)

def toString : {ordered : Bool} → (t : ValueType ordered) → List Nat → t.Val → Except CastException Text
  | _, .int, _, n => .ok (lib.intToString n)
  | _, .vector t, place, v => vectorToString lib (fun i x => t.toString (i :: place) x) v
  | _, .list t, place, v => listToString lib (fun i x => t.toString (i :: place) x) v
  | _, .set t, place, v =>
    @setToString _ lib (fun i x => t.toString (i :: place) x) (t.interp.less rfl) v
  | _, .map t, place, v => mapToString lib (fun i x => t.toString (i :: place) x) v
  | _, .unordered_map t, place, v =>
    unorderedMapToString lib (fun i x => t.toString (i :: place) x) (iter.order place) v

def fromString : {ordered : Bool} → (t : ValueType ordered) → Text → Except CastException t.Val
  | _, .int, s => lib.stringToInt s
  | _, .vector t, s => vectorFromString lib t.fromString s
  | _, .list t, s => listFromString lib t.fromString s
  | _, .set t, s => @setFromString _ lib t.fromString (t.interp.less rfl) s
  | _, .map t, s => mapFromString lib t.fromString s
  | _, .unordered_map t, s => unorderedMapFromString lib t.fromString s

end ValueType

namespace ConfigVar
namespace Threads

variable {V : Type}

-- an exception of the conversion is logged, and the text is empty then
def toString (toStr : V → Except CastException Text) (s : Threads V) : Text :=
  match toStr s.m_value with
  | .ok text => text
  | .error _ => []

-- `setValue(FromStr()(val))` up to the end of its first section. An exception is logged.
def fromString [BEq V] (fromStr : Text → Except CastException V) (s : Threads V) (th : Nat)
    (val : Text) : Except Fault (Threads V × Bool) :=
  match fromStr val with
  | .ok value => (s.exec (.compare th value)).map fun next => (next.1, true)
  | .error _ => .ok (s, false)

end Threads
end ConfigVar

end CXS
