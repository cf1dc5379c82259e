import CXS.Config.Basic
import CXS.Util.Keyed

namespace CXS

namespace Yaml

inductive Exception where
  | BadSubscript
  | BadConversion
  | logic_error (what : String)
  deriving DecidableEq, Repr

def find (node : Yaml) (key : String) : Option Yaml :=
  match node with
  | .map entries => (entries.find? fun entry => entry.1 == key.toList).map (·.2)
  | _ => none

-- `node[key]` where the node is read
def get (node : Yaml) (key : String) : Except Exception (Option Yaml) :=
  match node with
  | .scalar _ => .error .BadSubscript
  | node => .ok (node.find key)

-- `node[key] = value`
def set (node : Yaml) (key : String) (value : Yaml) : Yaml :=
  match node with
  | .map entries =>
    if (node.find key).isSome then
      .map (entries.map fun entry => if entry.1 == key.toList then (entry.1, value) else entry)
    else
      .map (entries ++ [(key.toList, value)])
  | _ => .map [(key.toList, value)]

def setString (node : Yaml) (key value : String) : Yaml :=
  node.set key (.scalar value.toList)

-- `node[key].push_back(value)`
def pushBack (node : Yaml) (key : String) (value : Yaml) : Yaml :=
  match node.find key with
  | some (.sequence items) => node.set key (.sequence (items ++ [value]))
  | _ => node.set key (.sequence [value])

def size : Yaml → Nat
  | .sequence items => items.length
  | .map entries => entries.length
  | _ => 0

-- `node[x]`. The key of a map is compared with the decimal digits of `x`.
def index (node : Yaml) (x : Nat) : Yaml :=
  match node with
  | .sequence items => (items[x]?).getD .null
  | .map _ => (node.find x.repr).getD .null
  | _ => .null

-- `as<std::string>()`
def asString : Yaml → Except Exception String
  | .scalar text => .ok (String.ofList text)
  | _ => .error .BadConversion

section Set

variable {entries : List (List Char × Yaml)} {key : String}

theorem find_replace (h : ((Yaml.map entries).find key).isSome) (value : Yaml) (key' : String)
    : (Yaml.map (entries.map fun entry =>
          if entry.1 == key.toList then (entry.1, value) else entry)).find key'
      = if key' = key then some value else (Yaml.map entries).find key' := by
  unfold find at h ⊢
  rw [Option.isSome_map] at h
  dsimp only
  by_cases hkey : key' = key
  . rw [if_pos hkey, hkey, Keyed.find?_map_self value h]
    rfl
  . have hkeys : key'.toList ≠ key.toList := fun heq => hkey (String.toList_inj.mp heq)
    rw [if_neg hkey, Keyed.find?_map_ne entries value hkeys]

theorem find_add (h : ¬((Yaml.map entries).find key).isSome) (value : Yaml) (key' : String)
    : (Yaml.map (entries ++ [(key.toList, value)])).find key'
      = if key' = key then some value else (Yaml.map entries).find key' := by
  unfold find at h ⊢
  rw [Option.isSome_map] at h
  dsimp only
  rw [List.find?_append]
  by_cases hkey : key' = key
  . rw [if_pos hkey, hkey]
    simp [Option.not_isSome_iff_eq_none.mp h]
  . have hkeys : (key.toList == key'.toList) = false := by
      rw [beq_eq_false_iff_ne]
      exact fun heq => hkey (String.toList_inj.mp heq.symm)
    rw [if_neg hkey]
    simp [hkeys]

end Set

theorem find_set (node : Yaml) (key : String) (value : Yaml) (key' : String)
    : (node.set key value).find key' = if key' = key then some value else node.find key' := by
  have hempty : ¬((Yaml.map []).find key).isSome := by simp [find]
  cases node with
  | null | scalar | sequence => exact find_add hempty value key'
  | map entries =>
    unfold set
    dsimp only
    split
    . next hsome => exact find_replace hsome value key'
    . next hnone => exact find_add hnone value key'

theorem get_eq {node : Yaml} (h : ∀ text, node ≠ .scalar text) (key : String)
    : node.get key = .ok (node.find key) := by
  cases node with
  | scalar text => exact absurd rfl (h text)
  | null | sequence | map => rfl

theorem set_ne_scalar (node : Yaml) (key : String) (value : Yaml) (text : List Char)
    : node.set key value ≠ .scalar text := by
  unfold set
  split
  . split <;> simp
  . simp

section PushBack

variable {α : Type} (f : α → Yaml) (key : String)

theorem pushBack_ne_scalar (node : Yaml) (value : Yaml) (text : List Char)
    : node.pushBack key value ≠ .scalar text := by
  unfold pushBack
  split <;> apply set_ne_scalar

theorem find_pushBack_ne {key' : String} (h : key' ≠ key) (node : Yaml) (value : Yaml)
    : (node.pushBack key value).find key' = node.find key' := by
  unfold pushBack
  split <;> rw [find_set, if_neg h]

theorem foldl_pushBack_ne_scalar {node : Yaml} (h : ∀ text, node ≠ .scalar text) (l : List α)
    : ∀ text, l.foldl (fun node a => node.pushBack key (f a)) node ≠ .scalar text := by
  induction l generalizing node with
  | nil => exact h
  | cons a l ih => exact ih (pushBack_ne_scalar key node (f a))

theorem find_foldl_pushBack_ne {key' : String} (h : key' ≠ key) (node : Yaml) (l : List α)
    : (l.foldl (fun node a => node.pushBack key (f a)) node).find key' = node.find key' := by
  induction l generalizing node with
  | nil => rfl
  | cons a l ih => rw [List.foldl_cons, ih, find_pushBack_ne key h]

theorem find_foldl_pushBack_sequence {node : Yaml} {items : List Yaml}
    (h : node.find key = some (.sequence items)) (l : List α)
    : (l.foldl (fun node a => node.pushBack key (f a)) node).find key
        = some (.sequence (items ++ l.map f)) := by
  induction l generalizing node items with
  | nil => simpa using h
  | cons a l ih =>
    have hpush : (node.pushBack key (f a)).find key = some (.sequence (items ++ [f a])) := by
      unfold pushBack
      rw [h]
      dsimp only
      rw [find_set, if_pos rfl]
    rw [List.foldl_cons, ih hpush]
    simp

theorem find_foldl_pushBack {node : Yaml} (h : node.find key = none) (l : List α)
    : (l.foldl (fun node a => node.pushBack key (f a)) node).find key
        = if l = [] then none else some (.sequence (l.map f)) := by
  cases l with
  | nil => exact h
  | cons a l =>
    have hpush : (node.pushBack key (f a)).find key = some (.sequence [f a]) := by
      unfold pushBack
      rw [h]
      dsimp only
      rw [find_set, if_pos rfl]
    rw [List.foldl_cons, find_foldl_pushBack_sequence f key hpush, if_neg (by simp)]
    rfl

end PushBack

end Yaml

end CXS
