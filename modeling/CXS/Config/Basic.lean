import CXS.Util.LTS
import Mathlib.Logic.Function.Basic

/-!
This module contains `Config` from `code/config.hpp` and `code/config.cc`: the registry of
configuration variables and `LoadFromYaml`, which hands the texts of a YAML tree to them.

A `std::string` is the list of its characters. A `ConfigVarBase::ptr` is the place of the variable in
`vars`, which lists all of them in the order of their creation, and `T` are the types that a variable
can have. What a variable does with the text is not part of this module, so `LoadFromYaml` returns the
calls of `fromString`.
-/

namespace CXS

def nameChars : List Char :=
  "abcdefghijklmnopqrstuvwxyz._12345678".toList

-- `name.find_first_not_of(..) != std::string::npos`
def hasInvalidChar (name : List Char) : Bool :=
  name.any fun c => !nameChars.contains c

def tolower (name : List Char) : List Char :=
  name.map Char.toLower

structure ConfigVar (T V : Type) where
  m_name : List Char
  type : T
  m_value : V
  deriving DecidableEq, Repr

structure Config (T V : Type) where
  vars : List (ConfigVar T V)
  s_datas : List Char → Option Nat

/--
A node as `yaml-cpp` shows it. The key of an entry is what `Scalar()` gives for the key node.
-/
inductive Yaml where
  | null
  | scalar (text : List Char)
  | sequence (items : List Yaml)
  | map (entries : List (List Char × Yaml))

namespace Yaml

variable {P : Yaml → Prop} {Q : List (List Char × Yaml) → Prop}

mutual

theorem induct_node (leaf : ∀ node, (∀ entries, node ≠ .map entries) → P node)
    (map : ∀ entries, Q entries → P (.map entries)) (nil : Q [])
    (cons : ∀ key node entries, P node → Q entries → Q ((key, node) :: entries)) : ∀ node, P node
  | .null => leaf .null (by intro entries h; cases h)
  | .scalar text => leaf (.scalar text) (by intro entries h; cases h)
  | .sequence items => leaf (.sequence items) (by intro entries h; cases h)
  | .map entries => map entries (induct_entries leaf map nil cons entries)

theorem induct_entries (leaf : ∀ node, (∀ entries, node ≠ .map entries) → P node)
    (map : ∀ entries, Q entries → P (.map entries)) (nil : Q [])
    (cons : ∀ key node entries, P node → Q entries → Q ((key, node) :: entries))
    : ∀ entries, Q entries
  | [] => nil
  | (key, node) :: entries =>
    cons key node entries (induct_node leaf map nil cons node)
      (induct_entries leaf map nil cons entries)

end

theorem induct (leaf : ∀ node, (∀ entries, node ≠ .map entries) → P node)
    (map : ∀ entries, Q entries → P (.map entries)) (nil : Q [])
    (cons : ∀ key node entries, P node → Q entries → Q ((key, node) :: entries))
    : (∀ node, P node) ∧ ∀ entries, Q entries :=
  ⟨induct_node leaf map nil cons, induct_entries leaf map nil cons⟩

end Yaml

namespace Config

variable {T V : Type} [DecidableEq T]

def new : Config T V where
  vars := []
  s_datas _ := none

section Lookup

-- `std::dynamic_pointer_cast<ConfigVar<T>>`
def cast (cfg : Config T V) (type : T) (p : Nat) : Option Nat :=
  if cfg.vars[p]?.any (fun var => var.type == type) then some p else none

def LookupBase (cfg : Config T V) (name : List Char) : Option Nat :=
  cfg.s_datas name

def Lookup (cfg : Config T V) (type : T) (name : List Char) : Option Nat :=
  (cfg.s_datas name).bind (cfg.cast type)

inductive Result where
  | ptr (p : Option Nat)
  | invalidArgument (name : List Char)
  deriving DecidableEq, Repr

def create (cfg : Config T V) (type : T) (name : List Char) (default_value : V) : Config T V where
  vars := cfg.vars ++ [{ m_name := tolower name, type := type, m_value := default_value }]
  s_datas := Function.update cfg.s_datas name (some cfg.vars.length)

-- `Lookup` with a default value. A variable of another type is only logged.
def LookupDefault (cfg : Config T V) (type : T) (name : List Char) (default_value : V)
    : Config T V × Result :=
  match (cfg.s_datas name).bind (cfg.cast type) with
  | some temp => (cfg, .ptr (some temp))
  | none =>
    if hasInvalidChar name then
      (cfg, .invalidArgument name)
    else
      (cfg.create type name default_value, .ptr (some cfg.vars.length))

end Lookup

section Load

/--
A `YAML::Node` refers to a node of a tree. `place` are the positions of the entries on the way from
the node to the root.
-/
structure NodeRef where
  place : List Nat
  node : Yaml

-- the path that `ListAllMember` passes down to the value of an entry
def joinKey (pre key : List Char) : List Char :=
  if pre.isEmpty then key else pre ++ '.' :: key

mutual

def ListAllMember (pre : List Char) (place : List Nat) (node : Yaml) : List (List Char × NodeRef) :=
  if hasInvalidChar pre then
    []
  else
    (pre, ⟨place, node⟩) ::
      match node with
      | .map entries => ListEntries pre place 0 entries
      | _ => []

def ListEntries (pre : List Char) (place : List Nat) (i : Nat)
    : List (List Char × Yaml) → List (List Char × NodeRef)
  | [] => []
  | (key, node) :: entries =>
    ListAllMember (joinKey pre key) (i :: place) node ++ ListEntries pre place (i + 1) entries

end

structure FromString where
  var : Nat
  place : List Nat
  val : List Char
  deriving DecidableEq, Repr

variable (emit : Yaml → List Char)

-- the text that `fromString` gets. `emit` is what the stream operator of a node writes.
def text : Yaml → List Char
  | .scalar text => text
  | node => emit node

def loadNode (cfg : Config T V) (i : List Char × NodeRef) : Option FromString :=
  if i.1.isEmpty then
    none
  else
    (cfg.LookupBase (tolower i.1)).map fun var => ⟨var, i.2.place, text emit i.2.node⟩

def LoadFromYaml (cfg : Config T V) (root : Yaml) : List FromString :=
  (ListAllMember [] [] root).filterMap (cfg.loadNode emit)

end Load

end Config
end CXS
