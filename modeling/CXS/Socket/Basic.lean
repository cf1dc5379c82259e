import CXS.Util.LTS

/-!
This module contains the member functions of `Socket` from `code/socket.cc` that open, name and close
its descriptor, and the two getters that keep the addresses they have asked the kernel for.

What the system calls in one call come back with is the argument `env`. `A` are the addresses, and
`family` is `getFamily()`. A `connect` with a timeout differs from one without it in the name of the
system call only.
-/

namespace CXS

-- what the kernel knows about an open descriptor: its number, its own address, and the peer's
structure Descriptor (A : Type) where
  fd : Nat
  name : A
  peer : Option A
  deriving DecidableEq, Repr

structure Socket (A : Type) where
  m_sock : Option (Descriptor A)
  m_family : Nat
  m_isConnected : Bool
  m_localAddr : Option A
  m_remoteAddr : Option A
  deriving DecidableEq, Repr

namespace Socket

variable {A : Type}

/--
A call that succeeds comes with what it leaves in the kernel: `socket` with the number and the address
of the new descriptor, `bind` and `listen` with the address, and `connect` with both addresses.
-/
structure Env (A : Type) where
  socket : Option (Nat × A)
  bind : Option A
  connect : Option (A × A)
  listen : Option A
  getsockname : Bool
  getpeername : Bool
  deriving DecidableEq, Repr

inductive Result (A : Type) where
  | bool (ret : Bool)
  | addr (a : A)
  | unknown (family : Nat)
  deriving DecidableEq, Repr

def new (family : Nat) : Socket A where
  m_sock := none
  m_family := family
  m_isConnected := false
  m_localAddr := none
  m_remoteAddr := none

def getRemoteAddress (s : Socket A) (env : Env A) : Socket A × Result A :=
  match s.m_remoteAddr with
  | some a => (s, .addr a)
  | none =>
    match s.m_sock.bind Descriptor.peer with
    | none => (s, .unknown s.m_family)
    | some a =>
      if env.getpeername then
        ({ s with m_remoteAddr := some a }, .addr a)
      else
        (s, .unknown s.m_family)

def getLocalAddress (s : Socket A) (env : Env A) : Socket A × Result A :=
  match s.m_localAddr with
  | some a => (s, .addr a)
  | none =>
    match s.m_sock.map Descriptor.name with
    | none => (s, .unknown s.m_family)
    | some a =>
      if env.getsockname then
        ({ s with m_localAddr := some a }, .addr a)
      else
        (s, .unknown s.m_family)

def close (s : Socket A) : Socket A × Bool :=
  if !s.m_isConnected && s.m_sock.isNone then
    (s, true)
  else
    ({ s with m_isConnected := false, m_sock := none }, false)

-- `if (!isValid()) newSock();`
def newSock (s : Socket A) (env : Env A) : Socket A :=
  if s.m_sock.isNone then
    { s with m_sock := env.socket.map fun (fd, name) => ⟨fd, name, none⟩ }
  else
    s

variable (family : A → Nat)

def bind (s : Socket A) (addr : A) (env : Env A) : Socket A × Bool :=
  let s := s.newSock env
  match s.m_sock with
  | none => (s, false)
  | some d =>
    if family addr ≠ s.m_family then
      (s, false)
    else
      match env.bind with
      | none => (s, false)
      | some name =>
        let s := { s with m_sock := some { d with name := name } }
        ((s.getLocalAddress env).1, true)

def connect (s : Socket A) (addr : A) (env : Env A) : Socket A × Bool :=
  let s := s.newSock env
  match s.m_sock with
  | none => (s, false)
  | some d =>
    if family addr ≠ s.m_family then
      (s, false)
    else
      match env.connect with
      | none => (s.close.1, false)
      | some (name, peer) =>
        let s := { s with m_sock := some { d with name := name, peer := some peer } }
        let s := { s with m_isConnected := true }
        let s := (s.getRemoteAddress env).1
        ((s.getLocalAddress env).1, true)

def listen (s : Socket A) (env : Env A) : Socket A × Bool :=
  match s.m_sock with
  | none => (s, false)
  | some d =>
    match env.listen with
    | none => (s, false)
    | some name => ({ s with m_sock := some { d with name := name } }, true)

inductive Call (A : Type) where
  | bind (addr : A) (env : Env A)
  | connect (addr : A) (env : Env A)
  | listen (env : Env A)
  | close
  | getLocalAddress (env : Env A)
  | getRemoteAddress (env : Env A)
  deriving DecidableEq, Repr

def call (s : Socket A) : Call A → Socket A × Result A
  | .bind addr env =>
    let (s, ret) := s.bind family addr env
    (s, .bool ret)
  | .connect addr env =>
    let (s, ret) := s.connect family addr env
    (s, .bool ret)
  | .listen env =>
    let (s, ret) := s.listen env
    (s, .bool ret)
  | .close =>
    let (s, ret) := s.close
    (s, .bool ret)
  | .getLocalAddress env => s.getLocalAddress env
  | .getRemoteAddress env => s.getRemoteAddress env

def lts : LTS (Socket A) (Call A) where
  step s c s' := (s.call family c).1 = s'

end Socket
end CXS
