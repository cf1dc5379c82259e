import CXS.Socket.Basic

namespace CXS
namespace Socket

variable {A : Type}

/--
A connected socket has a descriptor, a cached address is the one that the kernel has for the
descriptor, and `getRemoteAddress` returns the peer of the descriptor.
-/
structure Cached (s : Socket A) : Prop where
  connected : s.m_isConnected = true → s.m_sock ≠ none
  localAddr : ∀ a, s.m_localAddr = some a → ∃ d, s.m_sock = some d ∧ d.name = a
  remoteAddr : ∀ a, s.m_remoteAddr = some a → ∃ d, s.m_sock = some d ∧ d.peer = some a
  returnsPeer : ∀ d peer env, s.m_sock = some d → d.peer = some peer → env.getpeername = true
    → (s.getRemoteAddress env).2 = .addr peer

def Agrees (cached : Option A) (a : A) : Prop :=
  ∀ b, cached = some b → b = a

def Uncached (s : Socket A) : Prop :=
  s.m_localAddr = none ∧ s.m_remoteAddr = none

def Keeps (family : A → Nat) (s : Socket A) : Call A → Prop
  | .bind addr env =>
    family addr = s.m_family → ∀ name, env.bind = some name → Agrees s.m_localAddr name
  | .connect addr env =>
    family addr = s.m_family →
      match env.connect with
      | none => Uncached s
      | some (name, peer) => Agrees s.m_localAddr name ∧ Agrees s.m_remoteAddr peer
  | .listen env => ∀ name, env.listen = some name → Agrees s.m_localAddr name
  | .close => Uncached s
  | .getLocalAddress _ => True
  | .getRemoteAddress _ => True

section Cached

variable {s : Socket A}

theorem returnsPeer_of (h : ∀ a, s.m_remoteAddr = some a → ∃ d, s.m_sock = some d ∧ d.peer = some a)
    (d : Descriptor A) (peer : A) (env : Env A) (hsock : s.m_sock = some d)
    (hpeer : d.peer = some peer) (henv : env.getpeername = true)
    : (s.getRemoteAddress env).2 = .addr peer := by
  unfold getRemoteAddress
  split
  . next a hcached =>
    obtain ⟨d', hsock', hpeer'⟩ := h a hcached
    rw [hsock] at hsock'
    injection hsock' with hd
    rw [← hd, hpeer] at hpeer'
    injection hpeer' with ha
    rw [ha]
  . rw [hsock, Option.bind_some, hpeer]
    dsimp only
    rw [if_pos henv]

theorem cached_none (hconnected : s.m_isConnected = false) (hsock : s.m_sock = none)
    : Cached s ↔ Uncached s := by
  constructor
  . intro h
    constructor
    . cases hlocal : s.m_localAddr with
      | none => rfl
      | some a =>
        obtain ⟨d, hd, _⟩ := h.localAddr a hlocal
        rw [hsock] at hd
        cases hd
    . cases hremote : s.m_remoteAddr with
      | none => rfl
      | some a =>
        obtain ⟨d, hd, _⟩ := h.remoteAddr a hremote
        rw [hsock] at hd
        cases hd
  . intro ⟨hlocal, hremote⟩
    refine ⟨?_, ?_, ?_, ?_⟩
    . intro h
      rw [hconnected] at h
      cases h
    . intro a ha
      rw [hlocal] at ha
      cases ha
    . intro a ha
      rw [hremote] at ha
      cases ha
    . intro d peer env hd
      rw [hsock] at hd
      cases hd

theorem cached_some {d : Descriptor A} (hsock : s.m_sock = some d)
    : Cached s ↔ Agrees s.m_localAddr d.name ∧ ∀ a, s.m_remoteAddr = some a → d.peer = some a := by
  constructor
  . intro h
    constructor
    . intro a ha
      obtain ⟨d', hd', hname⟩ := h.localAddr a ha
      rw [hsock] at hd'
      injection hd' with hd'
      rw [hd', hname]
    . intro a ha
      obtain ⟨d', hd', hpeer⟩ := h.remoteAddr a ha
      rw [hsock] at hd'
      injection hd' with hd'
      rw [hd', hpeer]
  . intro ⟨hlocal, hremote⟩
    have hpeer : ∀ a, s.m_remoteAddr = some a → ∃ d, s.m_sock = some d ∧ d.peer = some a := by
      intro a ha
      exact ⟨d, hsock, hremote a ha⟩
    refine ⟨?_, ?_, hpeer, returnsPeer_of hpeer⟩
    . intro _ hnone
      rw [hsock] at hnone
      cases hnone
    . intro a ha
      exact ⟨d, hsock, (hlocal a ha).symm⟩

end Cached

section Calls

variable {s : Socket A} (env : Env A)

theorem getLocalAddress_cached_iff : Cached (s.getLocalAddress env).1 ↔ Cached s := by
  unfold getLocalAddress
  split
  . rfl
  . next hnone =>
    split
    . rfl
    . next a hname =>
      split
      . obtain ⟨d, hsock, rfl⟩ := Option.map_eq_some_iff.mp hname
        rw [cached_some hsock, cached_some (d := d) (by exact hsock), hnone]
        constructor
        . intro h
          refine ⟨?_, h.2⟩
          intro b hb
          cases hb
        . intro h
          refine ⟨?_, h.2⟩
          intro b hb
          exact (Option.some.inj hb).symm
      . rfl

theorem getRemoteAddress_cached_iff : Cached (s.getRemoteAddress env).1 ↔ Cached s := by
  unfold getRemoteAddress
  split
  . rfl
  . next hnone =>
    split
    . rfl
    . next a hbind =>
      split
      . obtain ⟨d, hsock, hpeer⟩ := Option.bind_eq_some_iff.mp hbind
        rw [cached_some hsock, cached_some (d := d) (by exact hsock), hnone]
        constructor
        . intro h
          refine ⟨h.1, ?_⟩
          intro b hb
          cases hb
        . intro h
          refine ⟨h.1, ?_⟩
          intro b hb
          rw [hpeer]
          exact hb
      . rfl

theorem close_cached_iff : Cached s.close.1 ↔ Uncached s := by
  unfold close
  split
  . next hclosed =>
    rw [Bool.and_eq_true, Bool.not_eq_true', Option.isNone_iff_eq_none] at hclosed
    exact cached_none hclosed.1 hclosed.2
  . exact cached_none (s := { s with m_isConnected := false, m_sock := none }) rfl rfl

theorem not_connected_of_invalid (h : Cached s) (hnone : s.m_sock = none)
    : s.m_isConnected = false := by
  cases hc : s.m_isConnected with
  | false => rfl
  | true => exact absurd hnone (h.connected hc)

theorem uncached_of_invalid (h : Cached s) (hnone : s.m_sock = none) : Uncached s :=
  (cached_none (not_connected_of_invalid h hnone) hnone).mp h

theorem newSock_cached (h : Cached s) : Cached (s.newSock env) := by
  unfold newSock
  split
  . next hnone =>
    rw [Option.isNone_iff_eq_none] at hnone
    have hconnected := not_connected_of_invalid h hnone
    obtain ⟨hlocal, hremote⟩ := uncached_of_invalid h hnone
    cases hsocket : env.socket with
    | none =>
      apply (cached_none (by exact hconnected) rfl).mpr
      exact ⟨hlocal, hremote⟩
    | some opened =>
      apply (cached_some (d := ⟨opened.1, opened.2, none⟩) rfl).mpr
      constructor
      . intro a ha
        rw [hlocal] at ha
        cases ha
      . intro a ha
        rw [hremote] at ha
        cases ha
  . exact h

@[simp]
theorem newSock_localAddr : (s.newSock env).m_localAddr = s.m_localAddr := by
  unfold newSock
  split <;> rfl

@[simp]
theorem newSock_remoteAddr : (s.newSock env).m_remoteAddr = s.m_remoteAddr := by
  unfold newSock
  split <;> rfl

@[simp]
theorem newSock_family : (s.newSock env).m_family = s.m_family := by
  unfold newSock
  split <;> rfl

variable (family : A → Nat) (addr : A)

theorem listen_cached_iff (h : Cached s)
    : Cached (s.listen env).1 ↔ ∀ name, env.listen = some name → Agrees s.m_localAddr name := by
  unfold listen
  split
  . next hnone =>
    refine iff_of_true h ?_
    intro name _ a ha
    obtain ⟨d, hd, _⟩ := h.localAddr a ha
    rw [hnone] at hd
    cases hd
  . next d hsock =>
    split
    . next hfails =>
      refine iff_of_true h ?_
      intro name hname
      rw [hfails] at hname
      cases hname
    . next name hname =>
      rw [cached_some (d := { d with name := name }) rfl]
      constructor
      . intro hcached name' hname'
        rw [hname] at hname'
        cases hname'
        exact hcached.1
      . intro hagrees
        exact ⟨hagrees name hname, ((cached_some hsock).mp h).2⟩

theorem agrees_of_uncached (h : Uncached s) (a : A)
    : Agrees s.m_localAddr a ∧ Agrees s.m_remoteAddr a := by
  constructor
  . intro b hb
    rw [h.1] at hb
    cases hb
  . intro b hb
    rw [h.2] at hb
    cases hb

theorem bind_cached_iff (h : Cached s)
    : Cached (s.bind family addr env).1
        ↔ (family addr = s.m_family → ∀ name, env.bind = some name → Agrees s.m_localAddr name) := by
  have hnew := newSock_cached env h
  unfold bind
  dsimp only
  split
  . next hnone =>
    refine iff_of_true hnew ?_
    intro _ name _
    have huncached := uncached_of_invalid hnew hnone
    unfold Uncached at huncached
    rw [newSock_localAddr, newSock_remoteAddr] at huncached
    exact (agrees_of_uncached huncached name).1
  . next d hsock =>
    split
    . next hfamily =>
      rw [newSock_family] at hfamily
      refine iff_of_true hnew ?_
      intro heq
      exact absurd heq hfamily
    . next hfamily =>
      rw [newSock_family, not_not] at hfamily
      split
      . next hfails =>
        refine iff_of_true hnew ?_
        intro _ name hname
        rw [hfails] at hname
        cases hname
      . next name hname =>
        rw [getLocalAddress_cached_iff, cached_some (d := { d with name := name }) rfl]
        dsimp only
        rw [newSock_localAddr]
        constructor
        . intro hcached _ name' hname'
          rw [hname] at hname'
          cases hname'
          exact hcached.1
        . intro hagrees
          exact ⟨hagrees hfamily name hname, ((cached_some hsock).mp hnew).2⟩

theorem connect_cached_iff (h : Cached s)
    : Cached (s.connect family addr env).1 ↔ Keeps family s (.connect addr env) := by
  have hnew := newSock_cached env h
  unfold connect Keeps
  dsimp only
  split
  . next hnone =>
    refine iff_of_true hnew ?_
    intro _
    have huncached := uncached_of_invalid hnew hnone
    unfold Uncached at huncached
    rw [newSock_localAddr, newSock_remoteAddr] at huncached
    split
    . exact huncached
    . next name peer _ =>
      exact ⟨(agrees_of_uncached huncached name).1, (agrees_of_uncached huncached peer).2⟩
  . next d hsock =>
    split
    . next hfamily =>
      rw [newSock_family] at hfamily
      refine iff_of_true hnew ?_
      intro heq
      exact absurd heq hfamily
    . next hfamily =>
      rw [newSock_family, not_not] at hfamily
      rw [forall_prop_of_true hfamily]
      rcases env.connect with _ | ⟨name, peer⟩
      . change Cached (s.newSock env).close.1 ↔ Uncached s
        rw [close_cached_iff]
        unfold Uncached
        rw [newSock_localAddr, newSock_remoteAddr]
      . refine ((getLocalAddress_cached_iff env).trans
          ((getRemoteAddress_cached_iff env).trans (cached_some rfl))).trans ?_
        dsimp only
        rw [newSock_localAddr, newSock_remoteAddr]
        constructor
        . intro ⟨hlocal, hremote⟩
          refine ⟨hlocal, ?_⟩
          intro a ha
          exact (Option.some.inj (hremote a ha)).symm
        . intro ⟨hlocal, hremote⟩
          refine ⟨hlocal, ?_⟩
          intro a ha
          rw [hremote a ha]

theorem call_cached_iff (h : Cached s) (c : Call A)
    : Cached (s.call family c).1 ↔ Keeps family s c := by
  cases c with
  | bind addr env => exact bind_cached_iff env family addr h
  | connect addr env => exact connect_cached_iff env family addr h
  | listen env => exact listen_cached_iff env h
  | close => exact close_cached_iff
  | getLocalAddress env => exact iff_of_true ((getLocalAddress_cached_iff env).mpr h) trivial
  | getRemoteAddress env => exact iff_of_true ((getRemoteAddress_cached_iff env).mpr h) trivial

end Calls

section Run

variable (family : A → Nat)

theorem cached_new (n : Nat) : Cached (new n : Socket A) :=
  (cached_none rfl rfl).mpr ⟨rfl, rfl⟩

def reconnect : List (Call String) :=
  [
    .connect "10.0.0.1:80"
      ⟨some (7, "0.0.0.0:0"), none, some ("10.0.0.9:40000", "10.0.0.1:80"), none, true, true⟩,
    .close,
    .connect "10.0.0.2:80"
      ⟨some (7, "0.0.0.0:0"), none, some ("10.0.0.9:40001", "10.0.0.2:80"), none, true, true⟩
  ]

end Run

end Socket
end CXS
