import CXS.Socket.Basic
import Mathlib.Data.List.Induction

namespace CXS

structure TCPServer (A : Type) where
  m_socks : List (Socket A)

namespace TCPServer

variable {A : Type}

structure Attempt (A : Type) where
  addr : A
  onBind : Socket.Env A
  onListen : Socket.Env A

structure Call (A : Type) where
  addrs : List (Attempt A)
  fails : List A

def new : TCPServer A where
  m_socks := []

variable (family : A → Nat)

-- the turn of the loop for one address, up to `m_socks.push_back(sock)`
def Attempt.sock (a : Attempt A) : Option (Socket A) :=
  let sock := Socket.new (family a.addr)
  let (sock, bound) := sock.bind family a.addr a.onBind
  if !bound then
    none
  else
    let (sock, listening) := sock.listen a.onListen
    if !listening then
      none
    else
      some sock

def bindLoop (m_socks : List (Socket A)) (fails : List A)
    : List (Attempt A) → List (Socket A) × List A
  | [] => (m_socks, fails)
  | a :: addrs =>
    match a.sock family with
    | none => bindLoop m_socks (fails ++ [a.addr]) addrs
    | some sock => bindLoop (m_socks ++ [sock]) fails addrs

def bind (s : TCPServer A) (c : Call A) : TCPServer A × List A × Bool :=
  let (m_socks, fails) := bindLoop family s.m_socks c.fails c.addrs
  if !fails.isEmpty then
    (⟨[]⟩, fails, false)
  else
    (⟨m_socks⟩, fails, true)

def lts : LTS (TCPServer A) (Call A) where
  step s c s' := (s.bind family c).1 = s'

def failed (addrs : List (Attempt A)) : List A :=
  (addrs.filter fun a => (a.sock family).isNone).map Attempt.addr

/--
`bind` succeeds if all addresses do, and appends their sockets in order. Otherwise it keeps the
sockets that are there and names the addresses that have failed.
-/
structure Binds (s : TCPServer A) (c : Call A) : Prop where
  returns : (s.bind family c).2.2 = true ↔ failed family c.addrs = []
  appends : (s.bind family c).2.2 = true
    → ∃ socks, c.addrs.map (·.sock family) = socks.map some
        ∧ (s.bind family c).1.m_socks = s.m_socks ++ socks
  keeps : (s.bind family c).2.2 = false
    → (s.bind family c).1.m_socks = s.m_socks
        ∧ ∀ a, a ∈ (s.bind family c).2.1 ↔ a ∈ failed family c.addrs

theorem bindLoop_eq (m_socks : List (Socket A)) (fails : List A) (addrs : List (Attempt A))
    : bindLoop family m_socks fails addrs
        = (m_socks ++ addrs.filterMap (·.sock family),
            fails ++ failed family addrs) := by
  induction addrs generalizing m_socks fails with
  | nil => simp [bindLoop, failed]
  | cons a addrs ih =>
    unfold bindLoop
    split
    . next hnone =>
      rw [ih]
      simp [failed, hnone]
    . next sock hsome =>
      rw [ih]
      simp [failed, hsome]

theorem bind_eq (s : TCPServer A) (c : Call A)
    : s.bind family c
        = if c.fails = [] ∧ failed family c.addrs = [] then
            (⟨s.m_socks ++ c.addrs.filterMap (·.sock family)⟩, [], true)
          else
            (⟨[]⟩, c.fails ++ failed family c.addrs, false) := by
  unfold bind
  rw [bindLoop_eq]
  dsimp only
  by_cases hok : c.fails = [] ∧ failed family c.addrs = []
  . rw [if_pos hok, hok.1, hok.2]
    rfl
  . rw [if_neg hok, if_pos]
    rw [← List.append_eq_nil_iff] at hok
    rw [Bool.not_eq_true', List.isEmpty_eq_false_iff]
    exact hok

theorem map_sock_of_failed_nil {addrs : List (Attempt A)} (h : failed family addrs = [])
    : addrs.map (·.sock family) = (addrs.filterMap (·.sock family)).map some := by
  induction addrs with
  | nil => rfl
  | cons a addrs ih =>
    unfold failed at h ih
    cases hsock : a.sock family with
    | none =>
      rw [List.filter_cons_of_pos (by rw [hsock]; rfl)] at h
      cases h
    | some sock =>
      rw [List.filter_cons_of_neg (by rw [hsock]; exact Bool.false_ne_true)] at h
      rw [List.map_cons, List.filterMap_cons_some hsock, List.map_cons, hsock, ih h]

theorem binds_iff_of_binds {s : TCPServer A} {c : Call A} (hfailed : failed family c.addrs = [])
    : Binds family s c ↔ c.fails = [] := by
  constructor
  . intro h
    by_contra hfails
    have hret := h.returns.mpr hfailed
    rw [bind_eq, if_neg (fun hok => hfails hok.1)] at hret
    cases hret
  . intro hfails
    have heq := bind_eq family s c
    rw [if_pos ⟨hfails, hfailed⟩] at heq
    refine ⟨?_, ?_, ?_⟩
    . rw [heq]
      exact iff_of_true rfl hfailed
    . intro _
      rw [heq]
      exact ⟨_, map_sock_of_failed_nil family hfailed, rfl⟩
    . intro hret
      rw [heq] at hret
      cases hret

theorem binds_iff_of_failed {s : TCPServer A} {c : Call A} (hfailed : failed family c.addrs ≠ [])
    : Binds family s c ↔ s.m_socks = [] ∧ ∀ a ∈ c.fails, a ∈ failed family c.addrs := by
  have heq := bind_eq family s c
  rw [if_neg (fun hok => hfailed hok.2)] at heq
  constructor
  . intro h
    have hkeeps := h.keeps (by rw [heq])
    rw [heq] at hkeeps
    refine ⟨hkeeps.1.symm, ?_⟩
    intro a ha
    exact (hkeeps.2 a).mp (List.mem_append_left _ ha)
  . intro ⟨hsocks, hfails⟩
    refine ⟨?_, ?_, ?_⟩
    . rw [heq]
      exact iff_of_false Bool.false_ne_true hfailed
    . intro hret
      rw [heq] at hret
      cases hret
    . intro _
      rw [heq]
      refine ⟨hsocks.symm, ?_⟩
      intro a
      rw [List.mem_append]
      exact or_iff_right_of_imp (hfails a)

theorem binds_iff (s : TCPServer A) (c : Call A)
    : Binds family s c
        ↔ if failed family c.addrs = [] then c.fails = []
          else s.m_socks = [] ∧ ∀ a ∈ c.fails, a ∈ failed family c.addrs := by
  split
  . next hfailed => exact binds_iff_of_binds family hfailed
  . next hfailed => exact binds_iff_of_failed family hfailed

section Run

def BindsEach (calls : List (Call A)) : Prop :=
  ∀ pre c post s, calls = pre ++ c :: post → (lts family).Run new pre s → Binds family s c

-- a call of `bind` that does what it should after the calls in `pre` have done so
def Fits (pre : List (Call A)) (c : Call A) : Prop :=
  if failed family c.addrs = [] then
    c.fails = []
  else
    (∀ c' ∈ pre, failed family c'.addrs = [] → c'.addrs = [])
    ∧ ∀ a ∈ c.fails, a ∈ failed family c.addrs

theorem filterMap_sock_nil {addrs : List (Attempt A)} (h : failed family addrs = [])
    : addrs.filterMap (·.sock family) = [] ↔ addrs = [] := by
  have hmap := map_sock_of_failed_nil family h
  constructor
  . intro hnil
    rw [hnil] at hmap
    exact List.map_eq_nil_iff.mp hmap
  . intro hnil
    rw [hnil]
    rfl

theorem BindsEach.of_append {pre post : List (Call A)} (h : BindsEach family (pre ++ post))
    : BindsEach family pre := by
  intro pre' c post' s heq hrun
  exact h pre' c (post' ++ post) s (by rw [heq, List.append_assoc, List.cons_append]) hrun

theorem socks_eq_nil_iff {pre : List (Call A)} {s : TCPServer A} (hrun : (lts family).Run new pre s)
    (hbinds : BindsEach family pre)
    : s.m_socks = [] ↔ ∀ c ∈ pre, failed family c.addrs = [] → c.addrs = [] := by
  induction pre using List.reverseRecOn generalizing s with
  | nil =>
    cases hrun
    exact iff_of_true rfl (by simp)
  | append_singleton pre c ih =>
    obtain ⟨t, hpre, hlast⟩ := hrun.of_append
    have ih := ih hpre hbinds.of_append
    have hc : Binds family t c := hbinds pre c [] t rfl hpre
    cases hlast with
    | cons hstep hnil =>
      cases hnil
      rw [← hstep, List.forall_mem_append, ← ih, List.forall_mem_singleton]
      by_cases hfailed : failed family c.addrs = []
      . have hfails := (binds_iff family t c).mp hc
        rw [if_pos hfailed] at hfails
        rw [bind_eq, if_pos ⟨hfails, hfailed⟩, List.append_eq_nil_iff,
          filterMap_sock_nil family hfailed, forall_prop_of_true hfailed]
      . have hret : (t.bind family c).2.2 = false := by
          rw [← Bool.not_eq_true, hc.returns]
          exact hfailed
        rw [(hc.keeps hret).1]
        constructor
        . intro h
          exact ⟨h, fun hnil => absurd hnil hfailed⟩
        . intro h
          exact h.1

theorem bindsEach_iff (calls : List (Call A))
    : BindsEach family calls ↔ ∀ pre c post, calls = pre ++ c :: post → Fits family pre c := by
  constructor
  . intro h pre c post heq
    obtain ⟨s, hrun⟩ := LTS.Run.exists_of_total (M := lts family) (fun _ _ => ⟨_, rfl⟩) new pre
    have hc := (binds_iff family s c).mp (h pre c post s heq hrun)
    rw [heq] at h
    rw [socks_eq_nil_iff family hrun h.of_append] at hc
    exact hc
  . intro h
    induction calls using List.reverseRecOn with
    | nil =>
      intro pre c post s heq
      cases pre <;> cases heq
    | append_singleton calls c ih =>
      have hcalls : BindsEach family calls := by
        apply ih
        intro pre c' post heq
        apply h pre c' (post ++ [c])
        rw [heq, List.append_assoc, List.cons_append]
      intro pre c' post s heq hrun
      cases post using List.reverseRecOn with
      | nil =>
        obtain ⟨rfl, hc⟩ := List.append_inj' heq rfl
        cases hc
        rw [binds_iff, socks_eq_nil_iff family hrun hcalls]
        exact h calls c [] rfl
      | append_singleton post last =>
        rw [← List.cons_append, ← List.append_assoc] at heq
        obtain ⟨heq, _⟩ := List.append_inj' heq rfl
        exact hcalls pre c' post s heq hrun

def secondFails : List (Call String) :=
  let fails : Socket.Env String := ⟨some (7, "0.0.0.0:0"), none, none, none, true, true⟩
  let binds (name : String) : Socket.Env String :=
    ⟨some (7, "0.0.0.0:0"), some name, none, some name, true, true⟩
  [
    ⟨[⟨"0.0.0.0:80", binds "0.0.0.0:80", binds "0.0.0.0:80"⟩], []⟩,
    ⟨[⟨"0.0.0.0:81", fails, fails⟩], []⟩
  ]

theorem secondFails_not_bindsEach : ¬ BindsEach (fun _ => 2) secondFails := by
  rw [bindsEach_iff]
  intro h
  have hfits := h [_] _ [] rfl
  exact absurd (hfits.1 _ (List.mem_singleton_self _) rfl) (List.cons_ne_nil _ _)

end Run

end TCPServer
end CXS
