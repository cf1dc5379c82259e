import CXS.Http.Session

namespace CXS
namespace Http

inductive Register where
  | mark
  | field_start
  | field_len
  | query_start
  deriving DecidableEq, Repr

namespace Action

def uses : Action → List Register
  | .write_field => [.field_start]
  | .write_value => [.field_start, .field_len, .mark]
  | .request_method => [.mark]
  | .fragment => [.mark]
  | .query_string => [.query_start]
  | .http_version => [.mark]
  | .request_path => [.mark]
  | _ => []

def track (known : List Register) (a : Action) : Option (List Register) :=
  if a.uses ⊆ known then
    match a with
    | .mark => some (.mark :: known)
    | .start_field => some (.field_start :: known.filter (· ≠ .field_len))
    | .write_field => some (.field_len :: known)
    | .start_query => some (.query_start :: known)
    | _ => some known
  else
    none

end Action

def stops (actions : List Action) (cs : Nat) : Bool :=
  cs == http_parser_error || actions.contains .done

def clean (r : Bool) (cs : Nat) (known : List Register) (rest : List UInt8) : Bool :=
  match rest with
  | [] => true
  | b :: rest =>
    match (trans r cs b).1.foldlM Action.track known with
    | none => false
    | some known =>
      stops (trans r cs b).1 (trans r cs b).2 || clean r (trans r cs b).2 known rest

-- the state behind `rest`, if the machine does not stop before
def scan (r : Bool) (cs : Nat) (rest : List UInt8) : Option Nat :=
  match rest with
  | [] => some cs
  | b :: rest =>
    if stops (trans r cs b).1 (trans r cs b).2 then
      none
    else
      scan r (trans r cs b).2 rest

section Table

variable (r : Bool)

def tableAll (P : Nat → Edge → Bool) : Bool :=
  (Table.edges r).zipIdx.all (fun row => row.1.all (P row.2))

theorem trans_cases {P : Nat → Edge → Bool} (h : tableAll r P = true) {cs cs' : Nat} {b : UInt8}
    {actions : List Action} (htrans : trans r cs b = (actions, cs'))
    : actions = [] ∧ cs' = http_parser_error
      ∨ ∃ e, inRange b e.range = true ∧ P cs e = true ∧ actions = e.actions ∧ cs' = e.target := by
  unfold trans at htrans
  split at htrans
  next e he =>
    right
    injection htrans with hactions hcs
    refine ⟨e, ?_, ?_, hactions.symm, hcs.symm⟩
    . simpa using List.find?_some he
    . have hmem := List.mem_of_find?_eq_some he
      unfold edgesFrom at hmem
      cases hrow : (Table.edges r)[cs]? with
      | none =>
        rw [hrow] at hmem
        cases hmem
      | some row =>
        rw [hrow, Option.getD_some] at hmem
        have hidx := List.mk_mem_zipIdx_iff_getElem?.mpr hrow
        simp only [tableAll, List.all_eq_true] at h
        exact h _ hidx e hmem
  next =>
    left
    injection htrans with hactions hcs
    exact ⟨hactions.symm, hcs.symm⟩

def setAt (cs : Nat) : List Register :=
  if cs = http_parser_start then
    []
  else if cs = 14 ∨ cs = 18 then
    [.mark, .field_start]
  else if cs = 15 ∨ cs = 16 then
    [.mark, .field_start, .field_len]
  else if 30 ≤ cs ∧ cs ≤ 32 then
    [.mark, .query_start]
  else
    [.mark]

def edgeSets (cs : Nat) (e : Edge) : Bool :=
  decide (http_parser_first_final ≤ cs)
    || match e.actions.foldlM Action.track (setAt cs) with
      | none => false
      | some known => stops e.actions e.target
        || (decide (e.target < http_parser_first_final) && decide (setAt e.target ⊆ known))

theorem edges_edgeSets : tableAll r edgeSets = true := by
  revert r
  decide +kernel

def methodState (cs : Nat) : Bool :=
  cs == 2 || decide (175 ≤ cs ∧ cs ≤ 193)

def edgeMethod (cs : Nat) (e : Edge) : Bool :=
  decide ((.request_method ∈ e.actions
      → methodState cs ∧ e.range = Table.on ' ' ∧ e.actions = [.request_method])
    ∧ (methodState e.target → e.range = Table.method
      ∧ (cs = http_parser_start ∧ e.actions = [.mark] ∨ methodState cs ∧ e.actions = []))
    ∧ e.target ≠ http_parser_start)

theorem edges_edgeMethod : tableAll r edgeMethod = true := by
  revert r
  decide +kernel

def edgeToken (cs : Nat) (e : Edge) : Bool :=
  decide (cs = http_parser_start ∨ methodState cs
    → methodState e.target ∨ e.range ∈ [Table.on ' ', Table.on '<', Table.on '@'])

theorem edges_edgeToken : tableAll r edgeToken = true := by
  revert r
  decide +kernel

def edgeFinal (_ : Nat) (e : Edge) : Bool :=
  e.actions.contains .done == decide (http_parser_first_final ≤ e.target)

theorem edges_edgeFinal : tableAll r edgeFinal = true := by
  revert r
  decide +kernel

end Table

theorem inRange_on {b : UInt8} {c : Char} (h : inRange b (Table.on c) = true)
    : b.toNat = c.toNat := by
  simp only [inRange, Table.on, List.any_cons, List.any_nil, Bool.or_false, Bool.and_eq_true,
    decide_eq_true_eq] at h
  omega

theorem inRange_method {b : UInt8} (h : inRange b Table.method = true)
    : 48 ≤ b.toNat ∧ b.toNat ≤ 57 ∨ 65 ≤ b.toNat ∧ b.toNat ≤ 90 := by
  simpa [inRange, Table.method, Table.ranges] using h

theorem Action.track_mono {a : Action} {known known' ks : List Register} (hsub : ks ⊆ known)
    (h : a.track ks = some known') : ∃ known'', a.track known = some known'' ∧ known' ⊆ known'' := by
  unfold track at h ⊢
  split at h
  next huses =>
    rw [if_pos (List.Subset.trans huses hsub)]
    cases a with
    | start_field =>
      simp only [Option.some.injEq] at h
      rw [← h]
      refine ⟨_, rfl, ?_⟩
      apply List.cons_subset_cons
      apply List.filter_subset
      assumption
    | mark | write_field | start_query =>
      simp only [Option.some.injEq] at h
      rw [← h]
      exact ⟨_, rfl, List.cons_subset_cons _ hsub⟩
    | _ =>
      simp only [Option.some.injEq] at h
      rw [← h]
      exact ⟨_, rfl, hsub⟩
  next => cases h

theorem foldlM_track_mono {actions : List Action} {known known' ks : List Register}
    (hsub : ks ⊆ known) (h : actions.foldlM Action.track ks = some known')
    : ∃ known'', actions.foldlM Action.track known = some known'' ∧ known' ⊆ known'' := by
  induction actions generalizing ks known with
  | nil =>
    simp only [List.foldlM_nil, Option.pure_def, Option.some.injEq] at h ⊢
    exact ⟨known, rfl, by rw [← h]; exact hsub⟩
  | cons a actions ih =>
    simp only [List.foldlM_cons, Option.bind_eq_bind, Option.bind_eq_some_iff] at h ⊢
    obtain ⟨ks', htrack, hfold⟩ := h
    obtain ⟨ks'', htrack', hsub'⟩ := Action.track_mono hsub htrack
    obtain ⟨known'', hfold', hsub''⟩ := ih hsub' hfold
    exact ⟨known'', ⟨ks'', htrack', hfold'⟩, hsub''⟩

theorem clean_of_setAt (r : Bool) (cs : Nat) (known : List Register) (rest : List UInt8)
    (hcs : cs < http_parser_first_final) (hknown : setAt cs ⊆ known)
    : clean r cs known rest = true := by
  induction rest generalizing cs known with
  | nil => rfl
  | cons b rest ih =>
    unfold clean
    have htrans : trans r cs b = ((trans r cs b).1, (trans r cs b).2) := rfl
    rcases trans_cases r (edges_edgeSets r) htrans
      with ⟨hactions, hcs'⟩ | ⟨e, -, hedge, hactions, hcs'⟩
    . rw [hactions, hcs']
      rfl
    . rw [hactions, hcs']
      simp only [edgeSets, Bool.or_eq_true, decide_eq_true_eq] at hedge
      rcases hedge with hfinal | hedge
      . omega
      . split at hedge
        next => cases hedge
        next ks hfold =>
          obtain ⟨known', hfold', hsub⟩ := foldlM_track_mono hknown hfold
          simp only [hfold']
          simp only [Bool.or_eq_true, Bool.and_eq_true, decide_eq_true_eq] at hedge ⊢
          rcases hedge with hstop | ⟨hlt, hset⟩
          . left
            assumption
          . right
            exact ih _ _ hlt (List.Subset.trans hset hsub)

theorem clean_start (r : Bool) (stream : List UInt8)
    : clean r http_parser_start [] stream = true := by
  apply clean_of_setAt
  . decide
  . decide

end Http
end CXS
