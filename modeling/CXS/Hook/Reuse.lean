import CXS.Hook.Timeout

/-!
This module contains what the descriptor of a `do_io` denotes. `close` wakes the fiber and lets go of
the `FdCtx`, but nothing tells the `do_io` that its file is gone, so it calls the original function
again with a number that may denote another file by then. In a run where a file is closed only under
a `do_io` that cannot retry any more, every call of the original function reaches the file that the
`do_io` began with.
-/

namespace CXS

variable {S F C : Type}

def Pc.waits : Pc → Bool
  | .addTimer | .addEvent _ | .YieldToHold _ | .hold _ | .cancel _ | .test => true
  | _ => false

def Pc.givesUp : Pc → Bool
  | .giveUp _ => true
  | _ => false

-- the call returns without another call of the original function
def Activation.settled (a : Activation) : Bool :=
  a.pc.givesUp || a.pc.waits && a.tinfo.any (·.cancelled != 0)

namespace Hook

-- `close_f` closes a file only where no `do_io` on the descriptor is under way that may retry
def closesSettled (s : Hook S F C) : Act S F C → Bool
  | .peer th .close_f =>
    match s.peers th with
    | .close fd .close_f => s.call.all fun a => a.fn.isConnect || a.fd != fd || a.settled
    | _ => true
  | _ => true

structure FileInv (files : Int → Option File) (call : Option Activation) : Prop where
  file : ∀ a file, call = some a → a.fn.isConnect = false → a.file = some file
    → files a.fd = some file ∨ a.settled = true
  getsockopt : ∀ a, call = some a → a.pc = .getsockopt → a.fn.isConnect = true

theorem settled_of_walks {a : Activation} {pc : Pc} (h : Walks a pc) (hfn : a.fn.isConnect = false)
    (hsettled : a.settled = true) : ({ a with pc := pc } : Activation).settled = true := by
  unfold Activation.settled at hsettled
  cases h with
  | found hpc =>
    rw [hpc] at hsettled
    cases hsettled
  | direct hpc =>
    rcases hpc with hpc | ⟨ctx, hpc⟩
    . rw [hpc] at hsettled
      cases hsettled
    . rw [hpc] at hsettled
      cases hsettled
  | interrupted hpc =>
    rw [hpc] at hsettled
    cases hsettled
  | blocked hpc =>
    rw [hpc] at hsettled
    cases hsettled
  | untimed hpc _ =>
    rw [hpc] at hsettled
    apply hsettled
  | hold hpc =>
    rw [hpc] at hsettled
    apply hsettled
  | retry hpc hinfo hcancelled =>
    rw [hpc] at hsettled
    simp [Pc.givesUp, hinfo, hcancelled] at hsettled
  | connected _ _ _ hconnect =>
    rw [hfn] at hconnect
    cases hconnect

section Step

variable {fiber : F} {scheduler : S} {s s' : Hook S F C} {files : Int → Option File} {a : Activation}

theorem FileInv.none : FileInv files none where
  file := by
    intro a file ha
    cases ha
  getsockopt := by
    intro a ha
    cases ha

theorem FileInv.goOn (h : FileInv files (some a)) {timeout : Nat} {tinfo : Option TimerInfo} {pc : Pc}
    (hsettled : a.fn.isConnect = false → a.settled = true
      → ({ a with timeout := timeout, tinfo := tinfo, pc := pc } : Activation).settled = true)
    (hgetsockopt : pc = .getsockopt → a.fn.isConnect = true)
    : FileInv files (some { a with timeout := timeout, tinfo := tinfo, pc := pc }) where
  file := by
    intro b file hb hfn hfile
    cases hb
    rcases h.file a file rfl hfn hfile with hsame | hset
    . left
      apply hsame
    . right
      apply hsettled hfn hset
  getsockopt := by
    intro b hb hpc
    cases hb
    apply hgetsockopt hpc

theorem FileInv.wait (h : FileInv files (some a)) {pc pc' : Pc} (hpc : a.pc = pc)
    (hsettled : ({ a with pc := pc } : Activation).settled = true
      → ({ a with pc := pc' } : Activation).settled = true)
    (hne : pc' ≠ .getsockopt) : FileInv files (some { a with pc := pc' }) := by
  apply h.goOn
  . subst hpc
    intro _
    apply hsettled
  . intro hcontra
    exact absurd hcontra hne

theorem FileInv.moves (h : FileInv s.files (some a)) {out : Option Int}
    (hmoves : Moves fiber scheduler s a s' out) : FileInv s'.files s'.call := by
  have hwait : ∀ {pc : Pc}, a.pc = pc → a.settled = true
      → ({ a with pc := pc } : Activation).settled = true := by
    intro pc hpc hsettled
    rw [← hpc]
    apply hsettled
  cases hmoves with
  | walk hwalks =>
    apply h.goOn
    . apply settled_of_walks hwalks
    . intro hpc
      cases hwalks with
      | connected _ _ _ hfn => apply hfn
      | _ => cases hpc
  | inform hpc =>
    apply h.goOn
    . intro _ hsettled
      rcases hpc with ⟨⟨ctx, hpc⟩, -⟩ | ⟨hpc, -⟩
      . cases hwait hpc hsettled
      . cases hwait hpc hsettled
    . rcases hpc with ⟨-, rfl⟩ | ⟨-, rfl⟩
      . intro hpc
        cases hpc
      . intro hpc
        cases hpc
  | connect hpc =>
    apply h.goOn
    . intro _ hsettled
      cases hwait hpc hsettled
    . intro hpc
      cases hpc
  | addTimer hpc hinfo hadd =>
    apply h.wait hpc
    . intro hsettled
      apply hsettled
    . simp
  | addEvent hpc hadd =>
    apply h.wait hpc
    . intro hsettled
      apply hsettled
    . simp
  | refused hpc hadd =>
    apply h.wait hpc
    . intro _
      rfl
    . simp
  | resume hpc =>
    apply h.wait hpc
    . intro hsettled
      apply hsettled
    . simp
  | cancel hpc hcancels =>
    apply h.goOn
    . intro hfn hsettled
      rcases hpc with ⟨hpc, rfl⟩ | ⟨-, hconnect, -⟩
      . apply hwait hpc hsettled
      . rw [hfn] at hconnect
        cases hconnect
    . intro hpc'
      rcases hpc with ⟨-, rfl⟩ | ⟨-, hconnect, -⟩
      . cases hpc'
      . apply hconnect
  | giveUp hpc hcancels => apply FileInv.none
  | leave hleaves => apply FileInv.none

theorem FileInv.timeOut (h : FileInv s.files s.call) {winfo : Nat} {info : TimerInfo}
    (hlock : s.lock winfo = some (a, info))
    : FileInv s.files (some { a with tinfo := some { info with cancelled := ETIMEDOUT } }) := by
  obtain ⟨hcall, -, -⟩ := lock_eq_some hlock
  rw [hcall] at h
  apply h.goOn
  . intro _ hsettled
    unfold Activation.settled at hsettled
    rw [Bool.or_eq_true, Bool.and_eq_true] at hsettled
    rcases hsettled with hgivesUp | ⟨hwaits, -⟩
    . simp [Activation.settled, hgivesUp]
    . simp [Activation.settled, hwaits, ETIMEDOUT]
  . apply h.getsockopt a rfl

theorem FileInv.enter (s : Hook S F C) (fn : HookFun) (fd : Int) (t_hook_enable : Bool)
    : FileInv s.files (s.enter fn fd t_hook_enable).call where
  file := by
    intro a file ha _ hfile
    cases ha
    left
    apply hfile
  getsockopt := by
    intro a ha hpc
    cases ha
    cases t_hook_enable with
    | true => cases hpc
    | false => cases hpc

theorem FileInv.peer (h : FileInv s.files s.call) {th : Nat} {step : PeerStep}
    (hcond : s.closesSettled (.peer th step) = true) (hmoves : PeerMoves s (s.peers th) step s')
    : FileInv s'.files s'.call := by
  cases hmoves with
  | aside => apply h
  | cancelAll _ => apply h
  | @close_f fd _ hpeer hstep =>
    refine ⟨?_, h.getsockopt⟩
    intro a file ha hfn hfile
    have ha : s.call = some a := ha
    subst hstep
    unfold closesSettled at hcond
    dsimp only at hcond ⊢
    rw [hpeer, ha] at hcond
    rcases h.file a file ha hfn hfile with hsame | hsettled
    . by_cases hfd : a.fd = fd
      . right
        simpa [hfn, hfd] using hcond
      . left
        rw [Function.update_of_ne hfd]
        apply hsame
    . right
      apply hsettled
  | @«open» fd isSocket _ hnone =>
    refine ⟨?_, h.getsockopt⟩
    intro a file ha hfn hfile
    rcases h.file a file ha hfn hfile with hsame | hsettled
    . left
      have hfd : a.fd ≠ fd := by
        intro heq
        rw [heq, hnone] at hsame
        cases hsame
      dsimp only
      rw [Function.update_of_ne hfd]
      apply hsame
    . right
      apply hsettled

theorem not_settled (h : a.pc = .direct ∨ a.pc = .origin) : a.settled = false := by
  unfold Activation.settled
  rcases h with hpc | hpc
  . rw [hpc]
    rfl
  . rw [hpc]
    rfl

theorem FileInv.origin (h : FileInv s.files s.call) {file : File} (hcall : s.call = some a)
    (hfn : a.fn.isConnect = false) (hfile : a.file = some file)
    (hpc : a.pc = .direct ∨ a.pc = .origin) : s.files a.fd = some file := by
  rcases h.file a file hcall hfn hfile with hsame | hsettled
  . apply hsame
  . rw [not_settled hpc] at hsettled
    cases hsettled

theorem FileInv.returns (h : FileInv s.files s.call) {file : File} {n : Int} (hcall : s.call = some a)
    (hfn : a.fn.isConnect = false) (hfile : a.file = some file)
    (hmoves : Moves fiber scheduler s a s' (some n)) (hclosed : s.files a.fd ≠ some file)
    : n = -1 := by
  cases hmoves with
  | giveUp _ _ => rfl
  | leave hleaves =>
    cases hleaves with
    | badFile _ => rfl
    | origin hpc => exact absurd (h.origin hcall hfn hfile hpc) hclosed
    | timedOut _ => rfl
    | getsockopt hpc =>
      have hconnect := h.getsockopt a hcall hpc
      rw [hfn] at hconnect
      cases hconnect

theorem Moves.files_eq {out : Option Int} (h : Moves fiber scheduler s a s' out)
    : s'.files = s.files ∧ s'.opened = s.opened
      ∧ ∀ a', s'.call = some a' → a'.file = a.file := by
  cases h with
  | giveUp _ _ => exact ⟨rfl, rfl, fun _ ha' => by cases ha'⟩
  | leave _ => exact ⟨rfl, rfl, fun _ ha' => by cases ha'⟩
  | _ =>
    refine ⟨rfl, rfl, ?_⟩
    intro a' ha'
    cases ha'
    rfl

section Run

variable [DecidableEq F]

theorem FileInv.step (h : FileInv s.files s.call) {act : Act S F C} {out : Option Int}
    (hcond : s.closesSettled act = true) (hsteps : Steps fiber scheduler s act out s')
    : FileInv s'.files s'.call := by
  cases hsteps with
  | enter => apply FileInv.enter
  | fiber hcall hnext =>
    rw [hcall] at h
    apply h.moves (fiberNext_moves hnext)
  | timeOut _ hlock => apply h.timeOut hlock
  | peer hmoves => apply h.peer hcond hmoves
  | _ => apply h

theorem Steps.files_new {act : Act S F C} {out : Option Int} (h : Steps fiber scheduler s act out s')
    : s.opened ≤ s'.opened
      ∧ ∀ fd file, s'.files fd = some file
        → s.files fd = some file ∨ s.opened ≤ file.id ∧ file.id < s'.opened := by
  cases h with
  | fiber _ hnext =>
    obtain ⟨hfiles, hopened, -⟩ := (fiberNext_moves hnext).files_eq
    rw [hfiles, hopened]
    exact ⟨Nat.le_refl _, fun _ _ => .inl⟩
  | peer hmoves =>
    cases hmoves with
    | @close_f closed _ _ _ =>
      refine ⟨Nat.le_refl _, ?_⟩
      intro fd file hfile
      left
      dsimp only at hfile
      rw [Function.update_apply] at hfile
      split at hfile
      . cases hfile
      . apply hfile
    | @«open» opened isSocket _ hnone =>
      refine ⟨Nat.le_succ _, ?_⟩
      intro fd file hfile
      dsimp only at hfile
      rw [Function.update_apply] at hfile
      split at hfile
      . cases hfile
        exact .inr ⟨Nat.le_refl _, Nat.lt_succ_self _⟩
      . exact .inl hfile
    | _ => exact ⟨Nat.le_refl _, fun _ _ => .inl⟩
  | _ => exact ⟨Nat.le_refl _, fun _ _ => .inl⟩

theorem Steps.call_file {act : Act S F C} {out : Option Int} (h : Steps fiber scheduler s act out s')
    {a' : Activation} (hcall : s'.call = some a')
    : a'.file = s.files a'.fd ∨ ∃ a, s.call = some a ∧ a'.file = a.file := by
  cases h with
  | enter =>
    cases hcall
    exact .inl rfl
  | fiber ha hnext => exact .inr ⟨_, ha, (fiberNext_moves hnext).files_eq.2.2 a' hcall⟩
  | timeOut _ hlock =>
    cases hcall
    exact .inr ⟨_, (lock_eq_some hlock).1, rfl⟩
  | peer hmoves => cases hmoves <;> exact .inr ⟨a', hcall, rfl⟩
  | _ => exact .inr ⟨a', hcall, rfl⟩

structure Opened (s : Hook S F C) : Prop where
  files : ∀ fd file, s.files fd = some file → file.id < s.opened
  call : ∀ a file, s.call = some a → a.file = some file → file.id < s.opened

theorem Opened.step (h : Opened s) {act : Act S F C} {out : Option Int}
    (hsteps : Steps fiber scheduler s act out s') : Opened s' := by
  obtain ⟨hle, hfiles⟩ := hsteps.files_new
  constructor
  . intro fd file hfile
    rcases hfiles fd file hfile with hold | hnew
    . have := h.files fd file hold
      omega
    . apply hnew.2
  . intro a' file ha' hfile
    rcases hsteps.call_file ha' with henter | ⟨a, ha, hsame⟩
    . rw [henter] at hfile
      have := h.files _ file hfile
      omega
    . rw [hsame] at hfile
      have := h.call a file ha hfile
      omega

theorem run_closed_stays {ls ls' : List (Act S F C × Option Int)} {s'' : Hook S F C} {file : File}
    (hinit : s.Init) (hrun : (lts fiber scheduler C).Run s ls s') (hcall : s'.call = some a)
    (hfile : a.file = some file) (hclosed : s'.files a.fd ≠ some file)
    (hrun' : (lts fiber scheduler C).Run s' ls' s'') : s''.files a.fd ≠ some file := by
  have hopened : Opened s' := by
    apply hrun.invariant (I := Opened)
    . intro s l t h hstep
      apply h.step (step_steps hstep)
    . refine ⟨hinit.files, ?_⟩
      rw [hinit.call]
      intro a file ha
      cases ha
  have hinv : file.id < s''.opened ∧ s''.files a.fd ≠ some file := by
    apply hrun'.invariant (I := fun s => file.id < s.opened ∧ s.files a.fd ≠ some file)
    . intro s l t h hstep
      obtain ⟨hle, hfiles⟩ := (step_steps hstep).files_new
      refine ⟨by omega, ?_⟩
      intro hsame
      rcases hfiles a.fd file hsame with hold | hnew
      . exact h.2 hold
      . omega
    . exact ⟨hopened.call a file hcall hfile, hclosed⟩
  apply hinv.2

theorem origin_pc {n : Int} {errno : Nat} {out : Option Int}
    (h : s.fiberNext fiber scheduler a a.pc (.origin n errno) = .ok (s', out))
    : a.pc = .direct ∨ a.pc = .origin := by
  cases hpc : a.pc with
  | direct => exact .inl rfl
  | origin => exact .inr rfl
  | _ =>
    rw [hpc] at h
    cases h

theorem run_origin_same_file {ls : List (Act S F C × Option Int)} (hinit : s.Init)
    (hrun : ((lts fiber scheduler C).restrict fun s l => s.closesSettled l.1 = true).Run s ls s')
    {event : Event} {timeout_so : TimeoutSo} {file : File} (hcall : s'.call = some a)
    (hfn : a.fn = .do_io event timeout_so) (hfile : a.file = some file)
    : (∀ n errno out s'', (lts fiber scheduler C).step s' (.fiber (.origin n errno), out) s''
        → s'.files a.fd = some file)
      ∧ ∀ step n s'', (lts fiber scheduler C).step s' (.fiber step, some n) s''
        → s'.files a.fd ≠ some file → n = -1 := by
  have hinv : FileInv s'.files s'.call := by
    apply hrun.invariant (I := fun s => FileInv s.files s.call)
    . intro s l t h hstep
      apply h.step hstep.1 (step_steps hstep.2)
    . rw [hinit.call]
      apply FileInv.none
  have hconnect : a.fn.isConnect = false := by
    rw [hfn]
    rfl
  have hnext : ∀ step out s'', (lts fiber scheduler C).step s' (.fiber step, out) s''
      → s'.fiberNext fiber scheduler a a.pc step = .ok (s'', out) := by
    intro step out s'' hstep
    rw [← fiberStep_eq hcall]
    apply hstep
  refine ⟨?_, ?_⟩
  . intro n errno out s'' hstep
    apply hinv.origin hcall hconnect hfile
    apply origin_pc (hnext _ _ _ hstep)
  . intro step n s'' hstep hclosed
    apply hinv.returns hcall hconnect hfile (fiberNext_moves (hnext _ _ _ hstep)) hclosed

end Run

end Step

def closesAndOpens : List (Act Unit Nat Nat × Option Int) :=
  [
    (.peer 1 (.close 5 true true), none),
    (.peer 1 (.cancelAll true), none),
    (.peer 1 .del, none),
    (.peer 1 .close_f, none),
    (.peer 1 (.open 5 true true), none)
  ]

def resumes : List (Act Unit Nat Nat × Option Int) :=
  [(.fiber (.resume 0), none), (.fiber .cancel, none)]

theorem run_origin_same_file_timed_out
    : ∃ (s' s'' : Hook Unit Nat Nat) (n : Int),
        ((lts 7 () Nat).restrict fun s l => s.closesSettled l.1 = true).Run
            (start 4 0 (fun _ _ => none))
            (readBlocks ++ registers ++ timesOut ++ closesAndOpens ++ resumes) s'
          ∧ s'.files 5 = some ⟨1, true⟩
          ∧ (lts 7 () Nat).step s' (.fiber .test, some n) s'' ∧ n = -1 := by
  have hreplay : (LTS.replayIf (step 7 ()) closesSettled (start 4 0 (fun _ _ => none))
      (readBlocks ++ registers ++ timesOut ++ closesAndOpens ++ resumes)).any (fun s =>
        s.files 5 == some ⟨1, true⟩
          && s.call.any (fun a => a.fn == .do_io .READ .SO_RCVTIMEO && a.fd == 5
            && a.file == some ⟨0, true⟩ && a.pc == .test
            && a.tinfo == some ⟨0, ETIMEDOUT⟩)) = true := by
    decide +kernel
  rw [Option.any_eq_true] at hreplay
  obtain ⟨s', hs', hprop⟩ := hreplay
  have hrun := LTS.run_of_replayIf hs'
  simp only [Bool.and_eq_true, Option.any_eq_true, beq_iff_eq] at hprop
  obtain ⟨hfiles, a, hcall, ⟨⟨⟨hfn, hfd⟩, hfile⟩, hpc⟩, hinfo⟩ := hprop
  have hsame := run_origin_same_file (start_init 4 0 _) hrun hcall hfn hfile
  have hstep : (lts 7 () Nat).step s' (.fiber .test, some (-1)) (s'.leave (-1) ETIMEDOUT).1 := by
    show s'.fiberStep 7 () .test = _
    rw [fiberStep_eq hcall, hpc]
    unfold fiberNext
    rw [hinfo]
    rfl
  refine ⟨s', _, -1, hrun, hfiles, hstep, ?_⟩
  apply hsame.2 _ _ _ hstep
  rw [hfd, hfiles]
  decide

-- the fiber that waits for the old file reads three bytes from the new one
theorem origin_other_file
    : ∃ (s s' s'' : Hook Unit Nat Nat) (a : Activation), s.Init
        ∧ (lts 7 () Nat).Run s
          (readBlocks ++ registers ++ closesAndOpens ++ resumes ++ [(.fiber .test, none)]) s'
        ∧ s'.call = some a ∧ a.fn = .do_io .READ .SO_RCVTIMEO
        ∧ a.file = some ⟨0, true⟩ ∧ s'.files a.fd = some ⟨1, true⟩
        ∧ (lts 7 () Nat).step s' (.fiber (.origin 3 0), some 3) s'' := by
  have hreplay : (LTS.replay (step 7 ()) (start 4 0 (fun _ _ => none))
      (readBlocks ++ registers ++ closesAndOpens ++ resumes ++ [(.fiber .test, none)])).any (fun s =>
        s.files 5 == some ⟨1, true⟩
          && s.call.any (fun a => a.fn == .do_io .READ .SO_RCVTIMEO && a.fd == 5
            && a.file == some ⟨0, true⟩ && a.pc == .origin)) = true := by
    decide +kernel
  rw [Option.any_eq_true] at hreplay
  obtain ⟨s', hs', hprop⟩ := hreplay
  simp only [Bool.and_eq_true, Option.any_eq_true, beq_iff_eq] at hprop
  obtain ⟨hfiles, a, hcall, ⟨⟨hfn, hfd⟩, hfile⟩, hpc⟩ := hprop
  refine ⟨_, s', (s'.leave 3 0).1, a, start_init 4 0 _, LTS.run_of_replay hs', hcall, hfn, hfile, ?_,
    ?_⟩
  . rw [hfd, hfiles]
  . show s'.fiberStep 7 () (.origin 3 0) = _
    rw [fiberStep_eq hcall, hpc]
    unfold fiberNext originNext
    rw [hfn]
    rfl

end Hook
end CXS
