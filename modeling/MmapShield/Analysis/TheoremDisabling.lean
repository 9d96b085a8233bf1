import MmapShield.Analysis.TheoremAccounting
import MmapShield.Analysis.TheoremReset
import MmapShield.Model.Resetting

/-!
# Poisoning that is switched off

`u32::MAX` as the threshold is documented to disable poisoning, but it is compared like any
other threshold: the fault that brings the counter to `u32::MAX` poisons the mapping, and one
that is recorded after it overflows the sum `fetch_add(1) + 1` (`many_faults_poison`).
`poisoning_disabled` says that nothing else can go wrong: a run in which no `fetch_add` finds
a counter of `u32::MAX - 1` or more, whatever resets come in between, leaves the mapping clean
all along; and a run that stays clean to its end has no such `fetch_add`.

`Clean` is the invariant: beside the flag and the overflow it says that no thread is about to
poison the mapping (`willPoison`).
-/

set_option autoImplicit false

namespace MmapShield.Analysis.Disabling

open MmapShield.Computation MmapShield.Model

variable {ι : Type} [DecidableEq ι] {s s' : Resetting ι} {t : ι}

/-- The mapping is not poisoned, and no count has overflowed. -/
def Undisturbed (s : Resetting ι) : Prop :=
  s.share.mmap.poisoned = false ∧ s.overflowed = false

/-- A step that counts a fault finds a counter below `u32::MAX - 1`. -/
def BelowMax (a : ι × ResetAct) (s : Resetting ι) : Prop :=
  ∀ act, a.2 = .share act → s.counts a.1 act = true →
    s.share.mmap.sigbusCount.toNat + 1 < u32Max.toNat

/-- The thread has counted a fault and has not yet decided about it, or not stored the flag. -/
def deciding : CallPc → Bool
  | .emitSigbus _ _ | .store _ _ => true
  | _ => false

/-- Undisturbed, and no thread is about to set the flag. -/
structure Clean (s : Resetting ι) : Prop where
  undisturbed : Undisturbed s
  calm : ∀ t, willPoison u32Max (s.share.pc t) = false

/-- What holds after every run. -/
structure Disabled (s : Resetting ι) : Prop where
  max : s.share.mmap.maxSigbus = u32Max
  sane : Sane s.share
  idle : ∀ t, s.long t ≠ .away → s.share.pc t = .idle

/-! ## The steps -/

/-- A step of `t` in a prefetch or a reset: it counts nothing and sets no flag. -/
structure Aside (s : Resetting ι) (t : ι) (s' : Resetting ι) : Prop where
  begins : s.share.pc t = .idle
  own : willPoison u32Max (s'.share.pc t) = false ∧ PcSane s.share.mmap.raw.len (s'.share.pc t)
  back : s'.long t ≠ .away → s'.share.pc t = .idle
  others : ∀ u, u ≠ t → s'.share.pc u = s.share.pc u ∧ s'.long u = s.long u
  fixed : s'.share.mmap.maxSigbus = s.share.mmap.maxSigbus ∧ s'.share.mmap.raw = s.share.mmap.raw
  flag : s.share.mmap.poisoned = false → s'.share.mmap.poisoned = false
  counter : s'.share.mmap.sigbusCount.toNat ≤ s.share.mmap.sigbusCount.toNat
  overflowed : s'.overflowed = s.overflowed

/-- INTERNAL: a thread without another call that goes on in a prefetch or a reset. -/
theorem Aside.turn (hidle : s.share.pc t = .idle) (c : LongPc) : Aside s t (s.turn t c) where
  begins := hidle
  own := by
    show willPoison u32Max (s.share.pc t) = false ∧ PcSane _ (s.share.pc t)
    rw [hidle]
    exact ⟨rfl, trivial⟩
  back := fun _ => hidle
  others := fun u hu => ⟨rfl, Function.update_of_ne hu _ _⟩
  fixed := ⟨rfl, rfl⟩
  flag := id
  counter := Nat.le_refl _
  overflowed := rfl

/-- INTERNAL: a thread that comes back from a prefetch or a reset, to a place that sets no flag. -/
theorem Aside.rejoin (hidle : s.share.pc t = .idle) {c : CallPc}
    (hcalm : willPoison u32Max c = false) (hsane : PcSane s.share.mmap.raw.len c) :
    Aside s t (s.rejoin t c) where
  begins := hidle
  own := by
    have hpc : (s.rejoin t c).share.pc t = c := Function.update_self _ _ _
    rw [hpc]
    exact ⟨hcalm, hsane⟩
  back := fun h => absurd (Function.update_self _ _ _) h
  others := fun u hu => ⟨Function.update_of_ne hu _ _, Function.update_of_ne hu _ _⟩
  fixed := ⟨rfl, rfl⟩
  flag := id
  counter := Nat.le_refl _
  overflowed := rfl

/-- INTERNAL: the end of a prefetch records a fault or returns.
SOURCE: mmap/mod.rs:778-786 -/
theorem Aside.result (hidle : s.share.pc t = .idle) (offset len : Usize)
    (result : Except AccessError Unit) : Aside s t (s.resultStep t offset len result) := by
  unfold Resetting.resultStep
  split
  · exact Aside.rejoin hidle rfl ⟨_, rfl⟩
  · rename_i o l d
    have hplain : Aside s t (s.rejoin t (.ret (.error (.timeout o l d)))) :=
      Aside.rejoin hidle rfl trivial
    exact { hplain with }
  · exact Aside.rejoin hidle rfl trivial

/-- INTERNAL: **what a step can do**: it is one of a call that `Sharing` knows, or one of a
prefetch or of a reset.
SOURCE: mmap/mod.rs:503-585, 668-686, 766-839, 1008-1061 -/
theorem reset_cases {page : Usize} {a : ResetAct} (h : Disabled s)
    (hstep : Resetting.step page (t, a) s = some s') :
    (∃ act, a = .share act ∧ s.long t = .away ∧ s.shareStep page t act = some s') ∨
      ((∀ act, a ≠ .share act) ∧ Aside s t s') := by
  have hidle {c : LongPc} (hlong : s.long t = c) (hc : c ≠ .away) : s.share.pc t = .idle :=
    h.idle t (by rw [hlong]; exact hc)
  unfold Resetting.step at hstep
  dsimp only at hstep
  split at hstep
  · rename_i act haway
    exact Or.inl ⟨act, rfl, haway, hstep⟩
  all_goals right
  · rename_i offset len hlong hpc
    cases hstep
    exact ⟨by rintro act ⟨⟩, Aside.turn hpc _⟩
  · rename_i offset len hlong
    have hpc := hidle hlong (by rintro ⟨⟩)
    refine ⟨by rintro act ⟨⟩, ?_⟩
    split at hstep
    · cases hstep
      exact Aside.rejoin hpc rfl trivial
    · cases hstep
      exact Aside.turn hpc _
  · rename_i offset len hlong
    have hpc := hidle hlong (by rintro ⟨⟩)
    refine ⟨by rintro act ⟨⟩, ?_⟩
    split at hstep
    · cases hstep
      exact Aside.rejoin hpc rfl trivial
    · cases hstep
      exact Aside.turn hpc _
  · rename_i result offset len hlong
    cases hstep
    exact ⟨by rintro act ⟨⟩, Aside.result (hidle hlong (by rintro ⟨⟩)) offset len result⟩
  · rename_i hlong hpc
    cases hstep
    have hturn := Aside.turn hpc LongPc.zeroing
    exact ⟨by rintro act ⟨⟩, { hturn with flag := fun _ => rfl }⟩
  · rename_i hlong
    cases hstep
    have hturn := Aside.turn (hidle hlong (by rintro ⟨⟩)) LongPc.away
    exact ⟨by rintro act ⟨⟩, { hturn with counter := Nat.zero_le _ }⟩
  · cases hstep

omit [DecidableEq ι] in
/-- INTERNAL: a count is the next step of a thread in `record_sigbus_from`. -/
theorem counts_record {act : ShareAct} (h : s.counts t act = true) :
    ∃ err, s.share.pc t = .record err := by
  unfold Resetting.counts at h
  split at h
  · rename_i err hpc
    exact ⟨err, hpc⟩
  · cases h

/-- INTERNAL: and the step of a thread that is there is a count. -/
theorem counts_of_record {page : Usize} {act : ShareAct} {share : Sharing ι} {err : AccessError}
    (hpc : s.share.pc t = .record err) (hstep : Sharing.step page (t, act) s.share = some share) :
    s.counts t act = true := by
  unfold Resetting.counts
  unfold Sharing.step at hstep
  dsimp only at hstep
  rw [hpc] at hstep ⊢
  cases act with
  | next => rfl
  | call call => cases hstep
  | touch fault => cases hstep

/-- INTERNAL: a step of a call leaves the other threads where they are, and the threshold and
the region as they are. -/
theorem move_frame {share share' : Sharing ι} (hmove : Sharing.Move share t share') :
    (∀ u, u ≠ t → share'.pc u = share.pc u) ∧ share'.mmap.maxSigbus = share.mmap.maxSigbus := by
  cases hmove with
  | _ => exact ⟨fun u hu => Function.update_of_ne hu _ _, rfl⟩

/-- INTERNAL: a step of a call of `Sharing`, with what it adds to the overflow. -/
theorem shareStep_move {page : Usize} {act : ShareAct} (h : Disabled s)
    (hstep : s.shareStep page t act = some s') :
    Sharing.Move s.share t s'.share ∧ s'.long = s.long ∧
      s'.overflowed = (s.overflowed ||
        (s.counts t act && decide (2 ^ 32 ≤ s.share.mmap.sigbusCount.toNat + 1))) ∧
      (∀ err, s.share.pc t = .record err → s.counts t act = true) := by
  obtain ⟨share, hshare, rfl⟩ := Option.map_eq_some_iff.mp hstep
  exact ⟨share_move h.sane hshare, rfl, rfl, fun err hpc => counts_of_record hpc hshare⟩

/-! ## The invariants -/

/-- INTERNAL: the invariant holds when the mapping is opened.
SOURCE: mmap/mod.rs:455-477 -/
theorem disabled_init (ι : Type) {mmap : SafeMmap} (hmax : mmap.maxSigbus = u32Max) :
    Disabled (Resetting.init ι mmap) where
  max := hmax
  sane := fun _ => trivial
  idle := fun _ _ => rfl

/-- INTERNAL: the threshold stays at `u32::MAX`, and every thread is in one call at most. -/
theorem Disabled.step {page : Usize} (a : ι × ResetAct) (s s' : Resetting ι) (h : Disabled s)
    (hstep : Resetting.step page a s = some s') : Disabled s' := by
  obtain ⟨t, a⟩ := a
  rcases reset_cases h hstep with ⟨act, rfl, haway, hshare⟩ | ⟨-, haside⟩
  · obtain ⟨hmove, hlong, -, -⟩ := shareStep_move h hshare
    obtain ⟨hothers, hmax⟩ := move_frame hmove
    refine ⟨hmax.trans h.max, h.sane.move hmove, ?_⟩
    intro u hu
    rw [hlong] at hu
    have hne : u ≠ t := by
      rintro rfl
      exact hu haway
    rw [hothers u hne]
    exact h.idle u hu
  · refine ⟨haside.fixed.1.trans h.max, ?_, ?_⟩
    · intro u
      rw [haside.fixed.2]
      by_cases hu : u = t
      · rw [hu]
        exact haside.own.2
      · rw [(haside.others u hu).1]
        exact h.sane u
    · intro u hlong
      by_cases hu : u = t
      · rw [hu] at hlong ⊢
        exact haside.back hlong
      · rw [(haside.others u hu).2] at hlong
        rw [(haside.others u hu).1]
        exact h.idle u hlong

omit [DecidableEq ι] in
/-- INTERNAL: a step that leaves the flag and the overflow alone and does not send its thread to
the store keeps the mapping clean. -/
theorem Clean.keep (h : Clean s) (hflag : s'.share.mmap.poisoned = s.share.mmap.poisoned)
    (hover : s'.overflowed = s.overflowed)
    (hothers : ∀ u, u ≠ t → s'.share.pc u = s.share.pc u)
    (hown : willPoison u32Max (s'.share.pc t) = false) : Clean s' where
  undisturbed := ⟨hflag.trans h.undisturbed.1, hover.trans h.undisturbed.2⟩
  calm := by
    intro u
    by_cases hu : u = t
    · rw [hu]
      exact hown
    · rw [hothers u hu]
      exact h.calm u

/-- INTERNAL: the count that never comes again is the last one of all. -/
theorem u32Max_toNat : u32Max.toNat = 2 ^ 32 - 1 := rfl

omit [DecidableEq ι] in
/-- INTERNAL: a step of a thread that counts nothing meets the condition. -/
theorem belowMax_of_quiet {a : ResetAct} (h : ∀ err, s.share.pc t ≠ .record err) :
    BelowMax (t, a) s := by
  intro act _ hcounts
  obtain ⟨err, herr⟩ := counts_record hcounts
  exact absurd herr (h err)

/-- INTERNAL: a thread in the quiet part of its call is not at the `fetch_add`. -/
theorem not_record_of_quiet {c : CallPc} (h : quietPc c = true) (err : AccessError) :
    c ≠ .record err := by
  rintro rfl
  cases h

/-- INTERNAL: the step that counts a fault keeps the mapping clean exactly below
`u32::MAX - 1`: there the count is the threshold, and one further the sum overflows.
SOURCE: mmap/mod.rs:1045-1049 -/
theorem clean_count {addr : Usize} {act : ShareAct} (h : Clean s)
    (hcounts : s.counts t act = true)
    (hshare : s'.share = { s.share.goto t
      (.emitSigbus (.sigbus addr) (s.share.mmap.sigbusCount + 1)) with
        mmap := { s.share.mmap with sigbusCount := s.share.mmap.sigbusCount + 1 }
        recorded := s.share.recorded + 1 })
    (hover : s'.overflowed = (s.overflowed ||
        (s.counts t act && decide (2 ^ 32 ≤ s.share.mmap.sigbusCount.toNat + 1)))) :
    Clean s' ↔ BelowMax (t, .share act) s := by
  have hpc : s'.share.pc t = .emitSigbus (.sigbus addr) (s.share.mmap.sigbusCount + 1) := by
    rw [hshare]
    exact Function.update_self _ _ _
  have hbelow : BelowMax (t, .share act) s ↔
      s.share.mmap.sigbusCount.toNat + 1 < u32Max.toNat := by
    refine ⟨fun hb => hb act rfl hcounts, ?_⟩
    intro hlt act' hact _
    exact hlt
  rw [hcounts, h.undisturbed.2, Bool.false_or, Bool.true_and] at hover
  rw [hbelow]
  refine ⟨?_, ?_⟩
  · intro hclean
    have hfits : ¬ 2 ^ 32 ≤ s.share.mmap.sigbusCount.toNat + 1 := by
      rw [← decide_eq_false_iff_not, ← hover]
      exact hclean.undisturbed.2
    have hcalm := hclean.calm t
    rw [hpc] at hcalm
    have hless : ¬ s.share.mmap.sigbusCount + 1 ≥ u32Max := of_decide_eq_false hcalm
    rw [ge_iff_le, UInt32.le_iff_toNat_le, toNat_succ (by omega)] at hless
    omega
  · intro hlt
    have hfits : s.share.mmap.sigbusCount.toNat + 1 < 2 ^ 32 := by
      rw [u32Max_toNat] at hlt
      omega
    refine Clean.keep (t := t) h ?_ ?_ ?_ ?_
    · rw [hshare]
    · rw [hover, h.undisturbed.2, decide_eq_false_iff_not]
      omega
    · intro u hu
      rw [hshare]
      exact Function.update_of_ne hu _ _
    · rw [hpc]
      apply decide_eq_false
      rw [ge_iff_le, UInt32.le_iff_toNat_le, toNat_succ hfits]
      omega

/-- INTERNAL: **a step keeps the mapping clean exactly when it meets the condition.**
SOURCE: mmap/mod.rs:1008-1011, 1039-1055 -/
theorem clean_iff {page : Usize} (a : ι × ResetAct) (s s' : Resetting ι) (h : Disabled s)
    (hclean : Clean s) (hstep : Resetting.step page a s = some s') :
    Clean s' ↔ BelowMax a s := by
  obtain ⟨t, a⟩ := a
  rcases reset_cases h hstep with ⟨act, rfl, haway, hshare⟩ | ⟨hother, haside⟩
  · obtain ⟨hmove, hlong, hover, hcount⟩ := shareStep_move h hshare
    obtain ⟨hothers, -⟩ := move_frame hmove
    -- every step but the count is one that keeps the mapping clean
    have hkeep {c : CallPc} (hno : ∀ err, s.share.pc t ≠ .record err)
        (hpc : s'.share.pc t = c) (hcalm : willPoison u32Max c = false)
        (hflag : s'.share.mmap.poisoned = s.share.mmap.poisoned) :
        Clean s' ↔ BelowMax (t, .share act) s := by
      have hquiet : s.counts t act = false := by
        rw [← Bool.not_eq_true]
        intro hc
        obtain ⟨err, herr⟩ := counts_record hc
        exact hno err herr
      rw [hquiet, Bool.false_and, Bool.or_false] at hover
      rw [← hpc] at hcalm
      exact iff_of_true (hclean.keep hflag hover hothers hcalm) (belowMax_of_quiet hno)
    generalize hs : s'.share = share' at hmove hothers hkeep
    cases hmove with
    | silent c hp hc hsane =>
        exact hkeep (not_record_of_quiet hp) (Function.update_self _ _ _)
          (quietPc_zero hc u32Max).2.2.2 rfl
    | fault addr hp => exact hkeep (not_record_of_quiet hp) (Function.update_self _ _ _) rfl rfl
    | record addr hp => exact clean_count hclean (hcount _ hp) hs hover
    | emitSigbus addr count hp =>
        have hcalm := hclean.calm t
        rw [hp] at hcalm
        have hless : ¬ count ≥ s.share.mmap.maxSigbus := by
          rw [h.max]
          exact of_decide_eq_false hcalm
        refine hkeep (c := .ret (.error (.sigbus addr))) ?_ ?_ rfl rfl
        · rw [hp]
          rintro err ⟨⟩
        · show Function.update s.share.pc t _ t = _
          rw [Function.update_self, if_neg hless]
    | store addr count hp =>
        have hcalm := hclean.calm t
        rw [hp] at hcalm
        cases hcalm
    | emitPoisoned addr count hp =>
        refine hkeep ?_ (Function.update_self _ _ _) rfl rfl
        rw [hp]
        rintro err ⟨⟩
    | ret result hp =>
        refine hkeep ?_ (Function.update_self _ _ _) rfl rfl
        rw [hp]
        rintro err ⟨⟩
  · have hflag : s'.share.mmap.poisoned = s.share.mmap.poisoned := by
      rw [hclean.undisturbed.1]
      exact haside.flag hclean.undisturbed.1
    refine iff_of_true ?_ ?_
    · exact hclean.keep hflag haside.overflowed (fun u hu => (haside.others u hu).1) haside.own.1
    · intro act hact
      exact absurd hact (hother act)

/-- INTERNAL: a thread that is about to set the flag does so or still is.
SOURCE: mmap/mod.rs:1049-1050 -/
theorem willPoison_stays {page : Usize} (a : ι × ResetAct) (h : Disabled s)
    (hwill : willPoison u32Max (s.share.pc t) = true)
    (hstep : Resetting.step page a s = some s') (hflag : s'.share.mmap.poisoned = false) :
    willPoison u32Max (s'.share.pc t) = true := by
  obtain ⟨u, a⟩ := a
  by_cases hu : t = u
  · subst hu
    rcases reset_cases h hstep with ⟨act, rfl, -, hshare⟩ | ⟨-, haside⟩
    · obtain ⟨hmove, -, -, -⟩ := shareStep_move h hshare
      generalize s'.share = share' at hmove hflag
      cases hmove with
      | silent c hp hc hsane =>
          rw [(quietPc_zero hp u32Max).2.2.2] at hwill
          cases hwill
      | fault addr hp =>
          rw [(quietPc_zero hp u32Max).2.2.2] at hwill
          cases hwill
      | record addr hp =>
          rw [hp] at hwill
          cases hwill
      | emitSigbus addr count hp =>
          rw [hp] at hwill
          have hreached : count ≥ s.share.mmap.maxSigbus := by
            rw [h.max]
            exact of_decide_eq_true hwill
          show willPoison u32Max (Function.update s.share.pc t _ t) = true
          rw [Function.update_self, if_pos hreached]
          rfl
      | store addr count hp => cases hflag
      | emitPoisoned addr count hp =>
          rw [hp] at hwill
          cases hwill
      | ret result hp =>
          rw [hp] at hwill
          cases hwill
    · rw [haside.begins] at hwill
      cases hwill
  · have hsame : s'.share.pc t = s.share.pc t := by
      rcases reset_cases h hstep with ⟨act, rfl, -, hshare⟩ | ⟨-, haside⟩
      · exact (move_frame (shareStep_move h hshare).1).1 t hu
      · exact (haside.others t hu).1
    rw [hsame]
    exact hwill

/-- INTERNAL: a run that leaves the flag alone and at whose end no thread is deciding has no
thread that is about to set the flag at its beginning. -/
theorem calm_of_undisturbed {page : Usize} (acts : List (ι × ResetAct)) (h : Disabled s)
    (hrun : run (Resetting.step page) acts s = some s')
    (hend : ∀ t, deciding (s'.share.pc t) = false)
    (hall : ∀ before, before <+: acts → ∀ u, run (Resetting.step page) before s = some u →
      Undisturbed u) (t : ι) : willPoison u32Max (s.share.pc t) = false := by
  rw [← Bool.not_eq_true]
  intro hwill
  -- such a thread stays one until it sets the flag, which the run never sees
  induction acts generalizing s with
  | nil =>
      cases hrun
      have hnot := hend t
      cases hpc : s'.share.pc t with
      | emitSigbus err count =>
          rw [hpc] at hnot
          cases hnot
      | store err count =>
          rw [hpc] at hnot
          cases hnot
      | _ =>
          rw [hpc] at hwill
          cases hwill
  | cons a acts ih =>
      obtain ⟨u, hu, hrest⟩ := (run_cons a acts).mp hrun
      have hfirst : Undisturbed u :=
        hall [a] ⟨acts, rfl⟩ u ((run_cons a []).mpr ⟨u, hu, rfl⟩)
      refine ih (h.step a s u hu) hrest ?_ (willPoison_stays a h hwill hu hfirst.1)
      intro before hbefore v hv
      exact hall (a :: before) (List.cons_prefix_cons.mpr ⟨rfl, hbefore⟩) v
        ((run_cons a before).mpr ⟨u, hu, hv⟩)

/-- INTERNAL: a step adds at most one to the counter. -/
theorem counter_le {page : Usize} (a : ι × ResetAct) (h : Disabled s)
    (hstep : Resetting.step page a s = some s') :
    s'.share.mmap.sigbusCount.toNat ≤ s.share.mmap.sigbusCount.toNat + 1 := by
  obtain ⟨t, a⟩ := a
  rcases reset_cases h hstep with ⟨act, rfl, -, hshare⟩ | ⟨-, haside⟩
  · obtain ⟨hmove, -, -, -⟩ := shareStep_move h hshare
    generalize s'.share = share' at hmove
    cases hmove with
    | record addr hp =>
        show (s.share.mmap.sigbusCount + 1).toNat ≤ _
        rw [UInt32.toNat_add]
        exact Nat.mod_le _ _
    | _ => exact Nat.le_succ _
  · exact Nat.le_succ_of_le haside.counter

/-- INTERNAL: **a run that is too short for `u32::MAX` faults meets the condition.** -/
theorem belowMax_of_short {page : Usize} (acts : List (ι × ResetAct)) (h : Disabled s)
    (hshort : s.share.mmap.sigbusCount.toNat + acts.length < u32Max.toNat) :
    Along (Resetting.step page) BelowMax acts s := by
  induction acts generalizing s with
  | nil => trivial
  | cons a acts ih =>
      rw [List.length_cons] at hshort
      refine ⟨fun _ _ _ => by omega, ?_⟩
      intro u hu
      have hcounter := counter_le a h hu
      exact ih (h.step a s u hu) (by omega)

/-- RESULT: **when poisoning is disabled.** Any number of threads use a mapping whose threshold
is `u32::MAX`, with any number of faults and of resets in any interleaving. If the mapping was
not poisoned before and no `fetch_add` finds a counter of `u32::MAX - 1` or more, then it is not
poisoned in any state of the run and no `fetch_add(1) + 1` overflows; and a run of which that is
true, and at whose end no thread is between its `fetch_add` and its store, has no such
`fetch_add`.
SOURCE: mmap/mod.rs:226-236, 455-477, 1008-1011, 1039-1055 -/
theorem poisoning_disabled (page : Usize) (mmap : SafeMmap) (acts : List (ι × ResetAct))
    (s : Resetting ι) (h : run (Resetting.step page) acts
      (Resetting.init ι (mmap.withMaxSigbus u32Max)) = some s) :
    (mmap.poisoned = false ∧
        Along (Resetting.step page) BelowMax acts (Resetting.init ι (mmap.withMaxSigbus u32Max)) →
      ∀ before, before <+: acts → ∀ u, run (Resetting.step page) before
        (Resetting.init ι (mmap.withMaxSigbus u32Max)) = some u → Undisturbed u) ∧
    ((∀ t, deciding (s.share.pc t) = false) →
      (∀ before, before <+: acts → ∀ u, run (Resetting.step page) before
        (Resetting.init ι (mmap.withMaxSigbus u32Max)) = some u → Undisturbed u) →
      mmap.poisoned = false ∧
        Along (Resetting.step page) BelowMax acts
          (Resetting.init ι (mmap.withMaxSigbus u32Max))) := by
  have hdisabled : Disabled (Resetting.init ι (mmap.withMaxSigbus u32Max)) := disabled_init ι rfl
  have hrule (hflag : mmap.poisoned = false) :=
    always_iff_along Disabled Clean Disabled.step clean_iff acts hdisabled
      ⟨⟨hflag, rfl⟩, fun _ => rfl⟩ h
  refine ⟨?_, ?_⟩
  · rintro ⟨hflag, halong⟩ before hbefore u hu
    exact ((hrule hflag).mpr halong before hbefore u hu).undisturbed
  · intro hend hall
    have hflag : mmap.poisoned = false := (hall [] List.nil_prefix _ rfl).1
    refine ⟨hflag, (hrule hflag).mp ?_⟩
    intro before hbefore u hu
    refine ⟨hall before hbefore u hu, ?_⟩
    obtain ⟨after, rfl⟩ := hbefore
    obtain ⟨v, hv, hafter⟩ := (run_append before after).mp h
    rw [hu] at hv
    cases hv
    refine calm_of_undisturbed after (reach_invariant Disabled Disabled.step before hdisabled hu)
      hafter hend ?_
    intro further hfurther v hv
    refine hall (before ++ further) ?_ v ((run_append before further).mpr ⟨u, hu, hv⟩)
    exact (List.prefix_append_right_inj before).mpr hfurther

/-- A mapping of one page. -/
def flaky : SafeMmap := SafeMmapOptions.new.finish ⟨0x10000, 4096, false⟩

/-- The thread reads the page while it is gone, up to the fault. -/
def faultingRead (t : Bool) : List (Bool × ResetAct) :=
  [(t, .share (.call (.read 0 1))), (t, .share .next), (t, .share .next),
    (t, .share (.touch (some 0x10000)))]

/-- A whole read that faults: it is counted, reported and returned. -/
def oneFault (t : Bool) : List (Bool × ResetAct) :=
  faultingRead t ++ [(t, .share .next), (t, .share .next), (t, .share .next)]

/-- `n` reads that fault, one after the other, and two threads that read at once: the second
one counts its fault before the first one has set the flag. -/
def manyFaults (n : ℕ) : List (Bool × ResetAct) :=
  (List.replicate n (oneFault false)).flatten ++ faultingRead false ++ faultingRead true ++
    [(false, .share .next), (true, .share .next), (false, .share .next), (false, .share .next)]

/-- `poisoning_disabled` is about runs with faults and resets: a read that faults, and a
reset by another thread. -/
theorem poisoning_disabled_oneFault :
    ∃ s, run (Resetting.step 4096) (oneFault false ++ [(true, .clear), (true, .zero)])
        (Resetting.init Bool (flaky.withMaxSigbus u32Max)) = some s ∧
      s.share.mmap.sigbusCount = 0 ∧ Undisturbed s := by
  have hrun : (run (Resetting.step 4096) (oneFault false ++ [(true, .clear), (true, .zero)])
      (Resetting.init Bool (flaky.withMaxSigbus u32Max))).map (fun s => s.share.mmap.sigbusCount) =
        some 0 := rfl
  obtain ⟨s, hs, hcount⟩ := Option.map_eq_some_iff.mp hrun
  have hdisabled : Disabled (Resetting.init Bool (flaky.withMaxSigbus u32Max)) :=
    disabled_init Bool rfl
  have halong : Along (Resetting.step 4096) BelowMax
      (oneFault false ++ [(true, .clear), (true, .zero)])
      (Resetting.init Bool (flaky.withMaxSigbus u32Max)) :=
    belowMax_of_short _ hdisabled (by decide)
  exact ⟨s, hs, hcount, (poisoning_disabled 4096 flaky _ s hs).1 ⟨rfl, halong⟩ _
    List.prefix_rfl s hs⟩

/-- After `n` faults that have all returned. -/
structure Faulted (n : ℕ) (s : Resetting Bool) : Prop where
  mmap : s.share.mmap = { flaky.withMaxSigbus u32Max with sigbusCount := UInt32.ofNat n }
  pc : s.share.pc = fun _ => .idle
  long : s.long = fun _ => .away
  overflowed : s.overflowed = false


variable {s : Resetting Bool} {t : Bool} {count : UInt32}

/-- INTERNAL: a read of the missing page comes to `record_sigbus_from`. -/
theorem faultingRead_run
    (hmmap : s.share.mmap = { flaky.withMaxSigbus u32Max with sigbusCount := count })
    (hpc : s.share.pc t = .idle) (hlong : s.long t = .away) :
    run (Resetting.step 4096) (faultingRead t) s =
      some { s with share := s.share.goto t (.record (.sigbus 0x10000)) } := by
  have hbounds : Sharing.boundsStep s.share.mmap (.read 0 1) = .access := by
    rw [hmmap]
    rfl
  have hflag : s.share.mmap.poisoned = false := by
    rw [hmmap]
    rfl
  simp [faultingRead, run, Resetting.step, Resetting.shareStep, Resetting.counts, Sharing.step,
    Sharing.goto, Sharing.accessStep, hlong, hpc, hflag, hbounds]

/-- INTERNAL: one more fault below the threshold is counted and leaves the mapping clean.
SOURCE: mmap/mod.rs:1039-1055 -/
theorem Faulted.next {n : ℕ} (h : Faulted n s) (hn : n + 1 < 2 ^ 32 - 1) :
    ∃ s', run (Resetting.step 4096) (oneFault false) s = some s' ∧ Faulted (n + 1) s' := by
  have hcount : (UInt32.ofNat n).toNat = n := UInt32.toNat_ofNat_of_lt' (by
    show n < 2 ^ 32
    omega)
  have hless : ¬ u32Max ≤ UInt32.ofNat n + 1 := by
    rw [UInt32.le_iff_toNat_le, toNat_succ (by omega), hcount, u32Max_toNat]
    omega
  have hfits : ¬ 2 ^ 32 ≤ n + 1 := by omega
  have hread := faultingRead_run (t := false) h.mmap (congrFun h.pc false) (congrFun h.long false)
  obtain ⟨s', hs', hfaulted⟩ : ∃ s', run (Resetting.step 4096)
      [(false, .share .next), (false, .share .next), (false, .share .next)]
      { s with share := s.share.goto false (.record (.sigbus 0x10000)) } = some s' ∧
        Faulted (n + 1) s' := by
    simp only [run, Resetting.step, Resetting.shareStep, Resetting.counts, Sharing.step,
      Sharing.goto, h.mmap, h.pc, h.long, h.overflowed, SafeMmap.withMaxSigbus, hless,
      Function.update_self, Function.update_idem, Option.map_some, Option.bind_some, ge_iff_le,
      if_false]
    refine ⟨_, rfl, ?_, Function.update_eq_self false _, rfl, ?_⟩
    · rw [UInt32.ofNat_add]
      rfl
    · simp only [hcount, hfits, Bool.false_and, Bool.or_false, Bool.true_and, decide_false]
  exact ⟨s', (run_append _ _).mpr ⟨_, hread, hs'⟩, hfaulted⟩

/-- INTERNAL: `n` faults below the threshold, one after the other. -/
theorem faulted_run (n : ℕ) (hn : n < 2 ^ 32 - 1) :
    ∃ s, run (Resetting.step 4096) (List.replicate n (oneFault false)).flatten
      (Resetting.init Bool (flaky.withMaxSigbus u32Max)) = some s ∧ Faulted n s := by
  induction n with
  | zero => exact ⟨_, rfl, rfl, rfl, rfl, rfl⟩
  | succ n ih =>
      obtain ⟨s, hs, hfaulted⟩ := ih (by omega)
      obtain ⟨s', hs', hnext⟩ := hfaulted.next hn
      refine ⟨s', ?_, hnext⟩
      rw [List.replicate_succ', List.flatten_append, List.flatten_singleton]
      exact (run_append _ _).mpr ⟨s, hs, hs'⟩

/-- RESULT: **`u32::MAX` faults poison a mapping whose poisoning is disabled**, and a fault that
another thread counts before the flag is set overflows the sum.
SOURCE: mmap/mod.rs:226-236, 1039-1055 -/
theorem many_faults_poison :
    ∃ s, run (Resetting.step 4096) (manyFaults (2 ^ 32 - 2))
        (Resetting.init Bool (flaky.withMaxSigbus u32Max)) = some s ∧
      s.share.mmap.maxSigbus = u32Max ∧ s.share.mmap.poisoned = true ∧ s.overflowed = true := by
  obtain ⟨s, hs, h⟩ := faulted_run (2 ^ 32 - 2) (by omega)
  have hfirst := faultingRead_run (t := false) h.mmap (congrFun h.pc false)
    (congrFun h.long false)
  have hsecond := faultingRead_run (t := true)
    (s := { s with share := s.share.goto false (.record (.sigbus 0x10000)) }) h.mmap
    (congrFun h.pc true) (congrFun h.long true)
  have hreached : u32Max ≤ UInt32.ofNat (2 ^ 32 - 2) + 1 := by decide
  have hover : decide (2 ^ 32 ≤ (UInt32.ofNat (2 ^ 32 - 2) + 1).toNat + 1) = true := by decide
  obtain ⟨s', hs', hmax, hflag, hoverflowed⟩ : ∃ s', run (Resetting.step 4096)
      [(false, .share .next), (true, .share .next), (false, .share .next), (false, .share .next)]
      { s with
        share := (s.share.goto false (.record (.sigbus 0x10000))).goto true
          (.record (.sigbus 0x10000)) } = some s' ∧
      s'.share.mmap.maxSigbus = u32Max ∧ s'.share.mmap.poisoned = true ∧
        s'.overflowed = true := by
    simp only [run, Resetting.step, Resetting.shareStep, Resetting.counts, Sharing.step,
      Sharing.goto, h.mmap, h.pc, h.long, h.overflowed, SafeMmap.withMaxSigbus, hreached, hover,
      Function.update_self, Function.update_idem, Option.map_some, Option.bind_some, ge_iff_le,
      if_true, Function.update_of_ne, ne_eq, Bool.false_eq_true, not_false_eq_true, reduceCtorEq]
    refine ⟨_, rfl, rfl, rfl, ?_⟩
    simp only [Bool.and_true, Bool.or_true, Bool.true_or]
  refine ⟨s', (run_append _ _).mpr ⟨_, (run_append _ _).mpr ⟨_, (run_append _ _).mpr
    ⟨s, hs, hfirst⟩, hsecond⟩, hs'⟩, hmax, hflag, hoverflowed⟩

end MmapShield.Analysis.Disabling
