import MmapShield.Computation.Machine
import MmapShield.Model.Recording
import Mathlib.Data.Fintype.Basic
import Mathlib.Data.Finset.Dedup
import Mathlib.Data.Fintype.Card

/-!
# Resetting the poison while faults are recorded

`record_sigbus_from` counts and then poisons, `reset_poison` clears the flag and then the
counter. A reset whose second store finds the flag set again, or a record that has
reached the threshold and not yet set it, leaves a mapping poisoned with a counter of
zero (`record_across_reset`). `reset_serializable` says that this is the only way to go
wrong, the wrap of the counter apart: in every other interleaving the final mapping is
the one that the same calls leave one after the other in some order.

`Consistent` is the invariant: the flag, or a record that is about to set it, goes with a
counter at the threshold (`flagged`); a counter at the threshold goes with the flag, with
such a record or with a reset that has cleared the flag (`covered`); and the counter is
the number of the records since the last reset (`counted`).
-/

set_option autoImplicit false

namespace MmapShield.Analysis

open MmapShield.Computation MmapShield.Model

/-! ## One call after the other -/

/-- A mapping between two operations: it is poisoned exactly at the threshold. -/
def Settled (mmap : SafeMmap) : Prop :=
  mmap.poisoned = decide (mmap.maxSigbus ≤ mmap.sigbusCount)

/-- INTERNAL: `Settled` can be evaluated. -/
instance (mmap : SafeMmap) : Decidable (Settled mmap) :=
  inferInstanceAs (Decidable (_ = _))

/-- The call does not wrap the counter. -/
def Fits (call : PoisonCall) (mmap : SafeMmap) : Prop :=
  call.isRecord = true → mmap.sigbusCount.toNat + 1 < 2 ^ 32

/-- A whole call as a step. -/
def applyStep (call : PoisonCall) (mmap : SafeMmap) : Option SafeMmap := some (call.apply mmap)

/-- The fields that no call writes are the same. -/
def SameFixed (a b : SafeMmap) : Prop :=
  a.raw = b.raw ∧ a.maxSigbus = b.maxSigbus ∧ a.onEvent = b.onEvent

/-- INTERNAL: a count below the last one of all does not wrap. -/
theorem toNat_succ {count : UInt32} (h : count.toNat + 1 < 2 ^ 32) :
    (count + 1).toNat = count.toNat + 1 := by
  rw [UInt32.toNat_add]
  exact Nat.mod_eq_of_lt h

/-- INTERNAL: two settled mappings with the same counter and the same fixed fields. -/
theorem Settled.ext {a b : SafeMmap} (ha : Settled a) (hb : Settled b) (hsame : SameFixed a b)
    (hcount : a.sigbusCount.toNat = b.sigbusCount.toNat) : a = b := by
  have hc : a.sigbusCount = b.sigbusCount := UInt32.toNat_inj.mp hcount
  have hp : a.poisoned = b.poisoned := by
    rw [ha, hb, hsame.2.1, hc]
  cases a
  cases b
  simp only [SameFixed] at hsame
  simp only at hc hp
  obtain ⟨hr, hm, he⟩ := hsame
  subst hc hp hr hm he
  rfl

/-- INTERNAL: one record as a whole.
SOURCE: mmap/mod.rs:1039-1055 -/
theorem record_apply {mmap : SafeMmap} (err : AccessError) (h : Settled mmap)
    (hfits : mmap.sigbusCount.toNat + 1 < 2 ^ 32) :
    Settled ((PoisonCall.record err).apply mmap) ∧
      SameFixed ((PoisonCall.record err).apply mmap) mmap ∧
      ((PoisonCall.record err).apply mmap).sigbusCount.toNat = mmap.sigbusCount.toNat + 1 := by
  have hsucc := toNat_succ hfits
  by_cases hmax : mmap.sigbusCount + 1 ≥ mmap.maxSigbus
  · have happly : (PoisonCall.record err).apply mmap =
        { mmap with sigbusCount := mmap.sigbusCount + 1, poisoned := true } := by
      simp [PoisonCall.apply, SafeMmap.recordSigbusFrom, hmax]
    rw [happly]
    refine ⟨?_, ⟨rfl, rfl, rfl⟩, hsucc⟩
    show true = decide (mmap.maxSigbus ≤ mmap.sigbusCount + 1)
    rw [decide_eq_true hmax]
  · have happly : (PoisonCall.record err).apply mmap =
        { mmap with sigbusCount := mmap.sigbusCount + 1 } := by
      simp [PoisonCall.apply, SafeMmap.recordSigbusFrom, hmax]
    rw [happly]
    refine ⟨?_, ⟨rfl, rfl, rfl⟩, hsucc⟩
    -- below the threshold after the record, so below it before
    have hbefore : ¬ mmap.maxSigbus ≤ mmap.sigbusCount := by
      intro hle
      apply hmax
      rw [ge_iff_le, UInt32.le_iff_toNat_le, hsucc]
      rw [UInt32.le_iff_toNat_le] at hle
      omega
    show mmap.poisoned = decide (mmap.maxSigbus ≤ mmap.sigbusCount + 1)
    rw [h, decide_eq_false hbefore, decide_eq_false hmax]

/-- INTERNAL: `reset_poison` leaves a settled mapping.
SOURCE: mmap/mod.rs:1008-1011 -/
theorem reset_settled {mmap : SafeMmap} (hmax : 1 ≤ mmap.maxSigbus) : Settled mmap.resetPoison := by
  have hnot : ¬ mmap.maxSigbus ≤ 0 := by
    intro hle
    rw [UInt32.le_iff_toNat_le] at hle hmax
    have hzero : (0 : UInt32).toNat = 0 := rfl
    have hone : (1 : UInt32).toNat = 1 := rfl
    omega
  show false = decide (mmap.maxSigbus ≤ 0)
  rw [decide_eq_false hnot]

/-- INTERNAL: calls one after the other compose. -/
theorem serial_append (as bs : List PoisonCall) (mmap : SafeMmap) :
    serial (as ++ bs) mmap = serial bs (serial as mmap) := by
  induction as generalizing mmap with
  | nil => rfl
  | cons a as ih => exact ih (a.apply mmap)

/-- INTERNAL: no call changes the threshold, the range or the callback. -/
theorem serial_sameFixed (cs : List PoisonCall) (mmap : SafeMmap) :
    SameFixed (serial cs mmap) mmap := by
  have hone (c : PoisonCall) (mmap : SafeMmap) : SameFixed (c.apply mmap) mmap := by
    cases c with
    | record err =>
      simp only [PoisonCall.apply, SafeMmap.recordSigbusFrom]
      split
      · exact ⟨rfl, rfl, rfl⟩
      · exact ⟨rfl, rfl, rfl⟩
    | reset => exact ⟨rfl, rfl, rfl⟩
  induction cs generalizing mmap with
  | nil => exact ⟨rfl, rfl, rfl⟩
  | cons c cs ih =>
    obtain ⟨hr, hm, he⟩ := ih (c.apply mmap)
    obtain ⟨hr', hm', he'⟩ := hone c mmap
    exact ⟨hr.trans hr', hm.trans hm', he.trans he'⟩

/-- INTERNAL: records one after the other count up. -/
theorem serial_records (cs : List PoisonCall) (hcs : ∀ c ∈ cs, c.isRecord = true)
    {mmap : SafeMmap} (h : Settled mmap) (hfits : mmap.sigbusCount.toNat + cs.length < 2 ^ 32) :
    Settled (serial cs mmap) ∧
      (serial cs mmap).sigbusCount.toNat = mmap.sigbusCount.toNat + cs.length := by
  induction cs generalizing mmap with
  | nil => exact ⟨h, rfl⟩
  | cons c cs ih =>
    cases c with
    | reset => cases hcs .reset List.mem_cons_self
    | record err =>
      rw [List.length_cons] at hfits ⊢
      obtain ⟨hsettled, -, hcount⟩ := record_apply err h (by omega)
      obtain ⟨hall, hsum⟩ := ih (fun c hc => hcs c (List.mem_cons_of_mem _ hc)) hsettled
        (by omega)
      refine ⟨hall, ?_⟩
      show (serial cs ((PoisonCall.record err).apply mmap)).sigbusCount.toNat = _
      omega

/-- INTERNAL: at least one reset after the other resets. -/
theorem serial_resets (cs : List PoisonCall) (hne : cs ≠ [])
    (hcs : ∀ c ∈ cs, c.isRecord = false) (mmap : SafeMmap) :
    serial cs mmap = mmap.resetPoison := by
  induction cs generalizing mmap with
  | nil => exact absurd rfl hne
  | cons c cs ih =>
    cases c with
    | record err => cases hcs (.record err) List.mem_cons_self
    | reset =>
      show serial cs mmap.resetPoison = _
      by_cases hnil : cs = []
      · rw [hnil]
        rfl
      · rw [ih hnil (fun c hc => hcs c (List.mem_cons_of_mem _ hc))]
        rfl

/-- INTERNAL: a short run of calls does not wrap the counter. -/
theorem fits_of_length (cs : List PoisonCall) {mmap : SafeMmap}
    (h : mmap.sigbusCount.toNat + cs.length < 2 ^ 32) : Along applyStep Fits cs mmap := by
  induction cs generalizing mmap with
  | nil => trivial
  | cons c cs ih =>
    rw [List.length_cons] at h
    refine ⟨fun _ => by omega, ?_⟩
    intro m hm
    cases hm
    apply ih
    cases c with
    | record err =>
      have hcount : ((PoisonCall.record err).apply mmap).sigbusCount = mmap.sigbusCount + 1 := by
        simp only [PoisonCall.apply, SafeMmap.recordSigbusFrom]
        split <;> rfl
      rw [hcount, toNat_succ (by omega)]
      omega
    | reset =>
      show (0 : UInt32).toNat + cs.length < 2 ^ 32
      have hzero : (0 : UInt32).toNat = 0 := rfl
      omega

/-- INTERNAL: completed operations leave a settled mapping, unless the counter wraps. -/
theorem serial_settled (cs : List PoisonCall) {mmap : SafeMmap} (h : Settled mmap)
    (hmax : 1 ≤ mmap.maxSigbus) (hfits : Along applyStep Fits cs mmap) :
    Settled (serial cs mmap) := by
  induction cs generalizing mmap with
  | nil => exact h
  | cons c cs ih =>
    have hrest := hfits.2 (c.apply mmap) rfl
    cases c with
    | record err =>
      obtain ⟨hsettled, hfixed, -⟩ := record_apply err h (hfits.1 rfl)
      have hmax' : 1 ≤ ((PoisonCall.record err).apply mmap).maxSigbus := by
        rw [hfixed.2.1]
        exact hmax
      exact ih hsettled hmax' hrest
    | reset => exact ih (reset_settled hmax) hmax hrest

/-! ## Interleaved calls -/

variable {ι : Type} [DecidableEq ι] {calls : ι → PoisonCall} {start : SafeMmap}
  {s s' : Recording ι} {t : ι}

/-- The step of `t` wraps no counter, and when it clears the counter the flag is clear and
no record that has reached the threshold has yet to set it. -/
def Orderly (calls : ι → PoisonCall) (t : ι) (s : Recording ι) : Prop :=
  (s.pc t = .start → (calls t).isRecord = true → s.mmap.sigbusCount.toNat + 1 < 2 ^ 32) ∧
  (s.pc t = .zero → s.mmap.poisoned = false ∧ ∀ u, s.pc u ≠ .store)

/-- The counter is the number of the records since the last reset, or since the start. -/
def Counted (calls : ι → PoisonCall) (start : SafeMmap) (s : Recording ι) : Prop :=
  ∃ l : List ι, l.Nodup ∧ (∀ t ∈ l, (calls t).isRecord = true ∧ s.pc t ≠ .start) ∧
    ((∃ t, (calls t).isRecord = false ∧ s.pc t = .done) ∧
        s.mmap.sigbusCount.toNat = l.length ∨
      (∀ t, (calls t).isRecord = false → s.pc t ≠ .done) ∧
        s.mmap.sigbusCount.toNat = start.sigbusCount.toNat + l.length ∧
        ∀ t, (calls t).isRecord = true → s.pc t ≠ .start → t ∈ l)

/-- The invariant of the interleavings. -/
structure Consistent (calls : ι → PoisonCall) (start : SafeMmap) (s : Recording ι) : Prop where
  fixed : SameFixed s.mmap start
  storing : ∀ t, s.pc t = .store → (calls t).isRecord = true
  zeroing : ∀ t, s.pc t = .zero → (calls t).isRecord = false
  flagged : (s.mmap.poisoned = true ∨ ∃ t, s.pc t = .store) →
    s.mmap.maxSigbus ≤ s.mmap.sigbusCount
  covered : s.mmap.maxSigbus ≤ s.mmap.sigbusCount →
    s.mmap.poisoned = true ∨ (∃ t, s.pc t = .store) ∨ ∃ t, s.pc t = .zero
  counted : Counted calls start s

/-- INTERNAL: the four kinds of steps.
SOURCE: mmap/mod.rs:1009-1010, 1045, 1049-1050 -/
theorem recording_cases (h : s.step calls t = some s') :
    (s.pc t = .start ∧ (calls t).isRecord = true ∧
      s' = ⟨{ s.mmap with sigbusCount := s.mmap.sigbusCount + 1 },
        Function.update s.pc t
          (if s.mmap.sigbusCount + 1 ≥ s.mmap.maxSigbus then .store else .done)⟩) ∨
    (s.pc t = .start ∧ (calls t).isRecord = false ∧
      s' = ⟨{ s.mmap with poisoned := false }, Function.update s.pc t .zero⟩) ∨
    (s.pc t = .store ∧
      s' = ⟨{ s.mmap with poisoned := true }, Function.update s.pc t .done⟩) ∨
    (s.pc t = .zero ∧
      s' = ⟨{ s.mmap with sigbusCount := 0 }, Function.update s.pc t .done⟩) := by
  unfold Recording.step at h
  split at h
  · rename_i err hpc hcall
    refine Or.inl ⟨hpc, ?_, (Option.some.inj h).symm⟩
    rw [hcall]
    rfl
  · rename_i hpc hcall
    refine Or.inr (Or.inl ⟨hpc, ?_, (Option.some.inj h).symm⟩)
    rw [hcall]
    rfl
  · rename_i hpc
    exact Or.inr (Or.inr (Or.inl ⟨hpc, (Option.some.inj h).symm⟩))
  · rename_i hpc
    exact Or.inr (Or.inr (Or.inr ⟨hpc, (Option.some.inj h).symm⟩))
  · cases h

/-- INTERNAL: the counter after the first step of a record. -/
theorem Counted.record (h : Counted calls start s) (hpc : s.pc t = .start)
    (hcall : (calls t).isRecord = true) (hfits : s.mmap.sigbusCount.toNat + 1 < 2 ^ 32)
    {c : PoisonPc} (hc : c ≠ .start) :
    Counted calls start ⟨{ s.mmap with sigbusCount := s.mmap.sigbusCount + 1 },
      Function.update s.pc t c⟩ := by
  obtain ⟨l, hnodup, hl, hcount⟩ := h
  have hsucc := toNat_succ hfits
  have hother (u : ι) (hu : u ≠ t) : Function.update s.pc t c u = s.pc u :=
    Function.update_of_ne hu _ _
  have hne (u : ι) (hu : (calls u).isRecord = false) : u ≠ t := by
    rintro rfl
    rw [hcall] at hu
    cases hu
  have hnot : t ∉ l := fun ht => (hl t ht).2 hpc
  refine ⟨l ++ [t], ?_, ?_, ?_⟩
  · exact List.nodup_append.mpr ⟨hnodup, List.nodup_singleton t, fun a ha b hb hab =>
      hnot (by rw [← List.mem_singleton.mp hb, ← hab]; exact ha)⟩
  · intro u hu
    simp only [List.mem_append, List.mem_singleton] at hu
    by_cases hut : u = t
    · subst hut
      simpa using ⟨hcall, hc⟩
    · simp only [hother u hut]
      exact hl u (hu.resolve_right hut)
  · rw [List.length_append, List.length_singleton]
    rcases hcount with ⟨⟨u, hu, hdone⟩, hlen⟩ | ⟨hnone, hlen, hall⟩
    · refine Or.inl ⟨⟨u, hu, ?_⟩, ?_⟩
      · simp only [hother u (hne u hu)]
        exact hdone
      · simp only
        omega
    · refine Or.inr ⟨?_, ?_, ?_⟩
      · intro u hu
        simp only [hother u (hne u hu)]
        exact hnone u hu
      · simp only
        omega
      · intro u hu hstarted
        by_cases hut : u = t
        · rw [hut]
          exact List.mem_append_right l (List.mem_singleton_self t)
        · simp only [hother u hut] at hstarted
          exact List.mem_append_left [t] (hall u hu hstarted)

/-- INTERNAL: the counter after a step that neither records nor ends a reset. -/
theorem Counted.same (h : Counted calls start s) {mmap : SafeMmap} {c : PoisonPc}
    (hcount : mmap.sigbusCount = s.mmap.sigbusCount) (hc : c ≠ .start)
    (hrecord : (calls t).isRecord = true → s.pc t ≠ .start)
    (hreset : (calls t).isRecord = false → c ≠ .done ∧ s.pc t ≠ .done) :
    Counted calls start ⟨mmap, Function.update s.pc t c⟩ := by
  obtain ⟨l, hnodup, hl, hcounted⟩ := h
  have hother (u : ι) (hu : u ≠ t) : Function.update s.pc t c u = s.pc u :=
    Function.update_of_ne hu _ _
  refine ⟨l, hnodup, ?_, ?_⟩
  · intro u hu
    refine ⟨(hl u hu).1, ?_⟩
    by_cases hut : u = t
    · subst hut
      simpa using hc
    · simp only [hother u hut]
      exact (hl u hu).2
  · rcases hcounted with ⟨⟨u, hu, hdone⟩, hlen⟩ | ⟨hnone, hlen, hall⟩
    · refine Or.inl ⟨⟨u, hu, ?_⟩, ?_⟩
      · have hut : u ≠ t := by
          rintro rfl
          exact (hreset hu).2 hdone
        simp only [hother u hut]
        exact hdone
      · simp only [hcount]
        exact hlen
    · refine Or.inr ⟨?_, ?_, ?_⟩
      · intro u hu
        by_cases hut : u = t
        · subst hut
          simpa using (hreset hu).1
        · simp only [hother u hut]
          exact hnone u hu
      · simp only [hcount]
        exact hlen
      · intro u hu hstarted
        by_cases hut : u = t
        · subst hut
          exact hall u hu (hrecord hu)
        · simp only [hother u hut] at hstarted
          exact hall u hu hstarted

/-- INTERNAL: a point that `t` did not move to is one that its thread was at before. -/
theorem pc_of_update {pc : ι → PoisonPc} {c p : PoisonPc} {u : ι}
    (hu : Function.update pc t c u = p) (hc : c ≠ p) : pc u = p := by
  by_cases hut : u = t
  · rw [hut, Function.update_self] at hu
    exact absurd hu hc
  · rw [Function.update_of_ne hut] at hu
    exact hu

/-- INTERNAL: **a step that is orderly keeps the invariant.**
SOURCE: mmap/mod.rs:1008-1011, 1039-1055 -/
theorem Consistent.step (hmax : 1 ≤ start.maxSigbus) (h : Consistent calls start s)
    (hin : Orderly calls t s) (hstep : s.step calls t = some s') :
    Consistent calls start s' := by
  have hmax' : 1 ≤ s.mmap.maxSigbus := by
    rw [h.fixed.2.1]
    exact hmax
  rcases recording_cases hstep with ⟨hpc, hcall, rfl⟩ | ⟨hpc, hcall, rfl⟩ | ⟨hpc, rfl⟩ |
    ⟨hpc, rfl⟩
  · -- the counter goes up by one
    have hfits := hin.1 hpc hcall
    have hsucc := toNat_succ hfits
    have hup (hle : s.mmap.maxSigbus ≤ s.mmap.sigbusCount) :
        s.mmap.maxSigbus ≤ s.mmap.sigbusCount + 1 := by
      rw [UInt32.le_iff_toNat_le] at hle ⊢
      omega
    by_cases hreach : s.mmap.sigbusCount + 1 ≥ s.mmap.maxSigbus
    · rw [if_pos hreach]
      refine ⟨h.fixed, ?_, ?_, fun _ => hreach, ?_, h.counted.record hpc hcall hfits nofun⟩
      · intro u hu
        by_cases hut : u = t
        · rw [hut]
          exact hcall
        · simp only [Function.update_of_ne hut] at hu
          exact h.storing u hu
      · intro u hu
        exact h.zeroing u (pc_of_update hu nofun)
      · intro _
        exact Or.inr (Or.inl ⟨t, Function.update_self _ _ _⟩)
    · rw [if_neg hreach]
      refine ⟨h.fixed, ?_, ?_, ?_, ?_, h.counted.record hpc hcall hfits nofun⟩
      · intro u hu
        exact h.storing u (pc_of_update hu nofun)
      · intro u hu
        exact h.zeroing u (pc_of_update hu nofun)
      · rintro (hp | ⟨u, hu⟩)
        · exact hup (h.flagged (Or.inl hp))
        · exact hup (h.flagged (Or.inr ⟨u, pc_of_update hu nofun⟩))
      · intro hle
        exact absurd hle hreach
  · -- the flag is cleared
    refine ⟨h.fixed, ?_, ?_, ?_, ?_, ?_⟩
    · intro u hu
      exact h.storing u (pc_of_update hu nofun)
    · intro u hu
      by_cases hut : u = t
      · rw [hut]
        exact hcall
      · simp only [Function.update_of_ne hut] at hu
        exact h.zeroing u hu
    · rintro (hp | ⟨u, hu⟩)
      · cases hp
      · exact h.flagged (Or.inr ⟨u, pc_of_update hu nofun⟩)
    · intro _
      exact Or.inr (Or.inr ⟨t, Function.update_self _ _ _⟩)
    · refine h.counted.same rfl nofun ?_ ?_
      · intro hrecord
        rw [hcall] at hrecord
        cases hrecord
      · intro _
        rw [hpc]
        exact ⟨nofun, nofun⟩
  · -- the flag is set
    have hcall := h.storing t hpc
    have hle := h.flagged (Or.inr ⟨t, hpc⟩)
    refine ⟨h.fixed, ?_, ?_, fun _ => hle, fun _ => Or.inl rfl, ?_⟩
    · intro u hu
      exact h.storing u (pc_of_update hu nofun)
    · intro u hu
      exact h.zeroing u (pc_of_update hu nofun)
    · refine h.counted.same rfl nofun ?_ ?_
      · intro _
        rw [hpc]
        exact nofun
      · intro hreset
        rw [hcall] at hreset
        cases hreset
  · -- the counter is cleared, and nothing is left that says otherwise
    obtain ⟨hclear, hnone⟩ := hin.2 hpc
    have hcall := h.zeroing t hpc
    refine ⟨h.fixed, ?_, ?_, ?_, ?_, ?_⟩
    · intro u hu
      exact h.storing u (pc_of_update hu nofun)
    · intro u hu
      exact h.zeroing u (pc_of_update hu nofun)
    · rintro (hp | ⟨u, hu⟩)
      · have hp' : s.mmap.poisoned = true := hp
        rw [hclear] at hp'
        cases hp'
      · exact absurd (pc_of_update hu nofun) (hnone u)
    · intro hle
      have hle' : s.mmap.maxSigbus ≤ 0 := hle
      rw [UInt32.le_iff_toNat_le] at hle' hmax'
      have hzero : (0 : UInt32).toNat = 0 := rfl
      have hone : (1 : UInt32).toNat = 1 := rfl
      omega
    · exact ⟨[], List.nodup_nil, by simp,
        Or.inl ⟨⟨t, hcall, Function.update_self _ _ _⟩, rfl⟩⟩

omit [DecidableEq ι] in
/-- INTERNAL: the invariant holds before the first call. -/
theorem consistent_init (calls : ι → PoisonCall) (h : Settled start) :
    Consistent calls start (Recording.init ι start) where
  fixed := ⟨rfl, rfl, rfl⟩
  storing := by rintro t ⟨⟩
  zeroing := by rintro t ⟨⟩
  flagged := by
    rintro (hp | ⟨t, ⟨⟩⟩)
    have hp' : start.poisoned = true := hp
    rw [h, decide_eq_true_eq] at hp'
    exact hp'
  covered := by
    intro hle
    refine Or.inl ?_
    show start.poisoned = true
    rw [h]
    exact decide_eq_true hle
  counted := by
    refine ⟨[], List.nodup_nil, by simp, Or.inr ⟨?_, rfl, ?_⟩⟩
    · rintro t - ⟨⟩
    · rintro t - hne
      exact absurd rfl hne

omit [DecidableEq ι] in
/-- INTERNAL: without a call in flight the mapping is settled. -/
theorem Consistent.settled (h : Consistent calls start s)
    (hquiet : ∀ t, s.pc t = .start ∨ s.pc t = .done) : Settled s.mmap := by
  have hstore (t : ι) : s.pc t ≠ .store := by
    intro ht
    rcases hquiet t with hq | hq <;> rw [ht] at hq <;> cases hq
  have hzero (t : ι) : s.pc t ≠ .zero := by
    intro ht
    rcases hquiet t with hq | hq <;> rw [ht] at hq <;> cases hq
  unfold Settled
  rw [Bool.eq_iff_iff, decide_eq_true_eq]
  refine ⟨fun hp => h.flagged (Or.inl hp), ?_⟩
  intro hle
  rcases h.covered hle with hp | ⟨t, ht⟩ | ⟨t, ht⟩
  · exact hp
  · exact absurd ht (hstore t)
  · exact absurd ht (hzero t)

/-- INTERNAL: when all calls have returned, running the records that are not counted, then
the resets and then the others leaves the same mapping. -/
theorem Consistent.serializable [Fintype ι] (hmax : 1 ≤ start.maxSigbus) (hstart : Settled start)
    (h : Consistent calls start s) (hdone : ∀ t, s.pc t = .done) :
    ∃ order : List ι, order.Nodup ∧ (∀ t, t ∈ order) ∧
      s.mmap = serial (order.map calls) start := by
  have hsettled := h.settled fun t => Or.inr (hdone t)
  have hbound : s.mmap.sigbusCount.toNat < 2 ^ 32 := UInt32.toNat_lt _
  obtain ⟨l, hnodup, hl, hcount⟩ := h.counted
  have hrecords : ∀ c ∈ l.map calls, c.isRecord = true := by
    intro c hc
    obtain ⟨t, ht, rfl⟩ := List.mem_map.mp hc
    exact (hl t ht).1
  rcases hcount with ⟨⟨r, hr, -⟩, hlen⟩ | ⟨hnone, hlen, hall⟩
  · let others := (Finset.univ : Finset ι).toList.filter fun t =>
      (calls t).isRecord && !decide (t ∈ l)
    let resets := (Finset.univ : Finset ι).toList.filter fun t => !(calls t).isRecord
    have hnodup' := Finset.nodup_toList (Finset.univ : Finset ι)
    have hin (t : ι) : t ∈ (Finset.univ : Finset ι).toList :=
      Finset.mem_toList.mpr (Finset.mem_univ t)
    have hothers (t : ι) : t ∈ others ↔ (calls t).isRecord = true ∧ t ∉ l := by
      simp [others]
    have hresets (t : ι) : t ∈ resets ↔ (calls t).isRecord = false := by
      simp [resets]
    refine ⟨others ++ resets ++ l, ?_, ?_, ?_⟩
    · rw [List.nodup_append, List.nodup_append]
      refine ⟨⟨hnodup'.filter _, hnodup'.filter _, ?_⟩, hnodup, ?_⟩
      · rintro a ha b hb rfl
        have hrec := ((hothers a).mp ha).1
        rw [(hresets a).mp hb] at hrec
        cases hrec
      · rintro a ha b hb rfl
        rcases List.mem_append.mp ha with ha | ha
        · exact ((hothers a).mp ha).2 hb
        · have hrec := (hl a hb).1
          rw [(hresets a).mp ha] at hrec
          cases hrec
    · intro t
      rw [List.mem_append, List.mem_append, hothers, hresets]
      by_cases ht : t ∈ l
      · exact Or.inr ht
      · cases hrec : (calls t).isRecord with
        | true => exact Or.inl (Or.inl ⟨rfl, ht⟩)
        | false => exact Or.inl (Or.inr rfl)
    · -- the resets leave zero, whatever came before them
      have hne : resets.map calls ≠ [] := by
        intro hnil
        have hmem := (hresets r).mpr hr
        rw [List.map_eq_nil_iff.mp hnil] at hmem
        cases hmem
      have hall (c : PoisonCall) (hc : c ∈ resets.map calls) : c.isRecord = false := by
        obtain ⟨t, ht, rfl⟩ := List.mem_map.mp hc
        exact (hresets t).mp ht
      have hfixed := serial_sameFixed (others.map calls) start
      have hmaxed : 1 ≤ (serial (others.map calls) start).maxSigbus := by
        rw [hfixed.2.1]
        exact hmax
      rw [List.map_append, List.map_append, serial_append, serial_append,
        serial_resets _ hne hall]
      have hzero : ((serial (others.map calls) start).resetPoison).sigbusCount.toNat = 0 := rfl
      have hlength : (l.map calls).length = l.length := List.length_map calls
      obtain ⟨hsettled', hsum⟩ := serial_records (l.map calls) hrecords (reset_settled hmaxed)
        (by omega)
      refine Settled.ext hsettled hsettled' ?_ (by omega)
      obtain ⟨hraw, hthreshold, hevent⟩ := serial_sameFixed (l.map calls)
        (serial (others.map calls) start).resetPoison
      refine ⟨?_, ?_, ?_⟩
      · rw [hraw, h.fixed.1]
        exact hfixed.1.symm
      · rw [hthreshold, h.fixed.2.1]
        exact hfixed.2.1.symm
      · rw [hevent, h.fixed.2.2]
        exact hfixed.2.2.symm
  · -- no reset: every call is a record, and all of them count
    have hevery (t : ι) : (calls t).isRecord = true := by
      by_contra hrec
      rw [Bool.not_eq_true] at hrec
      exact hnone t hrec (hdone t)
    have hmem (t : ι) : t ∈ l := by
      refine hall t (hevery t) ?_
      rw [hdone t]
      exact nofun
    refine ⟨l, hnodup, hmem, ?_⟩
    have hlength : (l.map calls).length = l.length := List.length_map calls
    obtain ⟨hsettled', hsum⟩ := serial_records (l.map calls) hrecords hstart (by omega)
    obtain ⟨hraw, hthreshold, hevent⟩ := serial_sameFixed (l.map calls) start
    refine Settled.ext hsettled hsettled' ?_ (by omega)
    exact ⟨h.fixed.1.trans hraw.symm, h.fixed.2.1.trans hthreshold.symm,
      h.fixed.2.2.trans hevent.symm⟩

/-- INTERNAL: a mapping that has just been opened is settled.
SOURCE: mmap/mod.rs:397-405 -/
theorem finish_settled (opts : SafeMmapOptions) (raw : RawMmap) (hmax : 1 ≤ opts.maxSigbus) :
    Settled (opts.finish raw) := by
  show Settled (opts.finish raw).resetPoison
  exact reset_settled hmax

/-- RESULT: **when resets are atomic.** The mapping was opened and then used by completed
calls; then any calls of `record_sigbus_from` and `reset_poison` run interleaved. If no
step wraps the counter and every reset clears it while the flag is clear and no record is
about to set it, then whenever no call is in flight a poisoned mapping has reached the
threshold, and when all have returned the mapping is the one that the same calls leave
one after the other in some order.
SOURCE: mmap/mod.rs:1008-1020, 1039-1055 -/
theorem reset_serializable [Fintype ι] (opts : SafeMmapOptions) (raw : RawMmap)
    (before : List PoisonCall) (calls : ι → PoisonCall) (acts : List ι) (s : Recording ι)
    (hmax : 1 ≤ opts.maxSigbus) (hbefore : Along applyStep Fits before (opts.finish raw))
    (hin : Along (Recording.step calls) (Orderly calls) acts
      (Recording.init ι (serial before (opts.finish raw))))
    (hrun : run (Recording.step calls) acts
      (Recording.init ι (serial before (opts.finish raw))) = some s) :
    ((∀ t, s.pc t = .start ∨ s.pc t = .done) → s.mmap.poisoned = true →
      s.mmap.maxSigbus ≤ s.mmap.sigbusCount) ∧
    ((∀ t, s.pc t = .done) → ∃ order : List ι, order.Nodup ∧ (∀ t, t ∈ order) ∧
      s.mmap = serial (order.map calls) (serial before (opts.finish raw))) := by
  have hstart := serial_settled before (finish_settled opts raw hmax) hmax hbefore
  have hmax' : 1 ≤ (serial before (opts.finish raw)).maxSigbus := by
    rw [(serial_sameFixed before _).2.1]
    exact hmax
  have hinv : Consistent calls (serial before (opts.finish raw)) s :=
    run_invariant (Consistent calls _) (fun t s s' hc h hstep => h.step hmax' hc hstep) acts
      (consistent_init calls hstart) hin hrun
  refine ⟨?_, ?_⟩
  · intro hquiet hp
    have hsettled := hinv.settled hquiet
    rw [hsettled, decide_eq_true_eq] at hp
    exact hp
  · intro hdone
    exact hinv.serializable hmax' hstart hdone

/-- Two threads: the first records a fault and the second resets. -/
def recordAndReset : Fin 2 → PoisonCall
  | 0 => .record (.sigbus 0x10000)
  | 1 => .reset

/-- A mapping that poisons at the first fault. -/
def brittle : SafeMmapOptions := { SafeMmapOptions.new with maxSigbus := 1 }

/-- The reset after the record, and not across it, is one of the interleavings that
`reset_serializable` is about. -/
theorem reset_serializable_recordAndReset :
    ∃ s, run (Recording.step recordAndReset) [0, 0, 1, 1]
        (Recording.init (Fin 2) (serial [] (brittle.finish ⟨0x10000, 4096, false⟩))) = some s ∧
      ∃ order : List (Fin 2), order.Nodup ∧ (∀ t, t ∈ order) ∧ s.mmap =
        serial (order.map recordAndReset) (serial [] (brittle.finish ⟨0x10000, 4096, false⟩)) := by
  refine ⟨_, rfl, ?_⟩
  refine (reset_serializable brittle ⟨0x10000, 4096, false⟩ [] recordAndReset [0, 0, 1, 1] _
    (by decide) trivial ?_ rfl).2 (by decide)
  refine ⟨⟨fun _ _ => by decide, nofun⟩, fun s hs => ?_⟩
  cases hs
  refine ⟨⟨nofun, nofun⟩, fun s hs => ?_⟩
  cases hs
  refine ⟨⟨nofun, nofun⟩, fun s hs => ?_⟩
  cases hs
  exact ⟨⟨nofun, fun _ => by decide⟩, fun _ _ => trivial⟩

/-- A record reaches the threshold, a reset runs, and then the record sets the flag: the
mapping is poisoned with a counter of zero, which no order of the two calls gives. -/
theorem record_across_reset :
    ∃ s, run (Recording.step recordAndReset) [0, 1, 1, 0]
        (Recording.init (Fin 2) (brittle.finish ⟨0x10000, 4096, false⟩)) = some s ∧
      (∀ t, s.pc t = .done) ∧ s.mmap.poisoned = true ∧ s.mmap.sigbusCount = 0 ∧
      ¬ ∃ order : List (Fin 2), order.Nodup ∧ (∀ t, t ∈ order) ∧ s.mmap =
        serial (order.map recordAndReset) (brittle.finish ⟨0x10000, 4096, false⟩) := by
  refine ⟨_, rfl, by decide, rfl, rfl, ?_⟩
  rintro ⟨order, hnodup, -, hserial⟩
  have hlength : order.length ≤ 2 := by
    simpa using List.Nodup.length_le_card hnodup
  -- one after the other, the calls leave a poisoned mapping at the threshold
  have hsettled : Settled (serial (order.map recordAndReset)
      (brittle.finish ⟨0x10000, 4096, false⟩)) := by
    refine serial_settled _ (finish_settled brittle _ (by decide)) (by decide) ?_
    refine fits_of_length _ ?_
    have hzero : (brittle.finish ⟨0x10000, 4096, false⟩).sigbusCount.toNat = 0 := rfl
    rw [List.length_map]
    omega
  rw [← hserial] at hsettled
  exact absurd hsettled (by decide)

end MmapShield.Analysis
