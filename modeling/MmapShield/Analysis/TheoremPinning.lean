import MmapShield.Analysis.TheoremRounding
import MmapShield.Computation.Machine
import MmapShield.Model.Pinning

/-!
# What is locked into memory

`lock_range` and `unlock_range` take bytes, and the kernel locks pages. A page is locked as long as
its mapping lives and nothing has unlocked a byte of it since the last call that locked one; two
ranges that meet in a page share it. A call that fails may lock pages too, and they need not be in
memory. The pages of two mappings are apart, so no mapping unlocks a page of another one, and the
address space that a mapping leaves behind is not locked.

`Change` is what a step does. The bit of one page of one mapping is then set, cleared or left alone
by each step, and `run_bit` says the rest.
-/

set_option autoImplicit false

namespace MmapShield.Analysis.Pins

open MmapShield.Computation MmapShield.Model MmapShield.Analysis

variable {ι : Type}

/-- The page holds a byte of the range of the mapping; the empty range after the first byte of a
page counts as if it held one. -/
def Meets (raw : RawMmap) (page offset len : Usize) (p : ℕ) : Prop :=
  (raw.ptr.toNat + offset.toNat) / page.toNat ≤ p ∧
    p * page.toNat < raw.ptr.toNat + offset.toNat + len.toNat

/-- The call locks the page of the mapping `i`: a page of its range that the kernel comes to, which
are all of them when the call succeeds. -/
def Locks (mmaps : ι → SafeMmap) (page : Usize) (i : ι) (p : ℕ) : PinAct ι → Prop
  | .lockRange j kernel offset len =>
    j = i ∧ offset.toNat + len.toNat ≤ (mmaps j).raw.len.toNat ∧
      Meets (mmaps j).raw page offset len p ∧
      kernel.reaches (.mlock ((mmaps j).raw.ptr + offset) len) p = true
  | .lock j kernel =>
    j = i ∧ Meets (mmaps j).raw page 0 (mmaps j).raw.len p ∧
      kernel.reaches (.mlock (mmaps j).raw.ptr (mmaps j).raw.len) p = true
  | _ => False

/-- The call succeeds, and locks the page of the mapping `i`. -/
def Wires (mmaps : ι → SafeMmap) (page : Usize) (i : ι) (p : ℕ) : PinAct ι → Prop
  | .lockRange j kernel offset len =>
    j = i ∧ ((mmaps j).lockRange kernel.toRangeKernel offset len).result = .ok () ∧
      Meets (mmaps j).raw page offset len p
  | .lock j kernel =>
    j = i ∧ ((mmaps j).raw.lock kernel.toRangeKernel).result = .ok () ∧
      Meets (mmaps j).raw page 0 (mmaps j).raw.len p
  | _ => False

/-- The call unlocks the page of the mapping `i`. -/
def Unlocks (mmaps : ι → SafeMmap) (page : Usize) (i : ι) (p : ℕ) : PinAct ι → Prop
  | .unlockRange j kernel offset len =>
    j = i ∧ offset.toNat + len.toNat ≤ (mmaps j).raw.len.toNat ∧
      Meets (mmaps j).raw page offset len p ∧
      kernel.reaches (.munlock ((mmaps j).raw.ptr + offset) len) p = true
  | .unlock j kernel =>
    j = i ∧ Meets (mmaps j).raw page 0 (mmaps j).raw.len p ∧
      kernel.reaches (.munlock (mmaps j).raw.ptr (mmaps j).raw.len) p = true
  | .drop j => j = i
  | _ => False

/-- Every mapping starts at a page and ends a page before the end of the address space. -/
structure Placed (mmaps : ι → SafeMmap) (page : Usize) (k : ℕ) : Prop where
  size : page.toNat = 2 ^ k
  base : ∀ i, page.toNat ∣ (mmaps i).raw.ptr.toNat
  room : ∀ i, (mmaps i).raw.ptr.toNat + (mmaps i).raw.len.toNat + 2 ^ k < 2 ^ 64

/-! ## Ranges and pages -/

section Ranges

variable {raw other : RawMmap} {page offset len : Usize} {p : ℕ}

/-- INTERNAL: a range inside the mapping, as the kernel gets it.
SOURCE: mmap/mod.rs:908-954 -/
theorem spans_range (hspace : raw.ptr.toNat + raw.len.toNat < 2 ^ 64)
    (hin : offset.toNat + len.toNat ≤ raw.len.toNat) :
    spans page (raw.ptr + offset) len p = true ↔ Meets raw page offset len p := by
  unfold spans Meets
  rw [decide_eq_true_iff, toNat_add_of_fits (by omega)]

/-- INTERNAL: a call on the whole mapping covers the pages that the mapping meets. -/
theorem spans_whole : spans page raw.ptr raw.len p = true ↔ Meets raw page 0 raw.len p := by
  unfold spans Meets
  rw [decide_eq_true_iff, show (0 : Usize).toNat = 0 from rfl, Nat.add_zero]

/-- INTERNAL: the pages of a range are pages of the mapping. -/
theorem Meets.inside (h : Meets raw page offset len p)
    (hin : offset.toNat + len.toNat ≤ raw.len.toNat) : raw.hasPage page p = true := by
  obtain ⟨hfirst, hlast⟩ := h
  unfold RawMmap.hasPage spans
  rw [decide_eq_true_iff]
  refine ⟨(Nat.div_le_div_right (Nat.le_add_right _ _)).trans hfirst, ?_⟩
  omega

/-- INTERNAL: a page belongs to one mapping only. -/
theorem page_apart (hbase : page.toNat ∣ raw.ptr.toNat)
    (hbase' : page.toNat ∣ other.ptr.toNat) (hapart : raw.apart other = true)
    (h : raw.hasPage page p = true) (h' : other.hasPage page p = true) : False := by
  have hbelow {a b : RawMmap} (hdvd : page.toNat ∣ b.ptr.toNat)
      (hle : a.ptr.toNat + a.len.toNat ≤ b.ptr.toNat) (ha : a.hasPage page p = true)
      (hb : b.hasPage page p = true) : False := by
    unfold RawMmap.hasPage spans at ha hb
    rw [decide_eq_true_iff] at ha hb
    have hstart : b.ptr.toNat / page.toNat * page.toNat = b.ptr.toNat := Nat.div_mul_cancel hdvd
    have hfirst := Nat.mul_le_mul_right page.toNat hb.1
    omega
  unfold RawMmap.apart at hapart
  rw [decide_eq_true_iff] at hapart
  rcases hapart with hle | hle
  · exact hbelow hbase' hle h h'
  · exact hbelow hbase hle h' h

/-- INTERNAL: an operation on a range makes its call exactly when the range is inside the mapping.
SOURCE: mmap/mod.rs:908-954 -/
theorem rangeCall_cases {kernel : RangeKernel} {message : String} {call : RangeCall} :
    offset.toNat + len.toNat ≤ raw.len.toNat ∧
        (raw.rangeCall kernel message offset len call).calls = [call] ∨
      ¬ offset.toNat + len.toNat ≤ raw.len.toNat ∧
        (raw.rangeCall kernel message offset len call).calls = [] := by
  cases hexceeds : raw.exceeds offset len with
  | false =>
    exact Or.inl ⟨RawMmap.exceeds_eq_false_iff.mp hexceeds, RawMmap.rangeCall_calls hexceeds _ _ _⟩
  | true =>
    refine Or.inr ⟨Nat.not_le_of_lt (RawMmap.exceeds_eq_true_iff.mp hexceeds), ?_⟩
    unfold RawMmap.rangeCall
    rw [hexceeds, if_pos rfl]

/-- INTERNAL: an operation on a range that succeeded was inside the mapping, and the kernel has not
refused its call.
SOURCE: mmap/mod.rs:908-954 -/
theorem rangeCall_ok {kernel : RangeKernel} {message : String} {call : RangeCall}
    (h : (raw.rangeCall kernel message offset len call).result = .ok ()) :
    offset.toNat + len.toNat ≤ raw.len.toNat ∧ kernel.errno call = none := by
  unfold RawMmap.rangeCall at h
  split at h
  · cases h
  · rename_i hin
    rw [Bool.not_eq_true] at hin
    refine ⟨RawMmap.exceeds_eq_false_iff.mp hin, ?_⟩
    cases herrno : kernel.errno call with
    | none => rfl
    | some errno =>
      rw [herrno] at h
      cases h

/-- INTERNAL: an operation on the whole mapping makes its call.
SOURCE: sys/mmap.rs:558-577 -/
theorem wholeCall_calls (kernel : RangeKernel) (call : RangeCall) :
    (RawMmap.wholeCall kernel call).calls = [call] := by
  unfold RawMmap.wholeCall
  split <;> rfl

/-- INTERNAL: one that succeeded was not refused.
SOURCE: sys/mmap.rs:558-577 -/
theorem wholeCall_ok {kernel : RangeKernel} {call : RangeCall}
    (h : (RawMmap.wholeCall kernel call).result = .ok ()) : kernel.errno call = none := by
  unfold RawMmap.wholeCall at h
  cases herrno : kernel.errno call with
  | none => rfl
  | some errno =>
    rw [herrno] at h
    cases h

end Ranges

/-! ## What a step does -/

section Steps

variable [DecidableEq ι] {mmaps : ι → SafeMmap} {page : Usize} {k : ℕ} {s s' : Pinning ι}

/-- The action changes no lock. -/
def Neutral (mmaps : ι → SafeMmap) (page : Usize) (act : PinAct ι) : Prop :=
  ∀ i p, ¬ Locks mmaps page i p act ∧ ¬ Unlocks mmaps page i p act ∧ ¬ Wires mmaps page i p act

/-- **What a step is**: a mapping comes or goes, some pages of a mapping are locked, and some of
them brought into memory, or unlocked, or no lock changes and locked pages stay in memory. -/
inductive Change (mmaps : ι → SafeMmap) (page : Usize) (s s' : Pinning ι) (act : PinAct ι) : Prop
  | map (i : ι) (hnew : i ∉ s.live)
      (hapart : ∀ j ∈ s.live, (mmaps i).raw.apart (mmaps j).raw = true)
      (hneutral : Neutral mmaps page act) (heq : s' = { s with live := i :: s.live })
  | drop (i : ι) (hlive : i ∈ s.live) (hact : act = .drop i)
      (heq : s' = { s with
        live := s.live.filter fun j => j != i
        locked := fun p => !(mmaps i).raw.hasPage page p && s.locked p })
  | lock (i : ι) (pages wired : ℕ → Bool) (hlive : i ∈ s.live)
      (hinside : ∀ p, pages p = true → (mmaps i).raw.hasPage page p = true)
      (hlocks : ∀ j p, Locks mmaps page j p act ↔ i = j ∧ pages p = true)
      (hwires : ∀ j p, Wires mmaps page j p act → i = j ∧ pages p = true ∧ wired p = true)
      (hunlocks : ∀ j p, ¬ Unlocks mmaps page j p act)
      (heq : s' = { s with
        locked := fun p => pages p || s.locked p
        resident := fun p => wired p || s.resident p })
  | unlock (i : ι) (pages : ℕ → Bool) (hlive : i ∈ s.live)
      (hinside : ∀ p, pages p = true → (mmaps i).raw.hasPage page p = true)
      (hlocks : ∀ j p, ¬ Locks mmaps page j p act ∧ ¬ Wires mmaps page j p act)
      (hunlocks : ∀ j p, Unlocks mmaps page j p act ↔ i = j ∧ pages p = true)
      (heq : s' = { s with locked := fun p => !pages p && s.locked p })
  | quiet (resident : ℕ → Bool) (hneutral : Neutral mmaps page act)
      (hkept : ∀ p, s.locked p = true → s.resident p = true → resident p = true)
      (heq : s' = { s with resident := resident })

/-- INTERNAL: an operation on a live mapping makes its calls. -/
theorem issue_cases {ρ : Type} {kernel : PageKernel} {i : ι} {o : RangeOutcome ρ}
    (h : s.issue page kernel i o = some s') :
    i ∈ s.live ∧ s' = o.calls.foldl (Pinning.effect page kernel) s := by
  unfold Pinning.issue at h
  split at h
  · rename_i hguard
    cases h
    exact ⟨hguard.1, rfl⟩
  · cases h

/-- INTERNAL: an operation whose calls change no lock. -/
theorem issue_quiet {ρ : Type} {kernel : PageKernel} {act : PinAct ι} {i : ι}
    {o : RangeOutcome ρ} (hneutral : Neutral mmaps page act)
    (hcalls : o.calls.foldl (Pinning.effect page kernel) s = s)
    (h : s.issue page kernel i o = some s') : Change mmaps page s s' act :=
  .quiet s.resident hneutral (fun _ _ hp => hp) ((issue_cases h).2.trans hcalls)

/-- INTERNAL: an operation that locks pages of a range, if that is inside the mapping. -/
theorem lock_change {kernel : PageKernel} {act : PinAct ι} {i : ι} {o : RangeOutcome Unit}
    {ptr len : Usize} {inside : Prop}
    (hcalls : inside ∧ o.calls = [.mlock ptr len] ∨ ¬ inside ∧ o.calls = [])
    (hinside : inside → ∀ p, spans page ptr len p = true → (mmaps i).raw.hasPage page p = true)
    (hlocks : ∀ j p, Locks mmaps page j p act ↔
      i = j ∧ inside ∧ spans page ptr len p = true ∧ kernel.reaches (.mlock ptr len) p = true)
    (hwires : ∀ j p, Wires mmaps page j p act →
      i = j ∧ inside ∧ spans page ptr len p = true ∧ kernel.errno (.mlock ptr len) = none)
    (hunlocks : ∀ j p, ¬ Unlocks mmaps page j p act)
    (h : s.issue page kernel i o = some s') : Change mmaps page s s' act := by
  obtain ⟨hlive, heq⟩ := issue_cases h
  rcases hcalls with ⟨hin, hcalls⟩ | ⟨hout, hcalls⟩
  · refine .lock i (fun p => spans page ptr len p && kernel.reaches (.mlock ptr len) p)
      (fun p => spans page ptr len p && (kernel.errno (.mlock ptr len)).isNone) hlive ?_ ?_ ?_
      hunlocks ?_
    · intro p hp
      exact hinside hin p (Bool.and_eq_true_iff.mp hp).1
    · intro j p
      rw [hlocks, and_iff_right hin, Bool.and_eq_true]
    · intro j p hw
      obtain ⟨hj, -, hspans, herrno⟩ := hwires j p hw
      simp [hj, hspans, herrno, PageKernel.reaches]
    · rw [heq, hcalls]
      rfl
  · refine .quiet s.resident (fun j p => ⟨?_, hunlocks j p, ?_⟩) (fun _ _ hp => hp) ?_
    · rw [hlocks]
      rintro ⟨-, hin, -⟩
      exact hout hin
    · exact fun hw => hout (hwires j p hw).2.1
    · rw [heq, hcalls]
      rfl

/-- INTERNAL: an operation that unlocks pages of a range, if that is inside the mapping. -/
theorem unlock_change {kernel : PageKernel} {act : PinAct ι} {i : ι} {o : RangeOutcome Unit}
    {ptr len : Usize} {inside : Prop}
    (hcalls : inside ∧ o.calls = [.munlock ptr len] ∨ ¬ inside ∧ o.calls = [])
    (hinside : inside → ∀ p, spans page ptr len p = true → (mmaps i).raw.hasPage page p = true)
    (hlocks : ∀ j p, ¬ Locks mmaps page j p act ∧ ¬ Wires mmaps page j p act)
    (hunlocks : ∀ j p, Unlocks mmaps page j p act ↔
      i = j ∧ inside ∧ spans page ptr len p = true ∧ kernel.reaches (.munlock ptr len) p = true)
    (h : s.issue page kernel i o = some s') : Change mmaps page s s' act := by
  obtain ⟨hlive, heq⟩ := issue_cases h
  rcases hcalls with ⟨hin, hcalls⟩ | ⟨hout, hcalls⟩
  · refine .unlock i (fun p => spans page ptr len p && kernel.reaches (.munlock ptr len) p) hlive
      ?_ hlocks ?_ ?_
    · intro p hp
      exact hinside hin p (Bool.and_eq_true_iff.mp hp).1
    · intro j p
      rw [hunlocks, and_iff_right hin, Bool.and_eq_true]
    · rw [heq, hcalls]
      rfl
  · refine .quiet s.resident (fun j p => ⟨(hlocks j p).1, ?_, (hlocks j p).2⟩)
      (fun _ _ hp => hp) ?_
    · rw [hunlocks]
      rintro ⟨-, hin, -⟩
      exact hout hin
    · rw [heq, hcalls]
      rfl

/-- INTERNAL: **what a step can be.**
SOURCE: mmap/mod.rs:646-648, 709-711, 733-735, 869-871, 908-954, sys/mmap.rs:558-589 -/
theorem step_change (hplaced : Placed mmaps page k) {act : PinAct ι}
    (h : Pinning.step mmaps page act s = some s') : Change mmaps page s s' act := by
  have hspace (i : ι) : (mmaps i).raw.ptr.toNat + (mmaps i).raw.len.toNat < 2 ^ 64 :=
    Nat.lt_of_le_of_lt (Nat.le_add_right _ _) (hplaced.room i)
  -- the range that the kernel gets is the range of the caller
  have hrange {i : ι} {offset len : Usize} {reached : Prop} (p : ℕ) :
      offset.toNat + len.toNat ≤ (mmaps i).raw.len.toNat ∧
          Meets (mmaps i).raw page offset len p ∧ reached ↔
        offset.toNat + len.toNat ≤ (mmaps i).raw.len.toNat ∧
          spans page ((mmaps i).raw.ptr + offset) len p = true ∧ reached :=
    and_congr_right fun hin => and_congr_left fun _ => (spans_range (hspace i) hin).symm
  have hinside {i : ι} {offset len : Usize}
      (hin : offset.toNat + len.toNat ≤ (mmaps i).raw.len.toNat) (p : ℕ)
      (hp : spans page ((mmaps i).raw.ptr + offset) len p = true) :
      (mmaps i).raw.hasPage page p = true :=
    ((spans_range (hspace i) hin).mp hp).inside hin
  cases act with
  | map i =>
    simp only [Pinning.step] at h
    split at h
    · rename_i hfree
      cases h
      exact .map i hfree.1 (List.all_eq_true.mp hfree.2) (fun _ _ => ⟨id, id, id⟩) rfl
    · cases h
  | drop i =>
    simp only [Pinning.step] at h
    split at h
    · rename_i hlive
      cases h
      exact .drop i hlive rfl rfl
    · cases h
  | lockRange i kernel offset len =>
    refine lock_change rangeCall_cases hinside (fun j p => and_congr_right fun _ => hrange p) ?_
      (fun _ _ => id) h
    rintro j p ⟨hj, hok, hmeets⟩
    obtain ⟨hin, herrno⟩ := rangeCall_ok hok
    exact ⟨hj, hin, (spans_range (hspace i) hin).mpr hmeets, herrno⟩
  | unlockRange i kernel offset len =>
    exact unlock_change rangeCall_cases hinside (fun _ _ => ⟨id, id⟩)
      (fun j p => and_congr_right fun _ => hrange p) h
  | lock i kernel =>
    refine lock_change (Or.inl ⟨trivial, wholeCall_calls _ _⟩) (fun _ _ => id) (fun j p => ?_) ?_
      (fun _ _ => id) h
    · rw [true_and, spans_whole]
      exact Iff.rfl
    · rintro j p ⟨hj, hok, hmeets⟩
      exact ⟨hj, trivial, spans_whole.mpr hmeets, wholeCall_ok hok⟩
  | unlock i kernel =>
    refine unlock_change (Or.inl ⟨trivial, wholeCall_calls _ _⟩) (fun _ _ => id)
      (fun _ _ => ⟨id, id⟩) (fun j p => ?_) h
    rw [true_and, spans_whole]
    exact Iff.rfl
  | adviseRange i kernel advice offset len =>
    refine issue_quiet (fun _ _ => ⟨id, id, id⟩) ?_ h
    unfold SafeMmap.adviseRange RawMmap.adviseRange RawMmap.rangeCall
    split
    · rfl
    · split <;> rfl
  | residentPages i kernel offset len =>
    refine issue_quiet (fun _ _ => ⟨id, id, id⟩) ?_ h
    unfold SafeMmap.residentPages RawMmap.mincore
    split
    · rfl
    · dsimp only
      split <;> rfl
  | paging p resident =>
    simp only [Pinning.step] at h
    split at h
    · cases h
    · rename_i hfree
      cases h
      refine .quiet _ (fun _ _ => ⟨id, id, id⟩) (fun q hq hresident => ?_) rfl
      by_cases hqp : q = p
      · subst hqp
        rw [Function.update_self]
        rw [hq, Bool.true_and, Bool.not_eq_true, Bool.not_eq_false'] at hfree
        exact hfree
      · rw [Function.update_of_ne hqp]
        exact hresident

end Steps

/-! ## The runs -/

section Runs

variable [DecidableEq ι] {mmaps : ι → SafeMmap} {page : Usize} {k : ℕ} {s s' : Pinning ι}

/-- The live mappings are apart, and the locked pages belong to them. -/
structure Pinned (mmaps : ι → SafeMmap) (page : Usize) (s : Pinning ι) : Prop where
  apart : ∀ i ∈ s.live, ∀ j ∈ s.live, i ≠ j → (mmaps i).raw.apart (mmaps j).raw = true
  owned : ∀ p, s.locked p = true → ∃ i ∈ s.live, (mmaps i).raw.hasPage page p = true

/-- INTERNAL: two mappings are apart in either order. -/
theorem apart_symm {raw other : RawMmap} (h : raw.apart other = true) : other.apart raw = true := by
  unfold RawMmap.apart at h ⊢
  rw [decide_eq_true_iff] at h ⊢
  exact h.symm

/-- INTERNAL: a page of a live mapping is not one of another live mapping. -/
theorem Pinned.only (h : Pinned mmaps page s) (hplaced : Placed mmaps page k) {i j : ι} {p : ℕ}
    (hi : i ∈ s.live) (hj : j ∈ s.live) (hpi : (mmaps i).raw.hasPage page p = true)
    (hpj : (mmaps j).raw.hasPage page p = true) : i = j := by
  by_contra hne
  exact page_apart (hplaced.base i) (hplaced.base j) (h.apart i hi j hj hne) hpi hpj

/-- INTERNAL: **every step keeps the invariant.** -/
theorem Pinned.step (h : Pinned mmaps page s) {act : PinAct ι}
    (hchange : Change mmaps page s s' act) : Pinned mmaps page s' := by
  cases hchange with
  | map i hnew hapart hneutral heq =>
    subst heq
    refine ⟨?_, ?_⟩
    · intro a ha b hb hne
      rcases List.mem_cons.mp ha with rfl | hold
      · rcases List.mem_cons.mp hb with rfl | hold'
        · exact absurd rfl hne
        · exact hapart b hold'
      · rcases List.mem_cons.mp hb with rfl | hold'
        · exact apart_symm (hapart a hold)
        · exact h.apart a hold b hold' hne
    · intro p hp
      obtain ⟨j, hj, hpage⟩ := h.owned p hp
      exact ⟨j, List.mem_cons_of_mem i hj, hpage⟩
  | drop i hlive hact heq =>
    subst heq
    have hmem {j : ι} (hj : j ∈ s.live.filter fun j => j != i) : j ∈ s.live ∧ j ≠ i := by
      simpa using hj
    refine ⟨fun a ha b hb => h.apart a (hmem ha).1 b (hmem hb).1, ?_⟩
    intro p hp
    simp only [Bool.and_eq_true, Bool.not_eq_true'] at hp
    obtain ⟨j, hj, hpage⟩ := h.owned p hp.2
    have hne : j ≠ i := by
      rintro rfl
      rw [hpage] at hp
      cases hp.1
    exact ⟨j, by simpa using ⟨hj, hne⟩, hpage⟩
  | lock i pages wired hlive hinside hlocks hwires hunlocks heq =>
    subst heq
    refine ⟨h.apart, ?_⟩
    intro p hp
    rcases Bool.or_eq_true_iff.mp hp with hpages | hbefore
    · exact ⟨i, hlive, hinside p hpages⟩
    · exact h.owned p hbefore
  | unlock i pages hlive hinside hlocks hunlocks heq =>
    subst heq
    exact ⟨h.apart, fun p hp => h.owned p (Bool.and_eq_true_iff.mp hp).2⟩
  | quiet resident hneutral hkept heq =>
    subst heq
    exact ⟨h.apart, h.owned⟩

/-- INTERNAL: a locked page that is in memory stays there. -/
theorem Change.kept {act : PinAct ι} (hchange : Change mmaps page s s' act) {p : ℕ}
    (hlocked : s.locked p = true) (hresident : s.resident p = true) : s'.resident p = true := by
  cases hchange with
  | map i hnew hapart hneutral heq =>
    subst heq
    exact hresident
  | drop i hlive hact heq =>
    subst heq
    exact hresident
  | lock i pages wired hlive hinside hlocks hwires hunlocks heq =>
    subst heq
    exact Bool.or_eq_true_iff.mpr (Or.inr hresident)
  | unlock i pages hlive hinside hlocks hunlocks heq =>
    subst heq
    exact hresident
  | quiet resident hneutral hkept heq =>
    subst heq
    exact hkept p hlocked hresident

/-- INTERNAL: a call that succeeds locks its pages and brings them into memory.
SOURCE: mmap/mod.rs:908-927, sys/mmap.rs:558-566 -/
theorem Change.wired {act : PinAct ι} (hchange : Change mmaps page s s' act) {i : ι} {p : ℕ}
    (hwires : Wires mmaps page i p act) :
    Locks mmaps page i p act ∧ s'.resident p = true := by
  cases hchange with
  | map j hnew hapart hneutral heq => exact absurd hwires (hneutral i p).2.2
  | drop j hlive hact heq =>
    subst hact
    exact hwires.elim
  | lock j pages wired hlive hinside hlocks hwires' hunlocks heq =>
    subst heq
    obtain ⟨hi, hpages, hwired⟩ := hwires' i p hwires
    exact ⟨(hlocks i p).mpr ⟨hi, hpages⟩, Bool.or_eq_true_iff.mpr (Or.inl hwired)⟩
  | unlock j pages hlive hinside hlocks hunlocks heq => exact absurd hwires (hlocks i p).2
  | quiet resident hneutral hkept heq => exact absurd hwires (hneutral i p).2.2

/-- INTERNAL: **the bit of one page of one mapping**, across a step. -/
theorem Pinned.bit (h : Pinned mmaps page s) (hplaced : Placed mmaps page k) {act : PinAct ι}
    (hchange : Change mmaps page s s' act) (i : ι) (p : ℕ)
    (hpage : (mmaps i).raw.hasPage page p = true) :
    (i ∈ s'.live ∧ s'.locked p = true) ↔
      Locks mmaps page i p act ∨ (i ∈ s.live ∧ s.locked p = true) ∧
        ¬ Unlocks mmaps page i p act := by
  -- an action that neither locks nor unlocks the page
  have hneither {live live' locked locked' : Prop} (hlocks : ¬ Locks mmaps page i p act)
      (hunlocks : ¬ Unlocks mmaps page i p act) (hsame : live' ∧ locked' ↔ live ∧ locked) :
      (live' ∧ locked') ↔ Locks mmaps page i p act ∨ (live ∧ locked) ∧
        ¬ Unlocks mmaps page i p act := by
    rw [or_iff_right hlocks, and_iff_left hunlocks]
    exact hsame
  cases hchange with
  | map j hnew hapart hneutral heq =>
    subst heq
    refine hneither (hneutral i p).1 (hneutral i p).2.1 ?_
    refine and_congr_left fun hlocked => ⟨fun hlive => ?_, List.mem_cons_of_mem j⟩
    rcases List.mem_cons.mp hlive with rfl | hold
    · obtain ⟨a, ha, hpa⟩ := h.owned p hlocked
      exact absurd hpa (page_apart (hplaced.base i) (hplaced.base a) (hapart a ha) hpage)
    · exact hold
  | drop j hlive hact heq =>
    subst heq hact
    have hlocks : ¬ Locks mmaps page i p (.drop j) := id
    rw [or_iff_right hlocks]
    have hmem : i ∈ s.live.filter (fun j' => j' != j) ↔ i ∈ s.live ∧ i ≠ j := by simp
    have hunlocks : Unlocks mmaps page i p (.drop j) ↔ j = i := Iff.rfl
    simp only [hmem, hunlocks, Bool.and_eq_true, Bool.not_eq_true']
    constructor
    · rintro ⟨⟨hi, hne⟩, -, hlocked⟩
      exact ⟨⟨hi, hlocked⟩, fun heq => hne heq.symm⟩
    · rintro ⟨⟨hi, hlocked⟩, hne⟩
      refine ⟨⟨hi, fun heq => hne heq.symm⟩, ?_, hlocked⟩
      cases hpj : (mmaps j).raw.hasPage page p with
      | false => rfl
      | true => exact absurd (h.only hplaced hlive hi hpj hpage) hne
  | lock j pages wired hlive hinside hlocks hwires hunlocks heq =>
    subst heq
    rw [hlocks, and_iff_left (hunlocks i p)]
    simp only [Bool.or_eq_true]
    constructor
    · rintro ⟨hi, hpages | hlocked⟩
      · exact Or.inl ⟨h.only hplaced hlive hi (hinside p hpages) hpage, hpages⟩
      · exact Or.inr ⟨hi, hlocked⟩
    · rintro (⟨rfl, hpages⟩ | ⟨hi, hlocked⟩)
      · exact ⟨hlive, Or.inl hpages⟩
      · exact ⟨hi, Or.inr hlocked⟩
  | unlock j pages hlive hinside hlocks hunlocks heq =>
    subst heq
    rw [or_iff_right (hlocks i p).1, hunlocks]
    simp only [Bool.and_eq_true, Bool.not_eq_true']
    constructor
    · rintro ⟨hi, hpages, hlocked⟩
      refine ⟨⟨hi, hlocked⟩, ?_⟩
      rintro ⟨-, hpages'⟩
      rw [hpages] at hpages'
      cases hpages'
    · rintro ⟨⟨hi, hlocked⟩, hkeeps⟩
      refine ⟨hi, ?_, hlocked⟩
      cases hpages : pages p with
      | false => rfl
      | true => exact absurd ⟨h.only hplaced hlive hi (hinside p hpages) hpage, hpages⟩ hkeeps
  | quiet resident hneutral hkept heq =>
    subst heq
    exact hneither (hneutral i p).1 (hneutral i p).2.1 Iff.rfl

end Runs

/-! ## What the kernel answers -/

section Answers

variable {raw : RawMmap} {page offset len : Usize} {k : ℕ} {s : Pinning ι} {kernel : RangeKernel}

/-- INTERNAL: the page of an offset, and the pointer that the kernel gets for it.
SOURCE: sys/mmap.rs:447, 486, 538 -/
theorem alignedPtr_page (offset : Usize) (hsize : page.toNat = 2 ^ k)
    (hbase : page.toNat ∣ raw.ptr.toNat) (hspace : raw.ptr.toNat + offset.toNat < 2 ^ 64) :
    (raw.ptr + alignedOffset page offset).toNat =
        raw.ptr.toNat + roundDown page.toNat offset.toNat ∧
      (raw.ptr + alignedOffset page offset).toNat / page.toNat =
        (raw.ptr.toNat + offset.toNat) / page.toNat := by
  have hle := roundDown_le page.toNat offset.toNat
  have hptr : (raw.ptr + alignedOffset page offset).toNat =
      raw.ptr.toNat + roundDown page.toNat offset.toNat := by
    rw [toNat_add_of_fits (by rw [alignedOffset_toNat hsize]; omega), alignedOffset_toNat hsize]
  have hpos := page_pos hsize
  obtain ⟨c, hc⟩ := hbase
  refine ⟨hptr, ?_⟩
  rw [hptr, hc, roundDown, Nat.mul_add_div hpos, Nat.mul_add_div hpos,
    Nat.mul_div_cancel_left _ hpos]

/-- INTERNAL: **what `resident_pages` returns** is what the kernel has in memory.
SOURCE: sys/mmap.rs:523-553 -/
theorem mincore_resident (hsize : page.toNat = 2 ^ k) (hbase : page.toNat ∣ raw.ptr.toNat)
    (hroom : raw.ptr.toNat + raw.len.toNat + 2 ^ k < 2 ^ 64) {bits : List Bool}
    (hok : (raw.mincore page kernel offset len).result = .ok bits)
    (hadmits : (raw.mincore page kernel offset len).calls.all (s.admits page kernel) = true) :
    bits = (List.range bits.length).map fun n =>
      s.resident ((raw.ptr.toNat + offset.toNat) / page.toNat + n) := by
  have hin : raw.exceeds offset len = false := by
    cases hexceeds : raw.exceeds offset len with
    | false => rfl
    | true =>
      unfold RawMmap.mincore at hok
      rw [hexceeds, if_pos rfl] at hok
      cases hok
  have hbounds := RawMmap.exceeds_eq_false_iff.mp hin
  have hfits : offset.toNat + len.toNat + page.toNat < 2 ^ 64 := by
    rw [hsize]
    omega
  obtain ⟨hcalls, -, hresult⟩ := mincore_inside raw hsize hfits hin kernel
  obtain ⟨-, hpage⟩ := alignedPtr_page offset hsize hbase (by omega)
  have hpages : ((alignedLen page offset len).toNat + page.toNat - 1) / page.toNat =
      (alignedLen page offset len).toNat / page.toNat := by
    rw [alignedLen_toNat hsize hfits, pages_of_size (page_pos hsize)]
  cases herrno : kernel.errno (.mincore (raw.ptr + alignedOffset page offset)
      (alignedLen page offset len) ((alignedLen page offset len).toNat / page.toNat)) with
  | some errno =>
    unfold RawMmap.mincore at hok
    rw [hin, if_neg Bool.false_ne_true, mincoreLen_eq hsize hfits, UInt64.toNat_div] at hok
    simp only [herrno] at hok
    cases hok
  | none =>
    rw [hresult herrno] at hok
    cases hok
    rw [hcalls, List.all_cons, List.all_nil, Bool.and_true, Pinning.admits, hpages,
      List.all_eq_true] at hadmits
    rw [List.length_map, List.length_range]
    refine List.map_congr_left fun n hn => ?_
    have hstatus := hadmits n hn
    rw [beq_iff_eq, hpage, page_address hsize] at hstatus
    exact hstatus

/-- INTERNAL: **`evict` spares no locked page**: the kernel refuses a range that shares a page with
a locked one.
SOURCE: mmap/mod.rs:709-711, sys/mmap.rs:436-462 -/
theorem evict_unlocked {mmap : SafeMmap} {p : ℕ} (hsize : page.toNat = 2 ^ k)
    (hbase : page.toNat ∣ mmap.raw.ptr.toNat)
    (hroom : mmap.raw.ptr.toNat + mmap.raw.len.toNat + 2 ^ k < 2 ^ 64)
    (hok : (mmap.evict page kernel offset len).result = .ok ())
    (hadmits : (mmap.evict page kernel offset len).calls.all (s.admits page kernel) = true)
    (hp : Meets mmap.raw page offset len p) : s.locked p = false := by
  obtain ⟨hbounds, -⟩ := rangeCall_ok hok
  have hfits : offset.toNat + len.toNat + page.toNat < 2 ^ 64 := by
    rw [hsize]
    omega
  obtain ⟨hptr, hpage⟩ := alignedPtr_page offset hsize hbase (by omega)
  have hlen := alignedLen_toNat hsize hfits
  have hdown := roundDown_le_roundUp (page_pos hsize) (Nat.le_add_right offset.toNat len.toNat)
  have hup := le_roundUp (page_pos hsize) (offset.toNat + len.toNat)
  have hspans : spans page (mmap.raw.ptr + alignedOffset page offset)
      (alignedLen page offset len) p = true := by
    unfold spans
    rw [decide_eq_true_iff, hpage, hptr, hlen]
    refine ⟨hp.1, hp.2.trans_le ?_⟩
    omega
  have hcalls : (mmap.evict page kernel offset len).calls = [.madvise
      (mmap.raw.ptr + alignedOffset page offset) (alignedLen page offset len) .dontNeed] :=
    RawMmap.rangeCall_calls (RawMmap.exceeds_eq_false_iff.mpr hbounds) _ _ _
  rw [hcalls, List.all_cons, List.all_nil, Bool.and_true, Pinning.admits, List.all_eq_true]
    at hadmits
  have hfree := hadmits p (List.mem_range.mpr (Nat.lt_succ_of_le ?_))
  · rw [hspans, Bool.true_and, Bool.not_eq_true'] at hfree
    exact hfree
  · rw [Nat.le_div_iff_mul_le (page_pos hsize), hptr, hlen]
    have hlast := hp.2
    omega

end Answers

/-- A kernel that refuses nothing. -/
def willing : PageKernel := ⟨⟨fun _ => none, fun _ => 1⟩, fun _ _ => false⟩

/-- The second page is locked twice, and unlocked with ten bytes near its end. -/
def sharedPage : List (PinAct Unit) :=
  [.map (), .lockRange () willing 0 5000, .lockRange () willing 4096 4096,
    .unlockRange () willing 8000 10]

/-- A call that fails, here since the file ends in the first page, leaves its pages locked, the one
that is not there too. -/
example : (run (Pinning.step
    (fun _ : Unit => SafeMmapOptions.new.finish ⟨0x10000, 12000, true⟩) 4096)
      [.map (), .lockRange () ⟨⟨fun _ => some 12, fun _ => 1⟩, fun _ _ => true⟩ 0 8192]
      (.init Unit fun _ => false)).map (fun s => (s.locked 17, s.resident 17)) =
    some (true, false) := by
  decide +kernel

end MmapShield.Analysis.Pins
