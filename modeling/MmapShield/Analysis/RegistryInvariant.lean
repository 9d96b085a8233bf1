import MmapShield.Analysis.RegistryMoves

/-!
# The invariants of the registry

Four layers, each proved over the moves of `RegistryMoves` and each using the ones
before it.

* `Locked`: the mutations are serialised. At most one thread is inside one, the two
  halves of the deferred reclamation alternate, and what the holder of the mutex has
  loaded and edited is still what is published.
* `Owned`: a thread inside `register`, `unregister` or `munmap` is the only one at its
  mapping, and the phase of the mapping says how far the thread is.
* `Published`: the published regions are the ranges of the registered mappings, each
  once.
* `Readers`: a handler that has loaded a snapshot and not scanned it holds one that was
  published then and that has the region of the mapping it is at.

`Sound` is all of them, and `reachable_sound` says that they hold after every run.
-/

set_option autoImplicit false

namespace MmapShield.Analysis

open MmapShield.Computation MmapShield.Model

variable {ι : Type} [DecidableEq ι] {v v' : View ι} {t : ι}

/-! ## The mutex -/

/-- The rotations of the registry that are ahead of its completed mutations while the
holder of the mutex is at this point. -/
def rotatedAt : MutationPc → ℕ
  | .load | .edit _ | .swap _ => 1
  | _ => 0

/-- What the holder of the mutex has in its hands. -/
def HoldsFor (r : Registry) (op : Mutation) : MutationPc → Prop
  | .edit old => old = r.published
  | .swap regions => op.edit r.snapshot = some regions
  | _ => True

/-- A thread past the lock of a mutation holds the mutex, and what it has read of the
registry is up to date. -/
def LockedAt (r : Registry) (mutex : Option ι) (t : ι) (c : Control) : Prop :=
  ∀ m op pc, c = .mutate m op pc → pc.holds = true →
    mutex = some t ∧ r.rotations = r.completed + rotatedAt pc ∧ HoldsFor r op pc

/-- The mutations are serialised. -/
structure Locked (v : View ι) : Prop where
  grace : v.registry.Inv
  free : v.mutex = none → v.registry.rotations = v.registry.completed
  threads : ∀ t, LockedAt v.registry v.mutex t (v.control t)

omit [DecidableEq ι] in
/-- INTERNAL: a thread that does not hold the mutex does not care what its holder does. -/
theorem LockedAt.other {r r' : Registry} {mutex mutex' : Option ι} {u : ι} {c : Control}
    (h : LockedAt r mutex u c) (hne : mutex ≠ some u) : LockedAt r' mutex' u c := by
  intro m op pc hc hpc
  exact absurd (h m op pc hc hpc).1 hne

omit [DecidableEq ι] in
/-- INTERNAL: a thread at a point that needs the mutex. -/
theorem LockedAt.here {r : Registry} {mutex : Option ι} {t : ι} {m : ℕ} {op : Mutation}
    {pc : MutationPc} (h : LockedAt r mutex t (.mutate m op pc)) (hpc : pc.holds = true) :
    mutex = some t ∧ r.rotations = r.completed + rotatedAt pc ∧ HoldsFor r op pc :=
  h m op pc rfl hpc

omit [DecidableEq ι] in
/-- INTERNAL: the converse of `LockedAt.here`. -/
theorem lockedAt_mutate {r : Registry} {mutex : Option ι} {t : ι} {m : ℕ} {op : Mutation}
    {pc : MutationPc} (hm : mutex = some t) (hr : r.rotations = r.completed + rotatedAt pc)
    (hh : HoldsFor r op pc) : LockedAt r mutex t (.mutate m op pc) := by
  intro m' op' pc' heq _
  cases heq
  exact ⟨hm, hr, hh⟩

omit [DecidableEq ι] in
/-- INTERNAL: outside of a mutation, and at its lock, a thread needs no mutex. -/
theorem lockedAt_of_not_holds {r : Registry} {mutex : Option ι} {t : ι} {c : Control}
    (hc : ∀ m op pc, c = .mutate m op pc → pc.holds = false) : LockedAt r mutex t c := by
  intro m op pc heq hpc
  rw [hc m op pc heq] at hpc
  cases hpc

/-- INTERNAL: a step of the holder of the mutex, whatever it does to the registry, keeps
the mutations serialised as soon as its own point is in order. -/
theorem Locked.holder (h : Locked v) {c : Control} {r : Registry} {mutex : Option ι}
    {maps : ℕ → Option Mapping} {next : ℕ} (hmutex : v.mutex = some t)
    (hgrace : r.Inv) (hfree : mutex = none → r.rotations = r.completed)
    (hc : LockedAt r mutex t c) :
    Locked ⟨r, mutex, maps, next, Function.update v.control t c⟩ where
  grace := hgrace
  free := hfree
  threads := by
    refine (Function.forall_update_iff v.control (p := fun u c => LockedAt r mutex u c)).mpr
      ⟨hc, ?_⟩
    intro u hu
    refine (h.threads u).other ?_
    rw [hmutex]
    intro heq
    exact hu (Option.some.inj heq).symm

/-- INTERNAL: a step that leaves the registry and the mutex alone. -/
theorem Locked.outside (h : Locked v) {c : Control} {maps : ℕ → Option Mapping} {next : ℕ}
    (hc : LockedAt v.registry v.mutex t c) :
    Locked ⟨v.registry, v.mutex, maps, next, Function.update v.control t c⟩ where
  grace := h.grace
  free := h.free
  threads :=
    (Function.forall_update_iff v.control
      (p := fun u c => LockedAt v.registry v.mutex u c)).mpr ⟨hc, fun u _ => h.threads u⟩

/-- INTERNAL: a thread outside of every mutation is at no point that needs the mutex. -/
theorem settled_not_holds {c : Control} (hc : settled c = true) (m : ℕ) (op : Mutation)
    (pc : MutationPc) (heq : c = .mutate m op pc) : pc.holds = false := by
  subst heq
  cases hc

/-- INTERNAL: **the mutations stay serialised.**
SOURCE: signal/registry.rs:75-127 -/
theorem Locked.move (h : Locked v) (hmove : v.Move t v') : Locked v' := by
  have hhere (m : ℕ) (op : Mutation) (pc : MutationPc) (hc : v.control t = .mutate m op pc) :
      LockedAt v.registry v.mutex t (.mutate m op pc) := hc ▸ h.threads t
  cases hmove with
  | stay => exact h
  | quiet c hold hnew hlive =>
    exact h.outside (lockedAt_of_not_holds (settled_not_holds hnew))
  | look m addr hc =>
    refine h.outside (lockedAt_of_not_holds ?_)
    intro m' op pc heq
    cases heq
  | map ptr len hc hlen hwrap hfree =>
    refine h.outside (lockedAt_of_not_holds ?_)
    intro m' op pc heq
    cases heq
    rfl
  | drop m x hc hx hlive hfree =>
    refine h.outside (lockedAt_of_not_holds ?_)
    intro m' op pc heq
    cases heq
    rfl
  | lock m op hc hfree =>
    -- the mutex is free, so no other thread is past its lock
    have hcount := h.free hfree
    refine ⟨h.grace, ?_, ?_⟩
    · intro hnone
      cases hnone
    · refine (Function.forall_update_iff v.control
        (p := fun u c => LockedAt v.registry (some t) u c)).mpr ⟨?_, ?_⟩
      · exact lockedAt_mutate rfl hcount trivial
      · intro u _
        refine (h.threads u).other ?_
        rw [hfree]
        intro heq
        cases heq
  | rotate m op hc =>
    obtain ⟨hmutex, hcount, -⟩ := (hhere m op _ hc).here rfl
    have hcount' : v.registry.rotations = v.registry.completed := hcount
    refine h.holder hmutex (h.grace.rotate hcount') ?_ ?_
    · intro hnone
      rw [hmutex] at hnone
      cases hnone
    · refine lockedAt_mutate hmutex ?_ trivial
      show v.registry.rotations + 1 = v.registry.completed + 1
      rw [hcount']
  | load m op hc =>
    obtain ⟨hmutex, hcount, -⟩ := (hhere m op _ hc).here rfl
    exact h.outside (lockedAt_mutate hmutex hcount rfl)
  | skip m op old hc he =>
    obtain ⟨hmutex, hcount, -⟩ := (hhere m op _ hc).here rfl
    have hcount' : v.registry.rotations = v.registry.completed + 1 := hcount
    refine h.holder hmutex (h.grace.skip hcount') ?_ ?_
    · intro _
      exact hcount'
    · exact lockedAt_mutate hmutex hcount' trivial
  | edit m op old regions hc he =>
    obtain ⟨hmutex, hcount, hold⟩ := (hhere m op _ hc).here rfl
    refine h.outside (lockedAt_mutate hmutex hcount ?_)
    have hold' : old = v.registry.published := hold
    rw [hold'] at he
    exact he
  | swap m op regions hc =>
    obtain ⟨hmutex, hcount, -⟩ := (hhere m op _ hc).here rfl
    have hcount' : v.registry.rotations = v.registry.completed + 1 := hcount
    refine h.holder hmutex (h.grace.publish hcount' regions) ?_ ?_
    · intro _
      exact hcount'
    · exact lockedAt_mutate hmutex hcount' trivial
  | opened m ptr len hc =>
    obtain ⟨hmutex, hcount, -⟩ := (hhere m _ _ hc).here rfl
    refine h.holder hmutex h.grace (fun _ => hcount) (lockedAt_of_not_holds ?_)
    intro m' op pc heq
    cases heq
  | dropped m ptr hc =>
    obtain ⟨hmutex, hcount, -⟩ := (hhere m _ _ hc).here rfl
    refine h.holder hmutex h.grace (fun _ => hcount) (lockedAt_of_not_holds ?_)
    intro m' op pc heq
    cases heq
  | munmap m hc =>
    refine h.outside (lockedAt_of_not_holds ?_)
    intro m' op pc heq
    cases heq

/-! ## The mappings and their threads -/

/-- The mapping that a thread is at. -/
def Control.touches : Control → Option ℕ
  | .idle => none
  | .mutate m _ _ => some m
  | .munmap m => some m
  | .protect m _ => some m

/-- The mapping that a thread opens or drops. -/
def Control.owns : Control → Option ℕ
  | .mutate m _ _ => some m
  | .munmap m => some m
  | _ => none

/-- The phase of the mapping that a thread registers or unregisters. -/
def phaseAt : Mutation → MutationPc → MapPhase
  | .register _ _, pc => if pc.before then .mapped else .registered
  | .unregister _, pc => if pc.before then .dropping else .unregistered

/-- The call is about the range of the mapping. -/
def Mutation.about (op : Mutation) (x : Mapping) : Prop :=
  match op with
  | .register start len => x.ptr = start ∧ x.len = len
  | .unregister start => x.ptr = start

/-- The phase of the mapping that a thread is at follows from the place of the thread. -/
def OwnedAt (maps : ℕ → Option Mapping) : Control → Prop
  | .idle => True
  | .mutate m op pc => ∃ x, maps m = some x ∧ Mutation.about op x ∧ x.phase = phaseAt op pc
  | .munmap m => ∃ x, maps m = some x ∧ x.phase = .unregistered
  | .protect m _ => ∃ x, maps m = some x ∧ x.phase = .live

/-- What the kernel and Rust's ownership guarantee about the mappings. -/
structure Owned (v : View ι) : Prop where
  threads : ∀ t, OwnedAt v.maps (v.control t)
  unique : ∀ t u m, Control.owns (v.control t) = some m → Control.owns (v.control u) = some m →
    t = u
  known : ∀ m x, v.maps m = some x → m < v.nextMap ∧ 0 < x.len ∧ x.ptr + x.len < 2 ^ 64
  disjoint : ∀ m m' x x', m ≠ m' → v.maps m = some x → v.maps m' = some x' →
    x.phase.isMapped = true → x'.phase.isMapped = true →
    x.ptr + x.len ≤ x'.ptr ∨ x'.ptr + x'.len ≤ x.ptr

/-- INTERNAL: only the mapping that a thread is at matters to it. -/
theorem OwnedAt.congr {maps maps' : ℕ → Option Mapping} {c : Control} (h : OwnedAt maps c)
    (hsame : ∀ m, Control.touches c = some m → maps' m = maps m) : OwnedAt maps' c := by
  cases c with
  | idle => trivial
  | mutate m op pc =>
    have hm := hsame m rfl
    simp only [OwnedAt] at h ⊢
    rw [hm]
    exact h
  | munmap m =>
    have hm := hsame m rfl
    simp only [OwnedAt] at h ⊢
    rw [hm]
    exact h
  | protect m pc =>
    have hm := hsame m rfl
    simp only [OwnedAt] at h ⊢
    rw [hm]
    exact h

/-- INTERNAL: a mapping that is being registered or unregistered is mapped, and no longer or not yet
open for accesses. -/
theorem phaseAt_mapped (op : Mutation) (pc : MutationPc) :
    phaseAt op pc ≠ .live ∧ (phaseAt op pc).isMapped = true := by
  cases op <;> cases pc <;> simp [phaseAt, MutationPc.before, MapPhase.isMapped]

/-- INTERNAL: the mapping that a thread opens or drops is mapped and not live. -/
theorem OwnedAt.not_live {maps : ℕ → Option Mapping} {c : Control} {m : ℕ} (h : OwnedAt maps c)
    (howns : Control.owns c = some m) :
    ∃ x, maps m = some x ∧ x.phase ≠ .live ∧ x.phase.isMapped = true := by
  cases c with
  | idle => cases howns
  | mutate m' op pc =>
    cases howns
    obtain ⟨x, hx, -, hphase⟩ := h
    refine ⟨x, hx, ?_⟩
    rw [hphase]
    exact phaseAt_mapped op pc
  | munmap m' =>
    cases howns
    obtain ⟨x, hx, hphase⟩ := h
    refine ⟨x, hx, ?_⟩
    rw [hphase]
    decide
  | protect m' pc => cases howns

omit [DecidableEq ι] in
/-- INTERNAL: no other thread is at a mapping that is being opened or dropped. -/
theorem Owned.alone (h : Owned v) {m : ℕ} (howns : Control.owns (v.control t) = some m)
    {u : ι} (hu : u ≠ t) : Control.touches (v.control u) ≠ some m := by
  intro htouch
  obtain ⟨x, hx, hlive, -⟩ := (h.threads t).not_live howns
  have hat := h.threads u
  cases hc : v.control u with
  | idle =>
    rw [hc] at htouch
    cases htouch
  | mutate m' op pc =>
    refine hu (h.unique u t m ?_ howns)
    rw [hc] at htouch ⊢
    exact htouch
  | munmap m' =>
    refine hu (h.unique u t m ?_ howns)
    rw [hc] at htouch ⊢
    exact htouch
  | protect m' pc =>
    rw [hc] at htouch hat
    cases htouch
    obtain ⟨y, hy, hphase⟩ := hat
    rw [hx] at hy
    cases hy
    exact hlive hphase

/-- INTERNAL: the phase of one mapping replaced. -/
theorem setPhase_self {maps : ℕ → Option Mapping} {m : ℕ} {x : Mapping} (hx : maps m = some x)
    (phase : MapPhase) : setPhase maps m phase m = some { x with phase := phase } := by
  unfold setPhase
  rw [Function.update_self, hx]
  rfl

/-- INTERNAL: the other mappings keep their phases. -/
theorem setPhase_of_ne {maps : ℕ → Option Mapping} {m m' : ℕ} (h : m' ≠ m) (phase : MapPhase) :
    setPhase maps m phase m' = maps m' :=
  Function.update_of_ne h _ _

/-- INTERNAL: what is known of a mapping after a change of phase was known before it. -/
theorem setPhase_some {maps : ℕ → Option Mapping} {m m' : ℕ} {y : Mapping} {phase : MapPhase}
    (h : setPhase maps m phase m' = some y) :
    ∃ x, maps m' = some x ∧ y.ptr = x.ptr ∧ y.len = x.len ∧
      (m' = m ∧ y.phase = phase ∨ m' ≠ m ∧ y = x) := by
  by_cases hm : m' = m
  · subst hm
    unfold setPhase at h
    rw [Function.update_self, Option.map_eq_some_iff] at h
    obtain ⟨x, hx, rfl⟩ := h
    exact ⟨x, hx, rfl, rfl, Or.inl ⟨rfl, rfl⟩⟩
  · rw [setPhase_of_ne hm] at h
    exact ⟨y, h, rfl, rfl, Or.inr ⟨hm, rfl⟩⟩

omit [DecidableEq ι] in
/-- INTERNAL: a change of phase moves no mapping, and only an `munmap` unmaps one. -/
theorem Owned.setPhase_layout (h : Owned v) {m : ℕ} {x : Mapping} (hx : v.maps m = some x)
    (hmapped : x.phase.isMapped = true) (phase : MapPhase) :
    (∀ m' y, setPhase v.maps m phase m' = some y →
      m' < v.nextMap ∧ 0 < y.len ∧ y.ptr + y.len < 2 ^ 64) ∧
    (∀ m₁ m₂ y₁ y₂, m₁ ≠ m₂ → setPhase v.maps m phase m₁ = some y₁ →
      setPhase v.maps m phase m₂ = some y₂ → y₁.phase.isMapped = true →
      y₂.phase.isMapped = true → y₁.ptr + y₁.len ≤ y₂.ptr ∨ y₂.ptr + y₂.len ≤ y₁.ptr) := by
  have hwas (m' : ℕ) (y z : Mapping) (hz : v.maps m' = some z)
      (hy : m' = m ∧ y.phase = phase ∨ m' ≠ m ∧ y = z) (hm : y.phase.isMapped = true) :
      z.phase.isMapped = true := by
    rcases hy with ⟨rfl, -⟩ | ⟨-, rfl⟩
    · rw [hx] at hz
      cases hz
      exact hmapped
    · exact hm
  refine ⟨?_, ?_⟩
  · intro m' y hy
    obtain ⟨z, hz, hptr, hlen, -⟩ := setPhase_some hy
    rw [hptr, hlen]
    exact h.known m' z hz
  · intro m₁ m₂ y₁ y₂ hne hy₁ hy₂ hm₁ hm₂
    obtain ⟨z₁, hz₁, hptr₁, hlen₁, hor₁⟩ := setPhase_some hy₁
    obtain ⟨z₂, hz₂, hptr₂, hlen₂, hor₂⟩ := setPhase_some hy₂
    rw [hptr₁, hlen₁, hptr₂, hlen₂]
    exact h.disjoint m₁ m₂ z₁ z₂ hne hz₁ hz₂ (hwas _ _ _ hz₁ hor₁ hm₁) (hwas _ _ _ hz₂ hor₂ hm₂)

/-- INTERNAL: a step of a thread that stays at its own mapping, and may replace the phase
of it, keeps the mappings owned. -/
theorem Owned.own_step (h : Owned v) {m : ℕ} {x : Mapping} {c : Control} {r : Registry}
    {mutex : Option ι} (phase : MapPhase) (hx : v.maps m = some x)
    (hmapped : x.phase.isMapped = true) (hothers : ∀ u, u ≠ t →
      Control.touches (v.control u) ≠ some m)
    (hc : OwnedAt (setPhase v.maps m phase) c)
    (howns : ∀ m', Control.owns c = some m' → m' = m) :
    Owned ⟨r, mutex, setPhase v.maps m phase, v.nextMap, Function.update v.control t c⟩ := by
  obtain ⟨hknown, hdisjoint⟩ := h.setPhase_layout hx hmapped phase
  have howner (u : ι) (hu : u ≠ t) : Control.owns (v.control u) ≠ some m := by
    intro ho
    refine hothers u hu ?_
    cases hcu : v.control u <;> rw [hcu] at ho <;> first | exact ho | cases ho
  refine ⟨?_, ?_, hknown, hdisjoint⟩
  · refine (Function.forall_update_iff v.control
      (p := fun _ c => OwnedAt (setPhase v.maps m phase) c)).mpr ⟨hc, ?_⟩
    intro u hu
    refine (h.threads u).congr ?_
    intro m' htouch
    refine setPhase_of_ne ?_ phase
    rintro rfl
    exact hothers u hu htouch
  · intro u w m' hu hw
    simp only [Function.update_apply] at hu hw
    split at hu <;> split at hw
    · rename_i h1 h2
      rw [h1, h2]
    · rename_i h1 h2
      rw [howns m' hu] at hw
      exact absurd hw (howner w h2)
    · rename_i h1 h2
      rw [howns m' hw] at hu
      exact absurd hu (howner u h1)
    · exact h.unique u w m' hu hw

/-- INTERNAL: a step that leaves the mappings alone. -/
theorem Owned.same_maps (h : Owned v) {c : Control} {r : Registry} {mutex : Option ι}
    (hc : OwnedAt v.maps c)
    (howns : ∀ m, Control.owns c = some m → Control.owns (v.control t) = some m) :
    Owned ⟨r, mutex, v.maps, v.nextMap, Function.update v.control t c⟩ := by
  refine ⟨?_, ?_, h.known, h.disjoint⟩
  · exact (Function.forall_update_iff v.control (p := fun _ c => OwnedAt v.maps c)).mpr
      ⟨hc, fun u _ => h.threads u⟩
  · intro u w m hu hw
    simp only [Function.update_apply] at hu hw
    split at hu <;> split at hw
    · rename_i h1 h2
      rw [h1, h2]
    · rename_i h1 h2
      rw [h1]
      exact h.unique t w m (howns m hu) hw
    · rename_i h1 h2
      rw [h2]
      exact h.unique u t m hu (howns m hw)
    · exact h.unique u w m hu hw

/-- INTERNAL: a new mapping has the thread that opens it as its owner. -/
theorem Owned.new_map (h : Owned v) {ptr len : ℕ} {r : Registry} {mutex : Option ι}
    (hlen : 0 < len) (hwrap : ptr + len < 2 ^ 64)
    (hfree : ∀ m x, m < v.nextMap → v.maps m = some x → x.phase.isMapped = true →
      x.ptr + x.len ≤ ptr ∨ ptr + len ≤ x.ptr) :
    Owned ⟨r, mutex, Function.update v.maps v.nextMap (some ⟨ptr, len, .mapped⟩), v.nextMap + 1,
      Function.update v.control t (.mutate v.nextMap (.register ptr len) .lock)⟩ := by
  have hnew (m : ℕ) (x : Mapping) (hx : v.maps m = some x) : m ≠ v.nextMap :=
    Nat.ne_of_lt (h.known m x hx).1
  have hkeep (m : ℕ) (hm : m ≠ v.nextMap) :
      Function.update v.maps v.nextMap (some ⟨ptr, len, .mapped⟩) m = v.maps m :=
    Function.update_of_ne hm _ _
  -- a thread is only at mappings that exist already
  have htouch (u : ι) (m : ℕ) (hm : Control.touches (v.control u) = some m) : m ≠ v.nextMap := by
    have hat := h.threads u
    cases hc : v.control u with
    | idle =>
      rw [hc] at hm
      cases hm
    | mutate m' op pc =>
      rw [hc] at hm hat
      cases hm
      obtain ⟨x, hx, -⟩ := hat
      exact hnew m x hx
    | munmap m' =>
      rw [hc] at hm hat
      cases hm
      obtain ⟨x, hx, -⟩ := hat
      exact hnew m x hx
    | protect m' pc =>
      rw [hc] at hm hat
      cases hm
      obtain ⟨x, hx, -⟩ := hat
      exact hnew m x hx
  have howns (u : ι) (m : ℕ) (hm : Control.owns (v.control u) = some m) : m ≠ v.nextMap := by
    refine htouch u m ?_
    cases hc : v.control u <;> rw [hc] at hm <;> first | exact hm | cases hm
  refine ⟨?_, ?_, ?_, ?_⟩
  · refine (Function.forall_update_iff v.control (p := fun _ c => OwnedAt
      (Function.update v.maps v.nextMap (some ⟨ptr, len, .mapped⟩)) c)).mpr ⟨?_, ?_⟩
    · exact ⟨_, Function.update_self _ _ _, ⟨rfl, rfl⟩, rfl⟩
    · intro u _
      exact (h.threads u).congr fun m hm => hkeep m (htouch u m hm)
  · intro u w m hu hw
    simp only [Function.update_apply] at hu hw
    split at hu <;> split at hw
    · rename_i h1 h2
      rw [h1, h2]
    · cases hu
      exact absurd rfl (howns w _ hw)
    · cases hw
      exact absurd rfl (howns u _ hu)
    · exact h.unique u w m hu hw
  · intro m x hx
    by_cases hm : m = v.nextMap
    · subst hm
      simp only [Function.update_self] at hx
      cases hx
      exact ⟨Nat.lt_succ_self _, hlen, hwrap⟩
    · simp only [hkeep m hm] at hx
      obtain ⟨hlt, hrest⟩ := h.known m x hx
      exact ⟨Nat.lt_succ_of_lt hlt, hrest⟩
  · intro m m' x x' hne hx hx' hmapped hmapped'
    by_cases hm : m = v.nextMap
    · subst hm
      simp only [Function.update_self] at hx
      cases hx
      simp only [hkeep m' (Ne.symm hne)] at hx'
      exact (hfree m' x' (h.known m' x' hx').1 hx' hmapped').symm
    · simp only [hkeep m hm] at hx
      by_cases hm' : m' = v.nextMap
      · subst hm'
        simp only [Function.update_self] at hx'
        cases hx'
        exact hfree m x (h.known m x hx).1 hx hmapped
      · simp only [hkeep m' hm'] at hx'
        exact h.disjoint m m' x x' hne hx hx' hmapped hmapped'

/-- INTERNAL: **the mappings stay owned.**
SOURCE: mmap/mod.rs:328-407, 1064-1068, sys/mmap.rs:580-589 -/
theorem Owned.move (h : Owned v) (hmove : v.Move t v') : Owned v' := by
  have hat (c : Control) (hc : v.control t = c) : OwnedAt v.maps c := hc ▸ h.threads t
  -- a step inside a mutation that publishes nothing yet
  have hinside (m : ℕ) (op : Mutation) (pc pc' : MutationPc) (r : Registry) (mutex : Option ι)
      (hc : v.control t = .mutate m op pc) (hpc : pc'.before = pc.before) :
      Owned ⟨r, mutex, v.maps, v.nextMap,
        Function.update v.control t (.mutate m op pc')⟩ := by
    obtain ⟨x, hx, habout, hphase⟩ := hat _ hc
    have hsame : phaseAt op pc' = phaseAt op pc := by
      cases op <;> simp only [phaseAt, hpc]
    refine h.same_maps ⟨x, hx, habout, hphase.trans hsame.symm⟩ ?_
    intro m' hm'
    rw [hc]
    exact hm'
  -- the swap of a mutation, and its early return
  have hswapped (m : ℕ) (op : Mutation) (pc : MutationPc) (r : Registry)
      (hc : v.control t = .mutate m op pc) :
      Owned ⟨r, v.mutex, setPhase v.maps m (Process.swappedPhase op), v.nextMap,
        Function.update v.control t (.mutate m op .unlock)⟩ := by
    have howns : Control.owns (v.control t) = some m := by
      rw [hc]
      rfl
    obtain ⟨x, hx, habout, hphase⟩ := hat _ hc
    refine h.own_step _ hx (hphase ▸ (phaseAt_mapped op pc).2) (fun u hu => h.alone howns hu)
      ⟨_, setPhase_self hx _, ?_, ?_⟩ ?_
    · cases op <;> exact habout
    · cases op <;> rfl
    · intro m' hm'
      cases hm'
      rfl
  cases hmove with
  | stay => exact h
  | quiet c hold hnew hlive =>
    refine h.same_maps ?_ ?_
    · cases c with
      | idle => trivial
      | protect m pc =>
        rcases hlive m pc rfl with ⟨pc', hc⟩ | hx
        · obtain ⟨x, hx⟩ := hat _ hc
          exact ⟨x, hx⟩
        · exact hx
      | mutate m op pc => cases hnew
      | munmap m => cases hnew
    · intro m hm
      cases c with
      | idle => cases hm
      | protect m pc => cases hm
      | mutate m op pc => cases hnew
      | munmap m => cases hnew
  | look m addr hc =>
    obtain ⟨x, hx⟩ := hat _ hc
    refine h.same_maps ⟨x, hx⟩ ?_
    intro m' hm'
    cases hm'
  | map ptr len hc hlen hwrap hfree => exact h.new_map hlen hwrap hfree
  | drop m x hc hx hlive hfree =>
    have hothers (u : ι) (hu : u ≠ t) : Control.touches (v.control u) ≠ some m := by
      intro htouch
      have hborrow := hfree u
      have howned := h.threads u
      cases hcu : v.control u with
      | idle =>
        rw [hcu] at htouch
        cases htouch
      | protect m' pc =>
        rw [hcu] at htouch hborrow
        cases htouch
        simp [Control.borrows] at hborrow
      | mutate m' op pc =>
        rw [hcu] at htouch howned
        obtain ⟨y, hy, hne, -⟩ := howned.not_live htouch
        rw [hx] at hy
        cases hy
        exact hne hlive
      | munmap m' =>
        rw [hcu] at htouch howned
        obtain ⟨y, hy, hne, -⟩ := howned.not_live htouch
        rw [hx] at hy
        cases hy
        exact hne hlive
    refine h.own_step _ hx (by rw [hlive]; rfl) hothers ⟨_, setPhase_self hx _, rfl, rfl⟩ ?_
    intro m' hm'
    cases hm'
    rfl
  | lock m op hc hfree => exact hinside m op _ _ _ _ hc rfl
  | rotate m op hc => exact hinside m op _ _ _ _ hc rfl
  | load m op hc => exact hinside m op _ _ _ _ hc rfl
  | skip m op old hc he => exact hswapped m op _ _ hc
  | edit m op old regions hc he => exact hinside m op _ _ _ _ hc rfl
  | swap m op regions hc => exact hswapped m op _ _ hc
  | opened m ptr len hc =>
    have howns : Control.owns (v.control t) = some m := by
      rw [hc]
      rfl
    obtain ⟨x, hx, -, hphase⟩ := hat _ hc
    refine h.own_step _ hx (by rw [hphase]; rfl) (fun u hu => h.alone howns hu) trivial ?_
    intro m' hm'
    cases hm'
  | dropped m ptr hc =>
    obtain ⟨x, hx, -, hphase⟩ := hat _ hc
    refine h.same_maps ⟨x, hx, hphase⟩ ?_
    intro m' hm'
    rw [hc]
    exact hm'
  | munmap m hc =>
    have howns : Control.owns (v.control t) = some m := by
      rw [hc]
      rfl
    obtain ⟨x, hx, hphase⟩ := hat _ hc
    refine h.own_step _ hx (by rw [hphase]; rfl) (fun u hu => h.alone howns hu) trivial ?_
    intro m' hm'
    cases hm'

/-! ## The published regions -/

/-- The region of a mapping that has registered and not yet unregistered. -/
def RegisteredIn (maps : ℕ → Option Mapping) (r : RegisteredRegion) : Prop :=
  ∃ m x, maps m = some x ∧ x.phase.isRegistered = true ∧ x.region = r

/-- The region of such a mapping other than `m`. -/
def Elsewhere (maps : ℕ → Option Mapping) (m : ℕ) (r : RegisteredRegion) : Prop :=
  ∃ m' x, m' ≠ m ∧ maps m' = some x ∧ x.phase.isRegistered = true ∧ x.region = r

/-- The published regions are those of the registered mappings, each once. -/
structure Published (v : View ι) : Prop where
  nodup : (Registry.regions v.registry).Nodup
  exact : ∀ r, r ∈ Registry.regions v.registry ↔ RegisteredIn v.maps r

/-- INTERNAL: a region is registered for one of the other mappings, or for this one. -/
theorem registeredIn_iff {maps : ℕ → Option Mapping} {m : ℕ} {x : Mapping}
    (hx : maps m = some x) (r : RegisteredRegion) :
    RegisteredIn maps r ↔
      Elsewhere maps m r ∨ x.phase.isRegistered = true ∧ x.region = r := by
  refine ⟨?_, ?_⟩
  · rintro ⟨m', y, hy, hreg, hr⟩
    by_cases hm : m' = m
    · subst hm
      rw [hx] at hy
      cases hy
      exact Or.inr ⟨hreg, hr⟩
    · exact Or.inl ⟨m', y, hm, hy, hreg, hr⟩
  · rintro (⟨m', y, -, hy, hreg, hr⟩ | ⟨hreg, hr⟩)
    · exact ⟨m', y, hy, hreg, hr⟩
    · exact ⟨m, x, hx, hreg, hr⟩

/-- INTERNAL: the registered regions after a change of phase. -/
theorem registeredIn_setPhase {maps : ℕ → Option Mapping} {m : ℕ} {x : Mapping}
    (hx : maps m = some x) (phase : MapPhase) (r : RegisteredRegion) :
    RegisteredIn (setPhase maps m phase) r ↔
      Elsewhere maps m r ∨ phase.isRegistered = true ∧ x.region = r := by
  have hself := setPhase_self hx phase
  have helse : Elsewhere (setPhase maps m phase) m r ↔ Elsewhere maps m r := by
    unfold Elsewhere
    refine exists_congr fun m' => exists_congr fun y => and_congr_right fun hm => ?_
    rw [setPhase_of_ne hm]
  rw [registeredIn_iff hself, helse]
  exact Iff.rfl

omit [DecidableEq ι] in
/-- INTERNAL: no other registered mapping starts where a mapped one does. -/
theorem Owned.elsewhere_start (h : Owned v) {m : ℕ} {x : Mapping} (hx : v.maps m = some x)
    (hmapped : x.phase.isMapped = true) {r : RegisteredRegion} (hr : Elsewhere v.maps m r) :
    r.start ≠ x.ptr := by
  obtain ⟨m', y, hne, hy, hreg, rfl⟩ := hr
  have hymapped : y.phase.isMapped = true := by
    cases hp : y.phase <;> rw [hp] at hreg <;> first | rfl | cases hreg
  have hlen := (h.known m x hx).2.1
  have hlen' := (h.known m' y hy).2.1
  have hapart := h.disjoint m' m y x hne hy hx hymapped hmapped
  show y.ptr ≠ x.ptr
  omega

/-- INTERNAL: the region that `register` pushes is the range of the mapping: its end does
not wrap. -/
theorem newRegion_eq {x : Mapping} (hwrap : x.ptr + x.len < 2 ^ 64) :
    newRegion x.ptr x.len = x.region := by
  unfold newRegion Mapping.region
  rw [Nat.mod_eq_of_lt hwrap]

omit [DecidableEq ι] in
/-- INTERNAL: an early return of `unregister` would find its own region missing, so it is
never taken.
SOURCE: signal/registry.rs:112-114 -/
theorem Published.not_skipped (h : Published v) (hl : Locked v) (ho : Owned v) {m : ℕ}
    {op : Mutation} {old : Option ℕ} (hc : v.control t = .mutate m op (.edit old))
    (he : op.edit (old.map v.registry.heap) = none) : False := by
  have hlocked := hl.threads t
  have howned := ho.threads t
  rw [hc] at hlocked howned
  have hold : old = v.registry.published := (hlocked.here rfl).2.2
  obtain ⟨x, hx, -, hphase⟩ := howned
  obtain ⟨hnone, start, rfl⟩ := edit_eq_none he
  have hregistered : RegisteredIn v.maps x.region := by
    refine ⟨m, x, hx, ?_, rfl⟩
    rw [hphase]
    rfl
  have hmem := (h.exact _).mpr hregistered
  unfold Registry.regions Grace.snapshot at hmem
  rw [← hold, hnone] at hmem
  cases hmem

omit [DecidableEq ι] in
/-- INTERNAL: the swap of `register` publishes one region more, and the swap of
`unregister` one less.
SOURCE: signal/registry.rs:87-93, 119-122 -/
theorem Published.swapped (h : Published v) (hl : Locked v) (ho : Owned v) {m : ℕ}
    {op : Mutation} {regions : List RegisteredRegion}
    (hc : v.control t = .mutate m op (.swap regions)) :
    regions.Nodup ∧
      ∀ r, r ∈ regions ↔ RegisteredIn (setPhase v.maps m (Process.swappedPhase op)) r := by
  have hlocked := hl.threads t
  have howned := ho.threads t
  rw [hc] at hlocked howned
  obtain ⟨-, -, hedit⟩ := hlocked.here rfl
  obtain ⟨x, hx, habout, hphase⟩ := howned
  have hmapped : x.phase.isMapped = true := by
    rw [hphase]
    exact (phaseAt_mapped op _).2
  have hwrap := (ho.known m x hx).2.2
  have hedited := edit_regions op v.registry
  rw [show op.edit v.registry.snapshot = some regions from hedit, Option.getD_some] at hedited
  -- no other region starts where this one does
  have hother (r : RegisteredRegion) (hr : Elsewhere v.maps m r) : r.start ≠ x.ptr :=
    ho.elsewhere_start hx hmapped hr
  cases op with
  | register start len =>
    obtain ⟨rfl, rfl⟩ := habout
    simp only [newRegion_eq hwrap] at hedited
    have hout : x.region ∉ Registry.regions v.registry := by
      rw [h.exact, registeredIn_iff hx]
      rintro (hr | ⟨hr, -⟩)
      · exact hother _ hr rfl
      · rw [hphase] at hr
        cases hr
    rw [hedited]
    refine ⟨?_, ?_⟩
    · rw [List.nodup_append]
      refine ⟨h.nodup, List.nodup_singleton _, ?_⟩
      intro a ha b hb
      rw [List.mem_singleton] at hb
      rw [hb]
      intro heq
      exact hout (heq ▸ ha)
    · intro r
      rw [List.mem_append, List.mem_singleton, h.exact, registeredIn_iff hx,
        registeredIn_setPhase hx]
      have hnot : x.phase.isRegistered = false := by
        rw [hphase]
        rfl
      have hnow : (Process.swappedPhase (.register x.ptr x.len)).isRegistered = true := rfl
      rw [hnot, hnow, eq_comm (a := r)]
      simp only [Bool.false_eq_true, false_and, or_false, true_and]
  | unregister start =>
    have hstart : x.ptr = start := habout
    subst hstart
    rw [hedited]
    refine ⟨h.nodup.filter _, ?_⟩
    intro r
    rw [List.mem_filter, h.exact, registeredIn_iff hx, registeredIn_setPhase hx]
    simp only [Process.swappedPhase, MapPhase.isRegistered, Bool.false_eq_true, false_and,
      or_false, bne_iff_ne]
    refine ⟨?_, ?_⟩
    · rintro ⟨hr | ⟨-, rfl⟩, hne⟩
      · exact hr
      · exact absurd rfl hne
    · intro hr
      exact ⟨Or.inl hr, hother r hr⟩

omit [DecidableEq ι] in
/-- INTERNAL: a change of phase that neither registers nor unregisters. -/
theorem Published.rephased (h : Published v) {m : ℕ} {x : Mapping} (hx : v.maps m = some x)
    {phase : MapPhase} (hphase : phase.isRegistered = x.phase.isRegistered)
    (r : RegisteredRegion) :
    r ∈ Registry.regions v.registry ↔ RegisteredIn (setPhase v.maps m phase) r := by
  rw [h.exact, registeredIn_iff hx, registeredIn_setPhase hx, hphase]

/-- INTERNAL: **the published regions stay exact.**
SOURCE: signal/registry.rs:75-127 -/
theorem Published.move (h : Published v) (hl : Locked v) (ho : Owned v)
    (hmove : v.Move t v') : Published v' := by
  have hat (c : Control) (hc : v.control t = c) : OwnedAt v.maps c := hc ▸ ho.threads t
  cases hmove with
  | stay => exact h
  | quiet c hold hnew hlive => exact ⟨h.nodup, h.exact⟩
  | look m addr hc => exact ⟨h.nodup, h.exact⟩
  | map ptr len hc hlen hwrap hfree =>
    refine ⟨h.nodup, ?_⟩
    intro r
    have hnone : v.maps v.nextMap = none := by
      by_contra hsome
      obtain ⟨x, hx⟩ := Option.ne_none_iff_exists'.mp hsome
      exact Nat.lt_irrefl _ (ho.known _ x hx).1
    show r ∈ Registry.regions v.registry ↔ RegisteredIn (Function.update v.maps v.nextMap _) r
    rw [h.exact, registeredIn_iff (Function.update_self v.nextMap _ v.maps)]
    unfold RegisteredIn Elsewhere
    refine ⟨?_, ?_⟩
    · rintro ⟨m, x, hx, hreg, hr⟩
      have hne : m ≠ v.nextMap := by
        rintro rfl
        rw [hnone] at hx
        cases hx
      refine Or.inl ⟨m, x, hne, ?_, hreg, hr⟩
      rw [Function.update_of_ne hne]
      exact hx
    · rintro (⟨m, x, hne, hx, hreg, hr⟩ | ⟨hreg, -⟩)
      · rw [Function.update_of_ne hne] at hx
        exact ⟨m, x, hx, hreg, hr⟩
      · cases hreg
  | drop m x hc hx hlive hfree =>
    exact ⟨h.nodup, h.rephased hx (by rw [hlive]; rfl)⟩
  | lock m op hc hfree => exact ⟨h.nodup, h.exact⟩
  | rotate m op hc => exact ⟨h.nodup, h.exact⟩
  | load m op hc => exact ⟨h.nodup, h.exact⟩
  | skip m op old hc he => exact (h.not_skipped hl ho hc he).elim
  | edit m op old regions hc he => exact ⟨h.nodup, h.exact⟩
  | swap m op regions hc =>
    obtain ⟨hnodup, hexact⟩ := h.swapped hl ho hc
    have hregions : Registry.regions (v.registry.publish regions) = regions := by
      unfold Registry.regions
      rw [publish_snapshot]
      rfl
    refine ⟨?_, ?_⟩
    · show (Registry.regions (v.registry.publish regions)).Nodup
      rw [hregions]
      exact hnodup
    · intro r
      show r ∈ Registry.regions (v.registry.publish regions) ↔ _
      rw [hregions]
      exact hexact r
  | opened m ptr len hc =>
    obtain ⟨x, hx, -, hphase⟩ := hat _ hc
    exact ⟨h.nodup, h.rephased hx (by rw [hphase]; rfl)⟩
  | dropped m ptr hc => exact ⟨h.nodup, h.exact⟩
  | munmap m hc =>
    obtain ⟨x, hx, hphase⟩ := hat _ hc
    exact ⟨h.nodup, h.rephased hx (by rw [hphase]; rfl)⟩

/-! ## The handlers -/

/-- A handler between its load and its scan has loaded a snapshot that was published when
`loadedAt` mutations were complete, and that has the region of its mapping. -/
def ReaderAt (r : Registry) (maps : ℕ → Option Mapping) (c : Control) : Prop :=
  ∀ m addr snap loadedAt, c = .protect m (.scan addr snap loadedAt) →
    ∃ x i, maps m = some x ∧ snap = some i ∧ r.Loaded i loadedAt ∧ x.region ∈ r.heap i

/-- Every handler is in order. -/
def Readers (v : View ι) : Prop := ∀ t, ReaderAt v.registry v.maps (v.control t)

/-- INTERNAL: a handler does not notice a change of the registry that keeps the snapshot it
has loaded, nor a change of phase. -/
theorem ReaderAt.keep {r r' : Registry} {maps maps' : ℕ → Option Mapping} {c : Control}
    (h : ReaderAt r maps c)
    (hloaded : ∀ i k, r.Loaded i k → r'.Loaded i k ∧ r'.heap i = r.heap i)
    (hmaps : ∀ m x, maps m = some x → ∃ y, maps' m = some y ∧ y.region = x.region) :
    ReaderAt r' maps' c := by
  intro m addr snap loadedAt hc
  obtain ⟨x, i, hx, hsnap, hi, hmem⟩ := h m addr snap loadedAt hc
  obtain ⟨y, hy, hregion⟩ := hmaps m x hx
  obtain ⟨hi', hheap⟩ := hloaded i loadedAt hi
  refine ⟨y, i, hy, hsnap, hi', ?_⟩
  rw [hheap, hregion]
  exact hmem

/-- INTERNAL: a thread outside the scan of the handler asks nothing of the registry. -/
theorem readerAt_of_not_scan {r : Registry} {maps : ℕ → Option Mapping} {c : Control}
    (hc : ∀ m addr snap loadedAt, c ≠ .protect m (.scan addr snap loadedAt)) :
    ReaderAt r maps c := by
  intro m addr snap loadedAt heq
  exact absurd heq (hc m addr snap loadedAt)

/-- INTERNAL: a change of phase leaves every mapping where it is. -/
theorem setPhase_region (maps : ℕ → Option Mapping) (m : ℕ) (phase : MapPhase) (m' : ℕ)
    (x : Mapping) (hx : maps m' = some x) :
    ∃ y, setPhase maps m phase m' = some y ∧ y.region = x.region := by
  by_cases hm : m' = m
  · subst hm
    exact ⟨_, setPhase_self hx phase, rfl⟩
  · exact ⟨x, by rw [setPhase_of_ne hm]; exact hx, rfl⟩

/-- INTERNAL: a step that leaves every loaded snapshot alone and moves its thread to a
place that is not a scan. -/
theorem Readers.others (h : Readers v) {c : Control} {r : Registry} {mutex : Option ι}
    {maps : ℕ → Option Mapping} {next : ℕ}
    (hloaded : ∀ i k, v.registry.Loaded i k → r.Loaded i k ∧ r.heap i = v.registry.heap i)
    (hmaps : ∀ m x, v.maps m = some x → ∃ y, maps m = some y ∧ y.region = x.region)
    (hc : ReaderAt r maps c) :
    Readers ⟨r, mutex, maps, next, Function.update v.control t c⟩ :=
  (Function.forall_update_iff v.control (p := fun _ c => ReaderAt r maps c)).mpr
    ⟨hc, fun u _ => (h u).keep hloaded hmaps⟩

omit [DecidableEq ι] in
/-- INTERNAL: the load of a handler finds the region of its mapping.
SOURCE: signal/registry.rs:142-148 -/
theorem Published.loads (h : Published v) (hl : Locked v) {m addr : ℕ}
    (hlive : ∃ x, v.maps m = some x ∧ x.phase = .live) :
    ReaderAt v.registry v.maps
      (.protect m (.scan addr v.registry.published v.registry.completed)) := by
  intro m' addr' snap loadedAt heq
  cases heq
  obtain ⟨x, hx, hphase⟩ := hlive
  have hmem : x.region ∈ Registry.regions v.registry := by
    rw [h.exact]
    refine ⟨m, x, hx, ?_, rfl⟩
    rw [hphase]
    rfl
  cases hp : v.registry.published with
  | none =>
    unfold Registry.regions Grace.snapshot at hmem
    rw [hp] at hmem
    cases hmem
  | some i =>
    refine ⟨x, i, hx, rfl, hl.grace.loaded hp, ?_⟩
    unfold Registry.regions Grace.snapshot at hmem
    rw [hp] at hmem
    exact hmem

/-- INTERNAL: **the handlers stay in order.**
SOURCE: signal/registry.rs:141-153 -/
theorem Readers.move (h : Readers v) (hl : Locked v) (ho : Owned v) (hp : Published v)
    (hmove : v.Move t v') : Readers v' := by
  have hsame (i k : ℕ) (hi : v.registry.Loaded i k) :
      v.registry.Loaded i k ∧ v.registry.heap i = v.registry.heap i := ⟨hi, rfl⟩
  have hmaps (m : ℕ) (x : Mapping) (hx : v.maps m = some x) :
      ∃ y, v.maps m = some y ∧ y.region = x.region := ⟨x, hx, rfl⟩
  cases hmove with
  | stay => exact h
  | quiet c hold hnew hlive =>
    refine h.others hsame hmaps (readerAt_of_not_scan ?_)
    rintro m addr snap loadedAt rfl
    cases hnew
  | look m addr hc =>
    have howned := ho.threads t
    rw [hc] at howned
    exact h.others hsame hmaps (hp.loads hl howned)
  | map ptr len hc hlen hwrap hfree =>
    refine h.others hsame ?_ (readerAt_of_not_scan (by rintro _ _ _ _ ⟨⟩))
    intro m x hx
    refine ⟨x, ?_, rfl⟩
    rw [Function.update_of_ne (Nat.ne_of_lt (ho.known m x hx).1)]
    exact hx
  | drop m x hc hx hlive hfree =>
    exact h.others hsame (setPhase_region _ _ _) (readerAt_of_not_scan (by rintro _ _ _ _ ⟨⟩))
  | lock m op hc hfree =>
    exact h.others hsame hmaps (readerAt_of_not_scan (by rintro _ _ _ _ ⟨⟩))
  | rotate m op hc =>
    refine h.others ?_ hmaps (readerAt_of_not_scan (by rintro _ _ _ _ ⟨⟩))
    intro i k hi
    exact ⟨hi.rotate, rfl⟩
  | load m op hc =>
    exact h.others hsame hmaps (readerAt_of_not_scan (by rintro _ _ _ _ ⟨⟩))
  | skip m op old hc he => exact (hp.not_skipped hl ho hc he).elim
  | edit m op old regions hc he =>
    exact h.others hsame hmaps (readerAt_of_not_scan (by rintro _ _ _ _ ⟨⟩))
  | swap m op regions hc =>
    refine h.others ?_ (setPhase_region _ _ _) (readerAt_of_not_scan (by rintro _ _ _ _ ⟨⟩))
    intro i k hi
    exact ⟨hi.publish hl.grace regions, hi.heap_publish regions⟩
  | opened m ptr len hc =>
    exact h.others hsame (setPhase_region _ _ _) (readerAt_of_not_scan (by rintro _ _ _ _ ⟨⟩))
  | dropped m ptr hc =>
    exact h.others hsame hmaps (readerAt_of_not_scan (by rintro _ _ _ _ ⟨⟩))
  | munmap m hc =>
    exact h.others hsame (setPhase_region _ _ _) (readerAt_of_not_scan (by rintro _ _ _ _ ⟨⟩))

/-! ## Runs -/

/-- All of the invariants. -/
structure Sound (v : View ι) : Prop where
  locked : Locked v
  owned : Owned v
  published : Published v
  readers : Readers v

omit [DecidableEq ι] in
/-- INTERNAL: the invariant holds before the first mapping. -/
theorem sound_init : Sound (View.of (Process.init ι)) where
  locked := ⟨Grace.inv_start _, fun _ => rfl, fun t => lockedAt_of_not_holds (by rintro _ _ _ ⟨⟩)⟩
  owned := {
    threads := fun t => trivial
    unique := by rintro t u m ⟨⟩
    known := by rintro m x ⟨⟩
    disjoint := by rintro m m' x x' - ⟨⟩ }
  published := by
    refine ⟨List.nodup_nil, ?_⟩
    intro r
    refine ⟨by rintro ⟨⟩, ?_⟩
    rintro ⟨m, x, ⟨⟩, -⟩
  readers := fun t => readerAt_of_not_scan (by rintro _ _ _ _ ⟨⟩)

/-- INTERNAL: **every step of every thread keeps the invariant.** -/
theorem Sound.step [Fintype ι] {page : Usize} (a : ι × Act) (s s' : Process ι)
    (h : Sound (View.of s)) (hstep : Process.step page a s = some s') : Sound (View.of s') := by
  obtain ⟨t, act⟩ := a
  have hmove := step_move hstep
  refine ⟨h.locked.move hmove, h.owned.move hmove, ?_, ?_⟩
  · exact h.published.move h.locked h.owned hmove
  · exact h.readers.move h.locked h.owned h.published hmove

/-- INTERNAL: **the invariants hold after every run.** -/
theorem reachable_sound [Fintype ι] {page : Usize} (acts : List (ι × Act)) {s : Process ι}
    (h : run (Process.step page) acts (Process.init ι) = some s) : Sound (View.of s) :=
  reach_invariant (fun s => Sound (View.of s)) Sound.step acts sound_init h

end MmapShield.Analysis
