import MmapShield.Analysis.RegistryInvariant
import MmapShield.Computation.Simulation
import MmapShield.Model.Clients

/-!
# The registry is a list of regions

Whatever the threads call and however their steps interleave, what they see is the history of one
list of regions whose calls take effect at one moment each: `register` and `unregister` at their
swap, an `unregister` that finds a null snapshot at its early return, and `contains` at its load,
although it scans later and takes no lock. `abstract` reads the list and the state of each call off
the state of the threads; every step of a thread is one step of the atomic object or none.

A scan has to be in time, which means that at most two of the mutations that had not published at
the load have rotated: the snapshot of a later scan has been freed.
-/

set_option autoImplicit false

namespace MmapShield.Analysis.Linear

open MmapShield.Computation MmapShield.Model

variable {ι : Type} [DecidableEq ι]

/-! ## What a step can do -/

/-- One step of the thread `t`, with the point of the code that it is taken at. -/
inductive Move (s : Clients ι) (t : ι) : ClientAct → Clients ι → Prop
  | call (call : RegistryCall) (hc : s.pc t = .idle) :
      Move s t (.call call)
        { s.goto t call.start with history := s.history ++ [.call t call] }
  | lock (op : Mutation) (hc : s.pc t = .mutate op .lock) (hfree : s.mutex = none) :
      Move s t .next { s.goto t (.mutate op .rotate) with mutex := some t }
  | rotate (op : Mutation) (hc : s.pc t = .mutate op .rotate) :
      Move s t .next { s.goto t (.mutate op .load) with registry := Grace.rotate s.registry }
  | load (op : Mutation) (hc : s.pc t = .mutate op .load) :
      Move s t .next (s.goto t (.mutate op (.edit s.registry.published)))
  | skip (op : Mutation) (old : Option ℕ) (hc : s.pc t = .mutate op (.edit old))
      (he : op.edit (old.map s.registry.heap) = none) :
      Move s t .next { s.goto t (.mutate op .unlock) with registry := s.registry.skip }
  | edit (op : Mutation) (old : Option ℕ) (regions : List RegisteredRegion)
      (hc : s.pc t = .mutate op (.edit old))
      (he : op.edit (old.map s.registry.heap) = some regions) :
      Move s t .next (s.goto t (.mutate op (.swap regions)))
  | swap (op : Mutation) (regions : List RegisteredRegion)
      (hc : s.pc t = .mutate op (.swap regions)) :
      Move s t .next
        { s.goto t (.mutate op .unlock) with registry := s.registry.publish regions }
  | unlock (op : Mutation) (hc : s.pc t = .mutate op .unlock) :
      Move s t .next
        { s.goto t .idle with
          mutex := none
          history := s.history ++ [.ret t (.mutate op) .unit] }
  | look (addr : ℕ) (hc : s.pc t = .load addr) :
      Move s t .next (s.goto t (.scan addr s.registry.published s.registry.completed))
  | scan (addr : ℕ) (snap : Option ℕ) (loadedAt : ℕ) (stale : List RegisteredRegion)
      (hc : s.pc t = .scan addr snap loadedAt) :
      Move s t (.scan stale) (s.goto t (.ret addr (scanRegions (s.scanned snap stale) addr)))
  | ret (addr : ℕ) (found : Bool) (hc : s.pc t = .ret addr found) :
      Move s t .next
        { s.goto t .idle with
          history := s.history ++ [.ret t (.contains addr) (.found found)] }

/-- INTERNAL: the step function makes these steps only.
SOURCE: signal/registry.rs:75-153 -/
theorem step_move {t : ι} {act : ClientAct} {s s' : Clients ι}
    (h : Clients.step (t, act) s = some s') : Move s t act s' := by
  unfold Clients.step at h
  dsimp only at h
  split at h
  · rename_i call hc
    cases h
    exact .call call hc
  · rename_i op pc hc
    unfold Clients.stepMutation at h
    split at h
    · split at h
      · cases h
        exact .lock op hc (by assumption)
      · cases h
    · cases h
      exact .rotate op hc
    · cases h
      exact .load op hc
    · rename_i old
      split at h
      · cases h
        exact .skip op old hc (by assumption)
      · rename_i regions he
        cases h
        exact .edit op old regions hc he
    · rename_i regions
      cases h
      exact .swap op regions hc
    · cases h
      exact .unlock op hc
  · rename_i addr hc
    cases h
    exact .look addr hc
  · rename_i stale addr snap loadedAt hc
    cases h
    exact .scan addr snap loadedAt stale hc
  · rename_i addr found hc
    cases h
    exact .ret addr found hc
  · cases h

/-! ## The invariant -/

/-- A thread past the lock of a mutation holds the mutex, and what it has read of the registry is
up to date; a thread before its scan holds a snapshot that was published at its load. -/
def AtPc (r : Registry) (mutex : Option ι) (t : ι) : ClientPc → Prop
  | .mutate op pc => pc.holds = true →
      mutex = some t ∧ r.rotations = r.completed + rotatedAt pc ∧ HoldsFor r op pc
  | .scan _ snap loadedAt => ∀ i, snap = some i → r.Loaded i loadedAt
  | _ => True

/-- What holds in every state of every run. -/
structure Orderly (s : Clients ι) : Prop where
  grace : Grace.Inv s.registry
  free : s.mutex = none → s.registry.rotations = s.registry.completed
  threads : ∀ t, AtPc s.registry s.mutex t (s.pc t)

omit [DecidableEq ι] in
/-- INTERNAL: the registry is in order before the first call. -/
theorem orderly_init : Orderly (Clients.init ι) where
  grace := Grace.inv_start []
  free _ := rfl
  threads _ := trivial

/-- INTERNAL: one thread moves, and the others are where they were. -/
theorem Orderly.goto {s : Clients ι} {t : ι} {c : ClientPc} {r : Registry} {mutex : Option ι}
    {history : List (ObjectEvent ι RegistryCall RegistryAnswer)}
    (hgrace : Grace.Inv r) (hfree : mutex = none → r.rotations = r.completed)
    (hc : AtPc r mutex t c) (hothers : ∀ u, u ≠ t → AtPc r mutex u (s.pc u)) :
    Orderly ⟨r, mutex, Function.update s.pc t c, history⟩ where
  grace := hgrace
  free := hfree
  threads := (Function.forall_update_iff s.pc (p := fun u c => AtPc r mutex u c)).mpr ⟨hc, hothers⟩

omit [DecidableEq ι] in
/-- INTERNAL: a thread that does not hold the mutex has only its loaded snapshot to keep. -/
theorem Orderly.others {s : Clients ι} (h : Orderly s) {t : ι} {r : Registry} {mutex : Option ι}
    (hmutex : s.mutex = some t ∨ s.mutex = none)
    (hloaded : ∀ i c, Grace.Loaded s.registry i c → Grace.Loaded r i c) (u : ι) (hu : u ≠ t) :
    AtPc r mutex u (s.pc u) := by
  have hown := h.threads u
  have hnot : s.mutex ≠ some u := by
    rcases hmutex with hm | hm
    · rw [hm]
      intro heq
      exact hu (Option.some.inj heq).symm
    · rw [hm]
      intro heq
      cases heq
  cases hpc : s.pc u with
  | mutate op pc =>
      rw [hpc] at hown
      intro hholds
      exact absurd (hown hholds).1 hnot
  | scan addr snap loadedAt =>
      rw [hpc] at hown
      intro i hi
      exact hloaded i loadedAt (hown i hi)
  | idle => trivial
  | load addr => trivial
  | ret addr found => trivial

/-- INTERNAL: **every step keeps the order.**
SOURCE: signal/registry.rs:75-153 -/
theorem Orderly.move {s s' : Clients ι} (h : Orderly s) {t : ι} {act : ClientAct}
    (hmove : Move s t act s') : Orderly s' := by
  -- the holder of the mutex, at a point of the code that needs it
  have hhere (op : Mutation) (pc : MutationPc) (hc : s.pc t = .mutate op pc)
      (hpc : pc.holds = true) : s.mutex = some t ∧
        s.registry.rotations = s.registry.completed + rotatedAt pc ∧ HoldsFor s.registry op pc := by
    have hown := h.threads t
    rw [hc] at hown
    exact hown hpc
  have hbusy (hm : s.mutex = some t) (P : Prop) : s.mutex = none → P := by
    intro hnone
    rw [hm] at hnone
    cases hnone
  have hsame (u : ι) (_ : u ≠ t) : AtPc s.registry s.mutex u (s.pc u) := h.threads u
  cases hmove with
  | call call hc =>
      refine Orderly.goto h.grace h.free ?_ hsame
      cases call with
      | mutate op =>
          intro hholds
          cases hholds
      | contains addr => trivial
  | lock op hc hfree =>
      refine Orderly.goto h.grace (by simp) ?_ (h.others (Or.inr hfree) fun _ _ hi => hi)
      intro _
      exact ⟨rfl, h.free hfree, trivial⟩
  | rotate op hc =>
      obtain ⟨hmutex, hcount, -⟩ := hhere op _ hc rfl
      simp only [rotatedAt, Nat.add_zero] at hcount
      refine Orderly.goto (h.grace.rotate hcount) (hbusy hmutex _) ?_
        (h.others (Or.inl hmutex) fun _ _ hi => hi.rotate)
      intro _
      refine ⟨hmutex, ?_, trivial⟩
      simp only [Grace.rotate, rotatedAt, hcount]
  | load op hc =>
      obtain ⟨hmutex, hcount, -⟩ := hhere op _ hc rfl
      refine Orderly.goto h.grace h.free ?_ hsame
      intro _
      exact ⟨hmutex, hcount, rfl⟩
  | skip op old hc he =>
      obtain ⟨hmutex, hcount, hold⟩ := hhere op _ hc rfl
      simp only [rotatedAt] at hcount
      have hnone : s.registry.published = none := by
        obtain ⟨hnull, -⟩ := edit_eq_none he
        simp only [HoldsFor] at hold
        rw [← hold]
        exact Option.map_eq_none_iff.mp hnull
      refine Orderly.goto (h.grace.skip hcount) (fun _ => hcount) ?_
        (h.others (Or.inl hmutex) fun _ _ hi => hi.skip hnone)
      intro _
      exact ⟨hmutex, hcount, trivial⟩
  | edit op old regions hc he =>
      obtain ⟨hmutex, hcount, hold⟩ := hhere op _ hc rfl
      refine Orderly.goto h.grace h.free ?_ hsame
      intro _
      refine ⟨hmutex, hcount, ?_⟩
      simp only [HoldsFor] at hold
      rw [hold] at he
      exact he
  | swap op regions hc =>
      obtain ⟨hmutex, hcount, -⟩ := hhere op _ hc rfl
      simp only [rotatedAt] at hcount
      refine Orderly.goto (h.grace.publish hcount regions) (fun _ => hcount) ?_
        (h.others (Or.inl hmutex) fun _ _ hi => hi.publish h.grace regions)
      intro _
      exact ⟨hmutex, hcount, trivial⟩
  | unlock op hc =>
      obtain ⟨hmutex, hcount, -⟩ := hhere op _ hc rfl
      exact Orderly.goto h.grace (fun _ => hcount) trivial
        (h.others (Or.inl hmutex) fun _ _ hi => hi)
  | look addr hc =>
      refine Orderly.goto h.grace h.free ?_ hsame
      intro i hi
      exact h.grace.loaded hi
  | scan addr snap loadedAt stale hc => exact Orderly.goto h.grace h.free trivial hsame
  | ret addr found hc => exact Orderly.goto h.grace h.free trivial hsame

/-! ## The list of regions behind the threads -/

/-- The state of the call of a thread, as its callers may think of it: a mutation has taken
effect once it is past its swap or its early return, and `contains` once it has loaded. -/
def pendingAt (heap : ℕ → List RegisteredRegion) :
    ClientPc → Pending RegistryCall RegistryAnswer
  | .idle => .idle
  | .mutate op pc => if pc.before then .called (.mutate op) else .done (.mutate op) .unit
  | .load addr => .called (.contains addr)
  | .scan addr snap _ =>
    .done (.contains addr) (.found (scanRegions ((snap.map heap).getD []) addr))
  | .ret addr found => .done (.contains addr) (.found found)

/-- The atomic object that the threads implement. -/
def abstract (s : Clients ι) :
    AtomicObject ι (List RegisteredRegion) RegistryCall RegistryAnswer where
  value := s.registry.regions
  pending := fun t => pendingAt s.registry.heap (s.pc t)
  history := s.history

/-- INTERNAL: one thread moves, and the others are where they were. -/
theorem abstract_goto (s : Clients ι) (t : ι) (c : ClientPc) (r : Registry) (mutex : Option ι)
    (history : List (ObjectEvent ι RegistryCall RegistryAnswer))
    (hothers : ∀ u, u ≠ t → pendingAt r.heap (s.pc u) = pendingAt s.registry.heap (s.pc u)) :
    abstract ⟨r, mutex, Function.update s.pc t c, history⟩ =
      ⟨r.regions, Function.update (abstract s).pending t (pendingAt r.heap c), history⟩ := by
  have hpending : (fun u => pendingAt r.heap (Function.update s.pc t c u)) =
      Function.update (abstract s).pending t (pendingAt r.heap c) := by
    funext u
    by_cases hu : u = t
    · subst hu
      simp
    · simp [hu, abstract, hothers]
  rw [← hpending]
  rfl

omit [DecidableEq ι] in
/-- INTERNAL: a publication changes no snapshot that a thread has loaded. -/
theorem Orderly.pending_publish {s : Clients ι} (h : Orderly s) (regions : List RegisteredRegion)
    (u : ι) : pendingAt (s.registry.publish regions).heap (s.pc u) =
      pendingAt s.registry.heap (s.pc u) := by
  have hown := h.threads u
  cases hpc : s.pc u with
  | scan addr snap loadedAt =>
      rw [hpc] at hown
      cases snap with
      | none => rfl
      | some i =>
          have hloaded : s.registry.Loaded i loadedAt := hown i rfl
          simp [pendingAt, hloaded.heap_publish]
  | _ => rfl

/-- The effect of a mutation on the list is what its edit makes of the published regions.
SOURCE: signal/registry.rs:80-90, 112-119 -/
theorem effect_mutate (op : Mutation) (r : Registry) :
    (RegistryCall.mutate op).effect r.regions = (.unit, (op.edit r.snapshot).getD []) := by
  rw [edit_regions]
  cases op <;> rfl

/-- When the step `a` scans, at most two calls of `register` or `unregister` that had not
published at the load have rotated. -/
def ScansInTime (a : ι × ClientAct) (s : Clients ι) : Prop :=
  ∀ stale addr snap loadedAt, a.2 = .scan stale → s.pc a.1 = .scan addr snap loadedAt →
    s.registry.rotations ≤ loadedAt + 2

omit [DecidableEq ι] in
/-- INTERNAL: a scan that is in time reads the snapshot that was loaded.
SOURCE: signal/registry.rs:141-175 -/
theorem Orderly.scanned {s : Clients ι} (h : Orderly s) {t : ι} {addr loadedAt : ℕ}
    {snap : Option ℕ} {stale : List RegisteredRegion} (hc : s.pc t = .scan addr snap loadedAt)
    (hin : ScansInTime (t, .scan stale) s) :
    s.scanned snap stale = (snap.map s.registry.heap).getD [] := by
  have hown := h.threads t
  rw [hc] at hown
  cases snap with
  | none => rfl
  | some i =>
      have hloaded : s.registry.Loaded i loadedAt := hown i rfl
      have hle := hin stale addr (some i) loadedAt rfl hc
      have hlive : i ∉ s.registry.freed := by
        rw [hloaded.freed_iff h.grace]
        omega
      simp [Clients.scanned, hlive]

/-- INTERNAL: **one step of a thread is one step of the list of regions, or none.**
SOURCE: signal/registry.rs:75-153 -/
theorem simulates {s s' : Clients ι} (h : Orderly s) {t : ι} {act : ClientAct}
    (hin : ScansInTime (t, act) s) (hmove : Move s t act s') :
    ∃ acts, run (AtomicObject.step RegistryCall.effect) acts (abstract s) = some (abstract s') := by
  have hwas (c : ClientPc) (hc : s.pc t = c) :
      (abstract s).pending t = pendingAt s.registry.heap c := by
    rw [← hc]
    rfl
  have hkept (u : ι) (_ : u ≠ t) :
      pendingAt s.registry.heap (s.pc u) = pendingAt s.registry.heap (s.pc u) := rfl
  -- a step that the callers do not notice
  have hquiet (c : ClientPc) (mutex : Option ι) (r : Registry) (hheap : r.heap = s.registry.heap)
      (hregions : r.regions = s.registry.regions)
      (hsame : (abstract s).pending t = pendingAt s.registry.heap c) :
      abstract ⟨r, mutex, Function.update s.pc t c, s.history⟩ = abstract s := by
    rw [abstract_goto s t c r mutex s.history (by simp [hheap]), hheap, hregions, ← hsame,
      Function.update_eq_self]
    rfl
  -- the moment at which an operation takes effect
  have heffect (op : RegistryCall) (c : ClientPc) (r : Registry)
      (hcalled : (abstract s).pending t = .called op)
      (hdone : pendingAt r.heap c = .done op (op.effect s.registry.regions).1)
      (hregions : r.regions = (op.effect s.registry.regions).2)
      (hothers : ∀ u, u ≠ t → pendingAt r.heap (s.pc u) = pendingAt s.registry.heap (s.pc u)) :
      run (AtomicObject.step RegistryCall.effect) [.effect t] (abstract s) =
        some (abstract ⟨r, s.mutex, Function.update s.pc t c, s.history⟩) := by
    refine AtomicObject.run_single ?_
    rw [AtomicObject.step_effect hcalled, abstract_goto s t c r s.mutex s.history hothers, hdone,
      hregions]
    rfl
  have hret (op : RegistryCall) (answer : RegistryAnswer) (mutex : Option ι)
      (hdone : (abstract s).pending t = .done op answer) :
      run (AtomicObject.step RegistryCall.effect) [.ret t] (abstract s) =
        some (abstract ⟨s.registry, mutex, Function.update s.pc t .idle,
          s.history ++ [.ret t op answer]⟩) := by
    refine AtomicObject.run_single ?_
    rw [AtomicObject.step_ret hdone, abstract_goto s t .idle s.registry mutex _ hkept]
    rfl
  cases hmove with
  | call call hc =>
      refine ⟨[.call t call], AtomicObject.run_single ?_⟩
      have hstart : pendingAt s.registry.heap call.start = .called call := by
        cases call <;> rfl
      rw [AtomicObject.step_call (hwas _ hc)]
      have hnext := abstract_goto s t call.start s.registry s.mutex (s.history ++ [.call t call])
        hkept
      rw [hstart] at hnext
      exact congrArg some hnext.symm
  | lock op hc hfree =>
      exact ⟨[], congrArg some (hquiet (.mutate op .rotate) (some t) s.registry rfl rfl
        (hwas (.mutate op .lock) hc)).symm⟩
  | rotate op hc =>
      exact ⟨[], congrArg some (hquiet (.mutate op .load) s.mutex (Grace.rotate s.registry) rfl rfl
        (hwas (.mutate op .rotate) hc)).symm⟩
  | load op hc =>
      exact ⟨[], congrArg some (hquiet (.mutate op (.edit s.registry.published)) s.mutex
        s.registry rfl rfl (hwas (.mutate op .load) hc)).symm⟩
  | edit op old regions hc he =>
      exact ⟨[], congrArg some (hquiet (.mutate op (.swap regions)) s.mutex s.registry rfl
        rfl (hwas (.mutate op (.edit old)) hc)).symm⟩
  | skip op old hc he =>
      -- the early return: there is nothing to remove from
      have hown := h.threads t
      rw [hc] at hown
      obtain ⟨-, -, hold⟩ := hown rfl
      simp only [HoldsFor] at hold
      have hsnapshot : op.edit s.registry.snapshot = none := by
        rw [hold] at he
        exact he
      have hempty : s.registry.regions = [] := by
        obtain ⟨hnull, -⟩ := edit_eq_none hsnapshot
        simp [Registry.regions, hnull]
      have hop := effect_mutate op s.registry
      rw [hsnapshot, Option.getD_none] at hop
      refine ⟨[.effect t], heffect (.mutate op) (.mutate op .unlock) s.registry.skip (hwas _ hc)
        ?_ ?_ hkept⟩
      · rw [hop]
        rfl
      · rw [hop]
        exact hempty
  | swap op regions hc =>
      have hown := h.threads t
      rw [hc] at hown
      obtain ⟨-, -, hedit⟩ := hown rfl
      simp only [HoldsFor] at hedit
      have hop := effect_mutate op s.registry
      rw [hedit, Option.getD_some] at hop
      refine ⟨[.effect t], heffect (.mutate op) (.mutate op .unlock) (s.registry.publish regions)
        (hwas _ hc) ?_ ?_ fun u _ => h.pending_publish regions u⟩
      · rw [hop]
        rfl
      · rw [hop]
        simp [Registry.regions]
  | unlock op hc => exact ⟨[.ret t], hret (.mutate op) .unit none (hwas _ hc)⟩
  | look addr hc =>
      exact ⟨[.effect t], heffect (.contains addr)
        (.scan addr s.registry.published s.registry.completed) s.registry (hwas _ hc) rfl rfl hkept⟩
  | scan addr snap loadedAt stale hc =>
      refine ⟨[], congrArg some (hquiet
        (.ret addr (scanRegions (s.scanned snap stale) addr)) s.mutex s.registry rfl rfl ?_).symm⟩
      rw [hwas _ hc, h.scanned hc hin]
      rfl
  | ret addr found hc =>
      exact ⟨[.ret t], hret (.contains addr) (.found found) s.mutex (hwas _ hc)⟩

/-- RESULT: **the registry is linearizable.** In every run whose scans are in time, the calls and
answers of all threads are a history of one list of regions whose operations take effect at one
moment each, between their call and their return, and the published regions are that list.
SOURCE: signal/registry.rs:75-153 -/
theorem registry_linearizable (acts : List (ι × ClientAct)) (s : Clients ι)
    (h : run Clients.step acts (Clients.init ι) = some s)
    (hin : Along Clients.step ScansInTime acts (Clients.init ι)) :
    ∃ effects list, run (AtomicObject.step RegistryCall.effect) effects
        (AtomicObject.start ι RegistryCall RegistryAnswer []) = some list ∧
      list.history = s.history ∧ list.value = s.registry.regions := by
  have hstep (a : ι × ClientAct) (s s' : Clients ι)
      (u : AtomicObject ι (List RegisteredRegion) RegistryCall RegistryAnswer)
      (ha : ScansInTime a s) (hR : Orderly s ∧ u = abstract s) (hs : Clients.step a s = some s') :
      ∃ bs v, run (AtomicObject.step RegistryCall.effect) bs u = some v ∧
        Orderly s' ∧ v = abstract s' := by
    obtain ⟨horderly, rfl⟩ := hR
    have hmove := step_move hs
    obtain ⟨bs, hbs⟩ := simulates horderly ha hmove
    exact ⟨bs, _, hbs, horderly.move hmove, rfl⟩
  obtain ⟨effects, list, hrun, -, rfl⟩ :=
    run_simulates (fun s u => Orderly s ∧ u = abstract s) hstep acts ⟨orderly_init, rfl⟩ hin h
  exact ⟨effects, abstract s, hrun, rfl, rfl⟩

/-- The thread `true` looks for an address while the other one is about to publish its
region, and scans after the region has been published. -/
def overlapping : List (Bool × ClientAct) :=
  [(false, .call (.mutate (.register 0x1000 0x1000))), (false, .next), (false, .next),
    (false, .next), (false, .next), (true, .call (.contains 0x1800)), (true, .next),
    (false, .next), (true, .scan []), (true, .next), (false, .next)]

/-- The run `overlapping` is one of those that `registry_linearizable` is about: its history has
an order, in which `contains` comes first. -/
theorem registry_linearizable_overlapping :
    ∃ s, run Clients.step overlapping (Clients.init Bool) = some s ∧
      s.history = [.call false (.mutate (.register 0x1000 0x1000)), .call true (.contains 0x1800),
        .ret true (.contains 0x1800) (.found false),
        .ret false (.mutate (.register 0x1000 0x1000)) .unit] ∧
      ∃ effects list, run (AtomicObject.step RegistryCall.effect) effects
          (AtomicObject.start Bool RegistryCall RegistryAnswer []) = some list ∧
        list.history = s.history ∧ list.value = [⟨0x1000, 0x2000⟩] := by
  have hend : (run Clients.step overlapping (Clients.init Bool)).map
      (fun s => (s.history, s.registry.regions)) =
      some ([.call false (.mutate (.register 0x1000 0x1000)), .call true (.contains 0x1800),
        .ret true (.contains 0x1800) (.found false),
        .ret false (.mutate (.register 0x1000 0x1000)) .unit],
        [⟨0x1000, 0x2000⟩]) := by
    decide
  obtain ⟨s, hs, hat⟩ := Option.map_eq_some_iff.mp hend
  obtain ⟨hhistory, hregions⟩ := Prod.mk.inj hat
  have hin : Along Clients.step ScansInTime overlapping (Clients.init Bool) := by
    refine along_cons ?_ rfl (along_cons ?_ rfl (along_cons ?_ rfl (along_cons ?_ rfl
      (along_cons ?_ rfl (along_cons ?_ rfl (along_cons ?_ rfl (along_cons ?_ rfl
      (along_cons ?_ rfl (along_cons ?_ rfl (along_cons ?_ rfl trivial))))))))))
    all_goals
      intro stale addr snap loadedAt hact hpc
      cases hact
    cases hpc
    decide
  obtain ⟨effects, list, hrun, hsame, hvalue⟩ := registry_linearizable overlapping s hs hin
  exact ⟨s, hs, hhistory, effects, list, hrun, hsame, hvalue.trans hregions⟩

/-! ## Calls one after the other -/

/-- INTERNAL: a whole call does to the published regions what it does to the list.
SOURCE: signal/registry.rs:75-127 -/
theorem regions_apply (op : Mutation) (r : Registry) :
    Registry.regions (op.apply r) = ((RegistryCall.mutate op).effect r.regions).2 := by
  rw [effect_mutate]
  unfold Mutation.apply
  dsimp only
  rw [rotateRetired_snapshot]
  cases hedit : op.edit r.snapshot with
  | some regions => simp [Registry.regions]
  | none =>
      obtain ⟨hnull, -⟩ := edit_eq_none hedit
      simp only [Option.getD_none]
      show (Grace.snapshot (rotateRetired r)).getD [] = []
      rw [rotateRetired_snapshot, hnull]
      rfl

/-- INTERNAL: a place in a list with one more entry at its end. -/
theorem split_concat {α : Type*} (P : List α → Prop) (xs : List α) (x y : α) :
    (∃ before later, xs ++ [y] = before ++ x :: later ∧ P later) ↔
      (y = x ∧ P []) ∨ ∃ before later, xs = before ++ x :: later ∧ P (later ++ [y]) := by
  refine ⟨?_, ?_⟩
  · rintro ⟨before, later, heq, hP⟩
    rcases List.eq_nil_or_concat later with rfl | ⟨later', z, rfl⟩
    · obtain ⟨-, hlast⟩ := List.append_inj' heq rfl
      simp only [List.cons.injEq, and_true] at hlast
      exact Or.inl ⟨hlast, hP⟩
    · rw [List.concat_eq_append, ← List.cons_append, ← List.append_assoc] at heq
      obtain ⟨hinit, hlast⟩ := List.append_inj' heq rfl
      simp only [List.cons.injEq, and_true] at hlast
      rw [List.concat_eq_append, ← hlast] at hP
      exact Or.inr ⟨before, later', hinit, hP⟩
  · rintro (⟨rfl, hP⟩ | ⟨before, later, rfl, hP⟩)
    · exact ⟨xs, [], rfl, hP⟩
    · exact ⟨before, later ++ [y], by simp, hP⟩

/-- INTERNAL: **the regions after a sequence of calls** are those that were registered and whose
start has not been unregistered since. -/
theorem mem_regions_iff (ops : List Mutation) (x : RegisteredRegion) :
    x ∈ Registry.regions (ops.foldl (fun r op => op.apply r) Registry.new) ↔
      ∃ start len, x = newRegion start len ∧ ∃ before later,
        ops = before ++ .register start len :: later ∧ .unregister start ∉ later := by
  induction ops using List.reverseRecOn with
  | nil =>
      refine ⟨?_, ?_⟩
      · intro hx
        cases hx
      · rintro ⟨start, len, -, before, later, heq, -⟩
        simp at heq
  | append_singleton ops op ih =>
      rw [List.foldl_append, List.foldl_cons, List.foldl_nil, regions_apply]
      simp only [split_concat]
      cases op with
      | register start len =>
          simp only [RegistryCall.effect, List.mem_append, List.mem_singleton, ih]
          refine ⟨?_, ?_⟩
          · rintro (⟨start', len', hx, before, later, heq, hlater⟩ | hx)
            · exact ⟨start', len', hx, Or.inr ⟨before, later, heq, by simp [hlater]⟩⟩
            · exact ⟨start, len, hx, Or.inl ⟨rfl, by simp⟩⟩
          · rintro ⟨start', len', hx, ⟨heq, -⟩ | ⟨before, later, heq, hlater⟩⟩
            · cases heq
              exact Or.inr hx
            · simp only [not_or] at hlater
              exact Or.inl ⟨start', len', hx, before, later, heq, hlater.1⟩
      | unregister gone =>
          simp only [RegistryCall.effect, List.mem_filter, bne_iff_ne, ih]
          refine ⟨?_, ?_⟩
          · rintro ⟨⟨start, len, rfl, before, later, heq, hlater⟩, hne⟩
            refine ⟨start, len, rfl, Or.inr ⟨before, later, heq, ?_⟩⟩
            simp only [List.mem_append, not_or, List.mem_singleton, Mutation.unregister.injEq]
            exact ⟨hlater, hne⟩
          · rintro ⟨start, len, rfl, ⟨heq, -⟩ | ⟨before, later, heq, hlater⟩⟩
            · cases heq
            · simp only [List.mem_append, not_or, List.mem_singleton,
                Mutation.unregister.injEq] at hlater
              exact ⟨⟨start, len, rfl, before, later, heq, hlater.1⟩, hlater.2⟩

/-- RESULT: **what `contains` answers after any calls.** After every sequence of `register` and
`unregister` calls, with overlapping, repeated and wrapping regions, `contains` finds an address
exactly when it lies in a region that was registered and whose start has not been unregistered
since; a region whose end wraps has no address in it.
SOURCE: signal/registry.rs:75-153 -/
theorem registry_history (ops : List Mutation) (addr : ℕ) :
    contains (ops.foldl (fun r op => op.apply r) Registry.new) addr = true ↔
      ∃ before start len later, ops = before ++ .register start len :: later ∧
        .unregister start ∉ later ∧ start ≤ addr ∧ addr < (start + len) % 2 ^ 64 := by
  rw [contains_eq, scanRegions_iff]
  simp only [mem_regions_iff]
  refine ⟨?_, ?_⟩
  · rintro ⟨x, ⟨start, len, rfl, before, later, heq, hlater⟩, hlo, hhi⟩
    exact ⟨before, start, len, later, heq, hlater, hlo, hhi⟩
  · rintro ⟨before, start, len, later, heq, hlater, hlo, hhi⟩
    exact ⟨newRegion start len, ⟨start, len, rfl, before, later, heq, hlater⟩, hlo, hhi⟩

end MmapShield.Analysis.Linear
