import Mathlib.Data.List.Nodup
import Mathlib.Logic.Function.Basic
import Mathlib.Tactic.Basic

/-!
# Deferred reclamation with two generations

Immutable snapshots of a value of type `α` are published one after the other.
Mutations are serialised and each runs in two halves: `rotate` frees the snapshots
of the older generation and ages the younger one, and then `publish` puts a new
snapshot in place of the published one, which joins the younger generation. A
mutation that changes nothing ends with `skip` in place of `publish`.

`rotations` and `completed` count the halves that have run, and `retiredAt` records
which mutation retired a snapshot; no operation reads them. They give the exact
answer to when a snapshot is freed: `Inv.freed_iff` says that a snapshot retired by
the `k`-th mutation is freed by the rotation of the `k + 2`-nd and by no earlier one,
and `Loaded.freed_iff` the same from the point of view of a reader that loaded the
published snapshot when `c` mutations were complete.
-/

set_option autoImplicit false

namespace MmapShield.Computation

/-- The published snapshot, the two generations of retired ones and the freed ones. -/
structure Grace (α : Type*) where
  heap : ℕ → α
  next : ℕ
  published : Option ℕ
  previous : List ℕ
  current : List ℕ
  freed : List ℕ
  rotations : ℕ
  completed : ℕ
  retiredAt : ℕ → Option ℕ

namespace Grace

variable {α : Type*}

/-- Nothing has been published yet; `x` is what unallocated memory holds. -/
def start (x : α) : Grace α where
  heap := fun _ => x
  next := 0
  published := none
  previous := []
  current := []
  freed := []
  rotations := 0
  completed := 0
  retiredAt := fun _ => none

/-- The contents of the published snapshot. -/
def snapshot (g : Grace α) : Option α := g.published.map g.heap

/-- Frees the older generation and ages the younger one. -/
def rotate (g : Grace α) : Grace α :=
  { g with
    freed := g.freed ++ g.previous
    previous := g.current
    current := []
    rotations := g.rotations + 1 }

/-- Publishes a new snapshot and retires the one it replaces. -/
def publish (g : Grace α) (x : α) : Grace α :=
  { g with
    heap := Function.update g.heap g.next x
    next := g.next + 1
    published := some g.next
    current := g.current ++ g.published.toList
    completed := g.completed + 1
    retiredAt := fun i => if g.published = some i then some (g.completed + 1) else g.retiredAt i }

/-- Ends a mutation that publishes nothing. -/
def skip (g : Grace α) : Grace α := { g with completed := g.completed + 1 }

/-- What holds of the bookkeeping at every moment: where a snapshot is follows from
when it was retired. -/
structure Inv (g : Grace α) : Prop where
  current_iff : ∀ i, i ∈ g.current ↔ g.retiredAt i = some g.rotations
  previous_iff : ∀ i, i ∈ g.previous ↔ ∃ k, g.retiredAt i = some k ∧ g.rotations = k + 1
  freed_iff : ∀ i, i ∈ g.freed ↔ ∃ k, g.retiredAt i = some k ∧ k + 2 ≤ g.rotations
  retired_le : ∀ i k, g.retiredAt i = some k → k ≤ g.completed
  published_fresh : ∀ i, g.published = some i → g.retiredAt i = none ∧ i < g.next
  unallocated : ∀ i, g.next ≤ i → g.retiredAt i = none
  allocated : ∀ i, i < g.next → g.published = some i ∨ g.retiredAt i ≠ none
  nodup : (g.current ++ g.previous ++ g.freed).Nodup
  length_current : g.current.length ≤ 1
  length_previous : g.previous.length ≤ 1
  current_empty : g.rotations = g.completed + 1 → g.current = []
  lag : g.completed ≤ g.rotations ∧ g.rotations ≤ g.completed + 1

/-- INTERNAL: the bookkeeping is in order before the first mutation. -/
theorem inv_start (x : α) : Inv (start x) where
  current_iff i := by simp [start]
  previous_iff i := by simp [start]
  freed_iff i := by simp [start]
  retired_le i k h := by simp [start] at h
  published_fresh i h := by simp [start] at h
  unallocated i _ := rfl
  allocated i h := by simp [start] at h
  nodup := by simp [start]
  length_current := by simp [start]
  length_previous := by simp [start]
  current_empty h := rfl
  lag := by simp [start]

/-- INTERNAL: the first half of a mutation keeps the bookkeeping in order. -/
theorem Inv.rotate {g : Grace α} (h : Inv g) (hr : g.rotations = g.completed) :
    Inv g.rotate where
  current_iff i := by
    have hle := h.retired_le i
    simp only [Grace.rotate, List.not_mem_nil, false_iff]
    intro hi
    have := hle _ hi
    omega
  previous_iff i := by
    simp only [Grace.rotate]
    rw [h.current_iff]
    constructor
    · intro hi
      exact ⟨_, hi, rfl⟩
    · rintro ⟨k, hk, hrot⟩
      obtain rfl : g.rotations = k := by omega
      exact hk
  freed_iff i := by
    simp only [Grace.rotate, List.mem_append]
    rw [h.freed_iff, h.previous_iff]
    constructor
    · rintro (⟨k, hk, hle⟩ | ⟨k, hk, heq⟩)
      · exact ⟨k, hk, by omega⟩
      · exact ⟨k, hk, by omega⟩
    · rintro ⟨k, hk, hle⟩
      by_cases hold : k + 2 ≤ g.rotations
      · exact Or.inl ⟨k, hk, hold⟩
      · exact Or.inr ⟨k, hk, by omega⟩
  retired_le := h.retired_le
  published_fresh := h.published_fresh
  unallocated := h.unallocated
  allocated := h.allocated
  nodup := by
    have hperm : (g.current ++ (g.freed ++ g.previous)).Perm
        (g.current ++ g.previous ++ g.freed) := by
      rw [List.append_assoc]
      exact List.Perm.append_left _ List.perm_append_comm
    simpa [Grace.rotate] using hperm.nodup_iff.mpr h.nodup
  length_current := by simp [Grace.rotate]
  length_previous := h.length_current
  current_empty _ := rfl
  lag := by
    simp only [Grace.rotate]
    omega

/-- INTERNAL: the second half of a mutation keeps the bookkeeping in order. -/
theorem Inv.publish {g : Grace α} (h : Inv g) (hr : g.rotations = g.completed + 1) (x : α) :
    Inv (g.publish x) := by
  have hempty := h.current_empty hr
  -- the retirement time of a snapshot that is already retired does not change
  have hkeep (i k : ℕ) (hi : g.retiredAt i = some k) : g.published ≠ some i := by
    intro hp
    rw [(h.published_fresh i hp).1] at hi
    cases hi
  have hold (i k : ℕ) (hk : k ≠ g.completed + 1) :
      (g.publish x).retiredAt i = some k ↔ g.retiredAt i = some k := by
    simp only [Grace.publish]
    split
    · rename_i hp
      have hnone := (h.published_fresh i hp).1
      simp only [Option.some.injEq, hnone]
      constructor
      · intro he
        exact absurd he.symm hk
      · intro he
        cases he
    · exact Iff.rfl
  exact {
    current_iff := by
      intro i
      simp only [Grace.publish, hempty, List.nil_append, Option.mem_toList, hr]
      constructor
      · intro hp
        rw [if_pos hp]
      · intro hi
        by_contra hp
        rw [if_neg hp] at hi
        have := h.retired_le i _ hi
        omega
    previous_iff := by
      intro i
      have hrw : i ∈ (g.publish x).previous ↔ i ∈ g.previous := Iff.rfl
      rw [hrw, h.previous_iff]
      simp only [Grace.publish]
      constructor
      · rintro ⟨k, hk, hrot⟩
        exact ⟨k, (hold i k (by omega)).mpr hk, hrot⟩
      · rintro ⟨k, hk, hrot⟩
        exact ⟨k, (hold i k (by omega)).mp hk, hrot⟩
    freed_iff := by
      intro i
      have hrw : i ∈ (g.publish x).freed ↔ i ∈ g.freed := Iff.rfl
      rw [hrw, h.freed_iff]
      simp only [Grace.publish]
      constructor
      · rintro ⟨k, hk, hle⟩
        exact ⟨k, (hold i k (by omega)).mpr hk, hle⟩
      · rintro ⟨k, hk, hle⟩
        exact ⟨k, (hold i k (by omega)).mp hk, hle⟩
    retired_le := by
      intro i k hi
      simp only [Grace.publish] at hi ⊢
      split at hi
      · simp only [Option.some.injEq] at hi
        omega
      · have := h.retired_le i k hi
        omega
    published_fresh := by
      intro i hi
      simp only [Grace.publish, Option.some.injEq] at hi ⊢
      subst hi
      have hne : g.published ≠ some g.next := fun hp =>
        absurd (h.published_fresh _ hp).2 (Nat.lt_irrefl _)
      exact ⟨by rw [if_neg hne]; exact h.unallocated _ (Nat.le_refl _), Nat.lt_succ_self _⟩
    unallocated := by
      intro i hi
      simp only [Grace.publish] at hi ⊢
      have hne : g.published ≠ some i := fun hp =>
        absurd (h.published_fresh _ hp).2 (by omega)
      rw [if_neg hne]
      exact h.unallocated i (by omega)
    allocated := by
      intro i hi
      simp only [Grace.publish, Option.some.injEq] at hi ⊢
      by_cases hnew : i = g.next
      · exact Or.inl hnew.symm
      · right
        by_cases hp : g.published = some i
        · rw [if_pos hp]
          exact Option.some_ne_none _
        · rw [if_neg hp]
          exact (h.allocated i (by omega)).resolve_left hp
    nodup := by
      simp only [Grace.publish]
      cases hp : g.published with
      | none => simpa using h.nodup
      | some i =>
        have hfresh := (h.published_fresh i hp).1
        have hprev : i ∉ g.previous := by
          rw [h.previous_iff]
          rintro ⟨k, hk, -⟩
          exact hkeep i k hk hp
        have hfreed : i ∉ g.freed := by
          rw [h.freed_iff]
          rintro ⟨k, hk, -⟩
          exact hkeep i k hk hp
        have hnodup := h.nodup
        rw [hempty] at hnodup ⊢
        simp only [List.nil_append, Option.toList_some, List.cons_append,
          List.nodup_cons, List.mem_append, not_or]
        exact ⟨⟨hprev, hfreed⟩, by simpa using hnodup⟩
    length_current := by
      simp only [Grace.publish, hempty, List.nil_append]
      cases g.published <;> simp
    length_previous := h.length_previous
    current_empty := by
      intro he
      simp only [Grace.publish] at he
      omega
    lag := by
      simp only [Grace.publish]
      omega }

/-- INTERNAL: a mutation that publishes nothing keeps the bookkeeping in order. -/
theorem Inv.skip {g : Grace α} (h : Inv g) (hr : g.rotations = g.completed + 1) :
    Inv g.skip where
  current_iff := h.current_iff
  previous_iff := h.previous_iff
  freed_iff := h.freed_iff
  retired_le i k hi := Nat.le_succ_of_le (h.retired_le i k hi)
  published_fresh := h.published_fresh
  unallocated := h.unallocated
  allocated := h.allocated
  nodup := h.nodup
  length_current := h.length_current
  length_previous := h.length_previous
  current_empty he := h.current_empty hr
  lag := by
    simp only [Grace.skip]
    omega

/-- INTERNAL: a snapshot that was retired is in the place that its age says. -/
theorem Inv.place {g : Grace α} (h : Inv g) {i : ℕ} (hi : g.retiredAt i ≠ none) :
    i ∈ g.current ∨ i ∈ g.previous ∨ i ∈ g.freed := by
  obtain ⟨k, hk⟩ := Option.ne_none_iff_exists'.mp hi
  have hle := h.retired_le i k hk
  have hlag := h.lag
  rcases Nat.lt_trichotomy (k + 1) g.rotations with hlt | heq | hgt
  · exact Or.inr (Or.inr ((h.freed_iff i).mpr ⟨k, hk, hlt⟩))
  · exact Or.inr (Or.inl ((h.previous_iff i).mpr ⟨k, hk, heq.symm⟩))
  · obtain rfl : k = g.rotations := by omega
    exact Or.inl ((h.current_iff i).mpr hk)

/-- INTERNAL: what is in one of the lists was retired. -/
theorem Inv.retired {g : Grace α} (h : Inv g) {i : ℕ}
    (hi : i ∈ g.current ∨ i ∈ g.previous ∨ i ∈ g.freed) : g.retiredAt i ≠ none := by
  intro hnone
  rw [h.current_iff, h.previous_iff, h.freed_iff, hnone] at hi
  rcases hi with hi | ⟨k, hk, -⟩ | ⟨k, hk, -⟩
  · cases hi
  · cases hk
  · cases hk

/-- INTERNAL: **the partition.** The published snapshot, the two generations and the freed
snapshots are all that was allocated, each of them once. -/
theorem Inv.partition {g : Grace α} (h : Inv g) :
    (g.published.toList ++ (g.current ++ g.previous ++ g.freed)).Perm (List.range g.next) := by
  have hlists (i : ℕ) : i ∈ g.current ++ g.previous ++ g.freed ↔ g.retiredAt i ≠ none := by
    rw [List.mem_append, List.mem_append, or_assoc]
    exact ⟨h.retired, h.place⟩
  have hnodup : (g.published.toList ++ (g.current ++ g.previous ++ g.freed)).Nodup := by
    refine List.nodup_append.mpr ⟨?_, h.nodup, ?_⟩
    · cases g.published <;> simp
    · rintro i hi j hj rfl
      rw [Option.mem_toList] at hi
      exact (hlists i).mp hj (h.published_fresh i hi).1
  rw [List.perm_ext_iff_of_nodup hnodup List.nodup_range]
  intro i
  rw [List.mem_append, hlists, Option.mem_toList, List.mem_range]
  refine ⟨?_, h.allocated i⟩
  rintro (hi | hi)
  · exact (h.published_fresh i hi).2
  · by_contra hge
    exact hi (h.unallocated i (Nat.le_of_not_lt hge))

/-! ## Readers -/

/-- A reader loaded the snapshot `i` when it was published and `c` mutations were
complete: it is published still, or it was retired by the next mutation. -/
def Loaded (g : Grace α) (i c : ℕ) : Prop :=
  i < g.next ∧ (g.published = some i ∧ g.completed = c ∨ g.retiredAt i = some (c + 1))

/-- INTERNAL: what a load finds. -/
theorem Inv.loaded {g : Grace α} (h : Inv g) {i : ℕ} (hp : g.published = some i) :
    g.Loaded i g.completed :=
  ⟨(h.published_fresh i hp).2, Or.inl ⟨hp, rfl⟩⟩

/-- INTERNAL: a rotation does not change what a reader has loaded. -/
theorem Loaded.rotate {g : Grace α} {i c : ℕ} (h : g.Loaded i c) : g.rotate.Loaded i c := h

/-- INTERNAL: a publication retires what a reader has loaded at most once. -/
theorem Loaded.publish {g : Grace α} {i c : ℕ} (h : g.Loaded i c) (hg : Inv g) (x : α) :
    (g.publish x).Loaded i c := by
  obtain ⟨hlt, hp | hr⟩ := h
  · refine ⟨Nat.lt_succ_of_lt hlt, Or.inr ?_⟩
    simp only [Grace.publish]
    rw [if_pos hp.1, hp.2]
  · refine ⟨Nat.lt_succ_of_lt hlt, Or.inr ?_⟩
    have hne : g.published ≠ some i := by
      intro hp
      rw [(hg.published_fresh i hp).1] at hr
      cases hr
    simp only [Grace.publish]
    rw [if_neg hne]
    exact hr

/-- INTERNAL: a mutation that publishes nothing finds nothing published. -/
theorem Loaded.skip {g : Grace α} {i c : ℕ} (h : g.Loaded i c) (hp : g.published = none) :
    g.skip.Loaded i c := by
  obtain ⟨hlt, hpub | hr⟩ := h
  · rw [hp] at hpub
    cases hpub.1
  · exact ⟨hlt, Or.inr hr⟩

/-- INTERNAL: the contents of a loaded snapshot never change. -/
theorem Loaded.heap_publish {g : Grace α} {i c : ℕ} (h : g.Loaded i c) (x : α) :
    (g.publish x).heap i = g.heap i := by
  simp only [Grace.publish]
  exact Function.update_of_ne (Nat.ne_of_lt h.1) _ _

/-- INTERNAL: **the exact grace period.** A snapshot loaded when `c` mutations were
complete is freed as soon as three further mutations have rotated, and no earlier. -/
theorem Loaded.freed_iff {g : Grace α} {i c : ℕ} (h : g.Loaded i c) (hg : Inv g) :
    i ∈ g.freed ↔ c + 3 ≤ g.rotations := by
  rw [hg.freed_iff]
  obtain ⟨-, ⟨hp, hc⟩ | hr⟩ := h
  · rw [(hg.published_fresh i hp).1]
    have := hg.lag
    simp only [reduceCtorEq, false_and, exists_false, false_iff]
    omega
  · simp only [hr, Option.some.injEq, exists_eq_left']

end Grace

end MmapShield.Computation
