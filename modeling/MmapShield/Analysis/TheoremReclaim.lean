import MmapShield.Model.Registry

/-!
# Where the snapshots of the registry are

`register` and `unregister` run under the mutex from their first step to their last, so what
they do to the snapshots is a sequence of whole calls, each of them a rotation of the two
retired lists and then either a publication or the early return of `unregister`.
`reclamation_exact` is about every such sequence: between two calls, and after the rotation
inside of one, every snapshot that was allocated is in exactly one place, the published one is
in none of the lists, and a snapshot is freed by the rotation of the second call after the one
that retired it.

The bookkeeping itself is the library's `Grace`; here its two halves are the calls of the source.
-/

set_option autoImplicit false

namespace MmapShield.Analysis.Reclaim

open MmapShield.Computation MmapShield.Model

/-- The registry after the first `k` calls. -/
def after (ops : List Mutation) (k : ℕ) : Registry :=
  (ops.take k).foldl (fun r op => op.apply r) Registry.new

/-- Every allocated snapshot is published, in `current`, in `previous` or freed, and only in one
of these places and there only once; the published one is not retired; none is freed twice. -/
structure Exact (r : Registry) : Prop where
  published : ∀ i, r.published = some i → i ∉ r.current ∧ i ∉ r.previous ∧ i ∉ r.freed
  partition : (r.published.toList ++ (r.current ++ r.previous ++ r.freed)).Perm
    (List.range r.next)
  once : r.freed.Nodup

/-- INTERNAL: the bookkeeping of the library says where every snapshot is. -/
theorem exact_of_inv {r : Registry} (h : Grace.Inv r) : Exact r where
  published := by
    intro i hi
    have hfresh := (h.published_fresh i hi).1
    refine ⟨?_, ?_, ?_⟩
    · intro hmem
      exact h.retired (Or.inl hmem) hfresh
    · intro hmem
      exact h.retired (Or.inr (Or.inl hmem)) hfresh
    · intro hmem
      exact h.retired (Or.inr (Or.inr hmem)) hfresh
  partition := h.partition
  once := (List.nodup_append.mp h.nodup).2.1

/-! ## One call -/

/-- INTERNAL: a call is a rotation and a publication, or a rotation and nothing when there is
no snapshot.
SOURCE: signal/registry.rs:75-127 -/
theorem apply_cases (op : Mutation) (r : Registry) :
    (∃ regions, op.apply r = Grace.publish (rotateRetired r) regions) ∨
      (r.published = none ∧ op.apply r = Grace.skip (rotateRetired r)) := by
  unfold Mutation.apply
  dsimp only
  cases hedit : op.edit (Grace.snapshot (rotateRetired r)) with
  | some regions => exact Or.inl ⟨regions, rfl⟩
  | none =>
      obtain ⟨hnone, -⟩ := edit_eq_none hedit
      exact Or.inr ⟨Option.map_eq_none_iff.mp hnone, rfl⟩

/-- The bookkeeping between two calls, of which there have been `k`. -/
structure Between (k : ℕ) (r : Registry) : Prop where
  inv : Grace.Inv r
  rotations : r.rotations = k
  completed : r.completed = k

/-- INTERNAL: the rotation that begins a mutation keeps the invariant.
SOURCE: signal/registry.rs:170-175 -/
theorem Between.rotated {k : ℕ} {r : Registry} (h : Between k r) :
    Grace.Inv (rotateRetired r) := by
  rw [rotateRetired_eq]
  exact h.inv.rotate (h.rotations.trans h.completed.symm)

/-- INTERNAL: **a call keeps the bookkeeping in order.**
SOURCE: signal/registry.rs:75-127 -/
theorem Between.apply {k : ℕ} {r : Registry} (h : Between k r) (op : Mutation) :
    Between (k + 1) (op.apply r) := by
  have hrotations : (rotateRetired r).rotations = k + 1 := by
    rw [← h.rotations]
    rfl
  have hhalf : (rotateRetired r).rotations = (rotateRetired r).completed + 1 := by
    rw [hrotations, ← h.completed]
    rfl
  have hcompleted : (rotateRetired r).completed + 1 = k + 1 := by
    rw [← hhalf, hrotations]
  rcases apply_cases op r with ⟨regions, happly⟩ | ⟨-, happly⟩
  · rw [happly]
    exact ⟨h.rotated.publish hhalf regions, hrotations, hcompleted⟩
  · rw [happly]
    exact ⟨h.rotated.skip hhalf, hrotations, hcompleted⟩

/-- INTERNAL: a call does not forget when a snapshot was retired. -/
theorem loaded_apply {r : Registry} {k i c : ℕ} (h : Between k r) (hi : Grace.Loaded r i c)
    (op : Mutation) : Grace.Loaded (op.apply r) i c := by
  rcases apply_cases op r with ⟨regions, happly⟩ | ⟨hnone, happly⟩
  · rw [happly]
    exact Grace.Loaded.publish (Grace.Loaded.rotate hi) h.rotated regions
  · rw [happly]
    exact Grace.Loaded.skip (Grace.Loaded.rotate hi) hnone

/-- INTERNAL: what is freed stays freed. -/
theorem freed_apply (r : Registry) (op : Mutation) {i : ℕ} (hi : i ∈ r.freed) :
    i ∈ (op.apply r).freed := by
  have hrotated : i ∈ (rotateRetired r).freed := List.mem_append_left _ hi
  rcases apply_cases op r with ⟨regions, happly⟩ | ⟨-, happly⟩
  · rw [happly]
    exact hrotated
  · rw [happly]
    exact hrotated

/-! ## All calls -/

variable {ops : List Mutation}

/-- INTERNAL: one mutation more. -/
theorem after_succ {k : ℕ} (hk : k < ops.length) :
    after ops (k + 1) = ops[k].apply (after ops k) := by
  unfold after
  rw [List.take_succ_eq_append_getElem hk, List.foldl_append]
  rfl

/-- INTERNAL: the bookkeeping is in order after every number of calls. -/
theorem between_after {k : ℕ} (hk : k ≤ ops.length) : Between k (after ops k) := by
  induction k with
  | zero => exact ⟨Grace.inv_start [], rfl, rfl⟩
  | succ k ih =>
      rw [after_succ hk]
      exact (ih (Nat.le_of_succ_le hk)).apply ops[k]

/-- INTERNAL: a snapshot that the `k + 1`-st call has retired is known to be so ever after. -/
theorem loaded_after {k n i c : ℕ} (hi : Grace.Loaded (after ops k) i c)
    (hn : k + n ≤ ops.length) : Grace.Loaded (after ops (k + n)) i c := by
  induction n with
  | zero => exact hi
  | succ n ih =>
      have hlt : k + n < ops.length := hn
      rw [← Nat.add_assoc, after_succ hlt]
      exact loaded_apply (between_after (Nat.le_of_lt hlt)) (ih (Nat.le_of_lt hlt)) ops[k + n]

/-- INTERNAL: the freed snapshots only become more. -/
theorem freed_after {k n i : ℕ} (hi : i ∈ (after ops k).freed) (hn : k + n ≤ ops.length) :
    i ∈ (after ops (k + n)).freed := by
  induction n with
  | zero => exact hi
  | succ n ih =>
      have hlt : k + n < ops.length := hn
      rw [← Nat.add_assoc, after_succ hlt]
      exact freed_apply _ _ (ih (Nat.le_of_lt hlt))

/-- INTERNAL: what is in `current` after `k` calls was retired by the `k`-th of them. -/
theorem loaded_current {k i : ℕ} (hk : k ≤ ops.length) (hi : i ∈ (after ops k).current) :
    ∃ c, k = c + 1 ∧ Grace.Loaded (after ops k) i c := by
  have hbetween := between_after hk
  have hretired := (hbetween.inv.current_iff i).mp hi
  rw [hbetween.rotations] at hretired
  cases k with
  | zero => cases hi
  | succ c =>
      refine ⟨c, rfl, ?_, Or.inr hretired⟩
      by_contra hge
      rw [hbetween.inv.unallocated i (Nat.le_of_not_lt hge)] at hretired
      cases hretired

/-- INTERNAL: **when a snapshot is freed**, between two calls: two calls after the one that
retired it.
SOURCE: signal/registry.rs:155-175 -/
theorem freed_iff {j k i : ℕ} (hk : k ≤ ops.length) (hj : j ≤ ops.length)
    (hi : i ∈ (after ops k).current) : i ∈ (after ops j).freed ↔ k + 2 ≤ j := by
  rcases Nat.lt_or_ge j k with hlt | hge
  · -- before it is retired it is not freed, because the freed ones stay so
    refine iff_of_false ?_ (by omega)
    intro hfreed
    have hlater : i ∈ (after ops k).freed := by
      have := freed_after hfreed (show j + (k - j) ≤ ops.length by omega)
      rwa [show j + (k - j) = k by omega] at this
    have hnodup := (between_after hk).inv.nodup
    exact (List.nodup_append.mp hnodup).2.2 i (List.mem_append_left _ hi) i hlater rfl
  · obtain ⟨c, rfl, hloaded⟩ := loaded_current hk hi
    have hlater : Grace.Loaded (after ops j) i c := by
      have := loaded_after hloaded (show c + 1 + (j - (c + 1)) ≤ ops.length by omega)
      rwa [show c + 1 + (j - (c + 1)) = j by omega] at this
    rw [hlater.freed_iff (between_after hj).inv, (between_after hj).rotations]

/-- INTERNAL: a call frees what its rotation frees, and nothing else.
SOURCE: signal/registry.rs:75-127 -/
theorem freed_succ {k : ℕ} (hk : k < ops.length) :
    (after ops (k + 1)).freed = (rotateRetired (after ops k)).freed := by
  rw [after_succ hk]
  rcases apply_cases ops[k] (after ops k) with ⟨regions, happly⟩ | ⟨-, happly⟩
  · rw [happly]
    rfl
  · rw [happly]
    rfl

/-- INTERNAL: the next call retires what is published. -/
theorem published_retired {k i : ℕ} (hk : k < ops.length) (hi : (after ops k).published = some i) :
    i ∈ (after ops (k + 1)).current := by
  have hbefore := between_after (Nat.le_of_lt hk)
  have hafter := between_after (show k + 1 ≤ ops.length from hk)
  have hloaded : Grace.Loaded (after ops (k + 1)) i k := by
    have := hbefore.inv.loaded hi
    rw [hbefore.completed] at this
    exact loaded_after this hk
  rw [hafter.inv.current_iff, hafter.rotations]
  obtain ⟨-, ⟨-, hcompleted⟩ | hretired⟩ := hloaded
  · have := hafter.completed
    omega
  · exact hretired

/-- INTERNAL: no more than three snapshots are in memory.
SOURCE: signal/registry.rs:47-50 -/
theorem Between.bounded {k : ℕ} {r : Registry} (h : Between k r) :
    r.current.length + r.previous.length ≤ 2 ∧ r.next ≤ r.freed.length + 3 := by
  have hcurrent := h.inv.length_current
  have hprevious := h.inv.length_previous
  have hpublished : r.published.toList.length ≤ 1 := by
    cases r.published <;> simp
  have hall := h.inv.partition.length_eq
  rw [List.length_append, List.length_append, List.length_append, List.length_range] at hall
  omega

/-- RESULT: **the reclamation of snapshots is exact.** For every sequence of calls of `register`
and `unregister`: between the calls and after the rotation inside of each, every allocated
snapshot is in exactly one place, the published one is not retired and none is freed twice. The
snapshot that is published after `k` calls is retired by the next one; one that the `k`-th call
has retired is freed by the rotation of the `k + 2`-nd and by no earlier one; and after each call
at most two are retired and not freed, so that all but three of those ever allocated are freed.
SOURCE: signal/registry.rs:75-127, 155-175 -/
theorem reclamation_exact (ops : List Mutation) :
    (∀ k ≤ ops.length, Exact (after ops k)) ∧
    (∀ k < ops.length, Exact (rotateRetired (after ops k))) ∧
    (∀ k < ops.length, ∀ i, (after ops k).published = some i → i ∈ (after ops (k + 1)).current) ∧
    (∀ k ≤ ops.length, ∀ i ∈ (after ops k).current,
      (∀ j < ops.length, i ∈ (rotateRetired (after ops j)).freed ↔ k + 2 ≤ j + 1) ∧
      (∀ j ≤ ops.length, i ∈ (after ops j).freed ↔ k + 2 ≤ j)) ∧
    (∀ k ≤ ops.length,
      (after ops k).current.length + (after ops k).previous.length ≤ 2 ∧
      (after ops k).next ≤ (after ops k).freed.length + 3) := by
  refine ⟨?_, ?_, ?_, ?_, ?_⟩
  · intro k hk
    exact exact_of_inv (between_after hk).inv
  · intro k hk
    exact exact_of_inv (between_after (Nat.le_of_lt hk)).rotated
  · intro k hk i hi
    exact published_retired hk hi
  · intro k hk i hi
    refine ⟨?_, ?_⟩
    · intro j hj
      rw [← freed_succ hj]
      exact freed_iff hk hj hi
    · intro j hj
      exact freed_iff hk hj hi
  · intro k hk
    exact (between_after hk).bounded

/-- An `unregister` before any `register`, and then four calls. -/
def fiveCalls : List Mutation :=
  [.unregister 0x10000, .register 0x10000 4096, .register 0x20000 4096, .unregister 0x10000,
    .unregister 0x20000]

/-- `reclamation_exact` is about lists that are not empty: the first snapshot of `fiveCalls` is
retired by the third call and freed by the rotation of the fifth. -/
theorem reclamation_exact_fiveCalls :
    0 ∈ (after fiveCalls 3).current ∧ 0 ∉ (rotateRetired (after fiveCalls 3)).freed ∧
      0 ∈ (rotateRetired (after fiveCalls 4)).freed := by
  obtain ⟨-, -, hretired, hfreed, -⟩ := reclamation_exact fiveCalls
  have hthird : 0 ∈ (after fiveCalls 3).current := hretired 2 (by decide) 0 rfl
  have hwhen := (hfreed 3 (by decide) 0 hthird).1
  refine ⟨hthird, ?_, ?_⟩
  · rw [hwhen 3 (by decide)]
    decide
  · exact (hwhen 4 (by decide)).mpr (Nat.le_refl 5)

end MmapShield.Analysis.Reclaim
