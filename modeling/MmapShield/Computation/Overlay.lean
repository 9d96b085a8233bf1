import Mathlib.Algebra.Group.Nat.Defs
import Mathlib.Logic.Function.Basic

/-!
# Pages that are copied when they are written

Cells over a base, in pages of `size` cells. A write goes through to the base, or into a
private copy of its page that the first write makes. Once the copy is discarded, the cells of
the page are those of the base again.
-/

set_option autoImplicit false

namespace MmapShield.Computation

variable {β : Type*}

/-- The base, and the private copies of pages. -/
structure Overlay (β : Type*) where
  base : ℕ → β
  copies : ℕ → Option (ℕ → β)

/-- What a write of `bs` from `first` on leaves in the cell `i`, if it reaches it. -/
def written (first : ℕ) (bs : List β) (i : ℕ) : Option β :=
  if first ≤ i then bs[i - first]? else none

/-- INTERNAL: what is written at an index depends on its distance from the first. -/
theorem written_shift (a first : ℕ) (bs : List β) (i : ℕ) :
    written (a + first) bs (a + i) = written first bs i := by
  unfold written
  rw [Nat.add_sub_add_left]
  simp only [Nat.add_le_add_iff_left]

namespace Overlay

/-- No page has a copy. -/
def plain (base : ℕ → β) : Overlay β := ⟨base, fun _ => none⟩

/-- The cells of a page. -/
def cells (o : Overlay β) (page : ℕ) : ℕ → β := (o.copies page).getD o.base

/-- What is seen at the index `i`. -/
def peek (size : ℕ) (o : Overlay β) (i : ℕ) : β := o.cells (i / size) i

/-- A write to one cell, through to the base or into the copy of its page. -/
def poke (size : ℕ) (through : Bool) (o : Overlay β) (i : ℕ) (b : β) : Overlay β :=
  if through then { o with base := Function.update o.base i b }
  else { o with
    copies := Function.update o.copies (i / size)
      (some (Function.update (o.cells (i / size)) i b)) }

/-- A write of one cell after the other. -/
def pokeAll (size : ℕ) (through : Bool) : ℕ → List β → Overlay β → Overlay β
  | _, [], o => o
  | i, b :: bs, o => pokeAll size through (i + 1) bs (o.poke size through i b)

/-- The copies of some pages are discarded. -/
def discard (o : Overlay β) (pages : ℕ → Bool) : Overlay β :=
  { o with copies := fun page => if pages page then none else o.copies page }

variable {size : ℕ} {through : Bool} {o : Overlay β}

/-- INTERNAL: where nothing is copied, the base is seen. -/
theorem peek_of_uncopied {i : ℕ} (h : o.copies (i / size) = none) : o.peek size i = o.base i := by
  simp only [peek, cells, h, Option.getD_none]

/-- INTERNAL: a cell after a write to one. -/
theorem peek_poke (h : through = true → ∀ page, o.copies page = none) (i j : ℕ) (b : β) :
    (o.poke size through i b).peek size j = if j = i then b else o.peek size j := by
  cases through with
  | true =>
    have hafter : (o.poke size true i b).copies (j / size) = none := h rfl _
    rw [peek_of_uncopied hafter, peek_of_uncopied (h rfl _)]
    simp only [poke, if_true, Function.update_apply]
  | false =>
    by_cases hpage : j / size = i / size
    · simp [poke, peek, cells, hpage, Function.update_apply]
    · have hne : j ≠ i := by
        rintro rfl
        exact hpage rfl
      simp [poke, peek, cells, Function.update_of_ne hpage, hne]

/-- INTERNAL: writes that go through to the base copy nothing. -/
theorem pokeAll_through_copies (i : ℕ) (bs : List β) (o : Overlay β) :
    (pokeAll size true i bs o).copies = o.copies := by
  induction bs generalizing i o with
  | nil => rfl
  | cons b bs ih =>
      rw [pokeAll, ih]
      rfl

/-- INTERNAL: **a write leaves its bytes in the cells it reaches, and the others alone.** -/
theorem peek_pokeAll (h : through = true → ∀ page, o.copies page = none) (i : ℕ) (bs : List β)
    (j : ℕ) :
    (pokeAll size through i bs o).peek size j = (written i bs j).getD (o.peek size j) := by
  induction bs generalizing i o with
  | nil =>
      unfold written
      split <;> rfl
  | cons b bs ih =>
      have hnext : through = true → ∀ page, (o.poke size through i b).copies page = none := by
        intro hthrough page
        rw [poke, if_pos hthrough]
        exact h hthrough page
      rw [pokeAll, ih hnext, peek_poke h]
      unfold written
      by_cases hlt : i + 1 ≤ j
      · obtain ⟨k, rfl⟩ : ∃ k, j = i + 1 + k := ⟨j - (i + 1), by omega⟩
        have hsub : i + 1 + k - i = k + 1 := by omega
        have hfirst : i ≤ i + 1 + k := by omega
        have hne : i + 1 + k ≠ i := by omega
        rw [if_pos hlt, if_pos hfirst, if_neg hne, hsub, List.getElem?_cons_succ,
          Nat.add_sub_cancel_left]
      · by_cases heq : j = i
        · subst heq
          rw [if_neg hlt]
          simp
        · have hbefore : ¬ i ≤ j := by omega
          rw [if_neg hlt, if_neg hbefore, if_neg heq]

/-- INTERNAL: a cell of a discarded page is that of the base. -/
theorem peek_discard (o : Overlay β) (pages : ℕ → Bool) (i : ℕ) :
    (o.discard pages).peek size i =
      if pages (i / size) = true then o.base i else o.peek size i := by
  unfold discard peek cells
  dsimp only
  split <;> rfl

end Overlay

end MmapShield.Computation
