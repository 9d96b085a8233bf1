import Mathlib.Data.List.Basic
import Mathlib.Logic.Basic

/-!
# Tables of locks

Owners hold locks of several kinds. Whether two kinds go together is `fits`; a lock is granted
to an owner when it goes together with every lock that another owner holds, and a release takes
away all that an owner holds. `Peaceful` says that the locks of different owners go together,
which grants and releases keep.
-/

set_option autoImplicit false

namespace MmapShield.Computation

variable {η μ : Type} [DecidableEq η]

/-- The locks that are held, each with its owner. -/
abbrev LockTable (η μ : Type) := List (η × μ)

namespace LockTable

/-- The lock `m` goes together with the locks of all owners but `h`. -/
def admits (fits : μ → μ → Bool) (held : LockTable η μ) (h : η) (m : μ) : Bool :=
  held.all fun l => l.1 == h || fits l.2 m

/-- The owner `h` gets the lock `m`. -/
def acquire (held : LockTable η μ) (h : η) (m : μ) : LockTable η μ := (h, m) :: held

/-- The owner `h` gives up what it holds. -/
def release (held : LockTable η μ) (h : η) : LockTable η μ := held.filter fun l => l.1 != h

/-- The owner holds nothing. -/
def Free (held : LockTable η μ) (h : η) : Prop := ∀ m, (h, m) ∉ held

/-- The locks of different owners go together. -/
def Peaceful (fits : μ → μ → Bool) (held : LockTable η μ) : Prop :=
  ∀ a ∈ held, ∀ b ∈ held, a.1 ≠ b.1 → fits a.2 b.2 = true

/-- The locks of the owners that `keep` keeps. -/
def restrict (held : LockTable η μ) (keep : η → Bool) : LockTable η μ :=
  held.filter fun l => keep l.1

variable {fits : μ → μ → Bool} {held : LockTable η μ} {h k : η} {m : μ}

omit [DecidableEq η] in
/-- INTERNAL: an acquired lock is held, and so are the others. -/
@[simp] theorem mem_acquire {l : η × μ} : l ∈ held.acquire h m ↔ l = (h, m) ∨ l ∈ held :=
  List.mem_cons

/-- INTERNAL: a release gives up the locks of its holder and no other. -/
@[simp] theorem mem_release {l : η × μ} : l ∈ held.release h ↔ l ∈ held ∧ l.1 ≠ h := by
  simp [release]

/-- INTERNAL: a grant keeps the peace. -/
theorem Peaceful.acquire (hp : Peaceful fits held) (hsymm : ∀ x y, fits x y = fits y x)
    (hadmits : held.admits fits h m = true) : Peaceful fits (held.acquire h m) := by
  have hnew (l : η × μ) (hl : l ∈ held) (hne : l.1 ≠ h) : fits l.2 m = true := by
    have hfits := List.all_eq_true.mp hadmits l hl
    rw [Bool.or_eq_true, beq_iff_eq] at hfits
    exact hfits.resolve_left hne
  intro a ha b hb hne
  rcases mem_acquire.mp ha with rfl | ha
  · rcases mem_acquire.mp hb with rfl | hb
    · exact absurd rfl hne
    · rw [hsymm]
      exact hnew b hb hne.symm
  · rcases mem_acquire.mp hb with rfl | hb
    · exact hnew a ha hne
    · exact hp a ha b hb hne

/-- INTERNAL: a release keeps the peace. -/
theorem Peaceful.release (hp : Peaceful fits held) (h : η) : Peaceful fits (held.release h) := by
  intro a ha b hb hne
  exact hp a (mem_release.mp ha).1 b (mem_release.mp hb).1 hne

/-- INTERNAL: a holder that has released its locks holds none. -/
theorem free_release (held : LockTable η μ) (h : η) : Free (held.release h) h := by
  intro m hm
  exact (mem_release.mp hm).2 rfl

/-- INTERNAL: who holds nothing has nothing to give up. -/
theorem Free.release_eq (hfree : Free held h) : held.release h = held := by
  rw [release, List.filter_eq_self]
  intro l hl
  rw [bne_iff_ne]
  rintro rfl
  exact hfree l.2 hl

/-- INTERNAL: what a grant adds is the owner's own. -/
theorem release_acquire : (held.acquire h m).release h = held.release h := by
  simp [LockTable.release, acquire]

/-- INTERNAL: a second release changes nothing. -/
theorem release_release : (held.release h).release h = held.release h :=
  (free_release held h).release_eq

/-! ## Fewer owners -/

variable {keep : η → Bool}

/-- INTERNAL: a lock that is granted is granted when fewer owners hold locks. -/
theorem admits_restrict (hadmits : held.admits fits h m = true) :
    (held.restrict keep).admits fits h m = true := by
  refine List.all_eq_true.mpr ?_
  intro l hl
  exact List.all_eq_true.mp hadmits l (List.mem_filter.mp hl).1

omit [DecidableEq η] in
/-- INTERNAL: the lock of a holder that is kept is acquired in the part too. -/
theorem restrict_acquire (hkeep : keep h = true) :
    (held.acquire h m).restrict keep = (held.restrict keep).acquire h m := by
  simp [restrict, acquire, hkeep]

/-- INTERNAL: a release is one in the part too. -/
theorem restrict_release : (held.release h).restrict keep = (held.restrict keep).release h := by
  unfold restrict release
  rw [List.filter_filter, List.filter_filter]
  exact List.filter_congr fun l _ => Bool.and_comm _ _

/-- INTERNAL: an owner that is left out has no locks to give up. -/
theorem restrict_release_self (hdrop : keep h = false) :
    (held.release h).restrict keep = held.restrict keep := by
  unfold restrict release
  rw [List.filter_filter]
  refine List.filter_congr ?_
  intro l _
  by_cases hl : l.1 = h
  · simp [hl, hdrop]
  · simp [hl]

omit [DecidableEq η] in
/-- INTERNAL: owners that hold nothing can be left out. -/
theorem restrict_eq (hfree : ∀ k, keep k = false → Free held k) : held.restrict keep = held := by
  rw [restrict, List.filter_eq_self]
  intro l hl
  by_contra hne
  exact hfree l.1 (Bool.eq_false_iff.mpr hne) l.2 hl

end LockTable

end MmapShield.Computation
