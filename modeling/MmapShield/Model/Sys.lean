import MmapShield.Model.Error
import Mathlib.Logic.Basic

/-!
# The system call wrappers

`sys/mmap.rs`: the builder of a raw mapping and the handle it returns. A system call
is a function from its arguments to the answer of the kernel, so a failing call is a
function that answers with an error. The page size is an argument wherever the code
asks for it.
-/

set_option autoImplicit false

namespace MmapShield.Model

/-- `usize::checked_add`. -/
def checkedAdd (a b : Usize) : Option Usize :=
  if a.toNat + b.toNat < 2 ^ 64 then some (a + b) else none

/-- SOURCE: sys/mmap.rs:43-53 -/
inductive Protection
  | read
  | readWrite
  | none
  deriving DecidableEq, Repr

/-- SOURCE: sys/mmap.rs:64-66 -/
def Protection.isWritable : Protection → Bool
  | .readWrite => true
  | _ => false

/-- SOURCE: sys/mmap.rs:73-81 -/
inductive Visibility
  | privateMap
  | shared
  deriving DecidableEq, Repr

/-- The arguments of `mmap(2)` that the wrapper sets.
SOURCE: sys/mmap.rs:266-275 -/
structure MmapCall where
  len : Usize
  prot : Protection
  visibility : Visibility
  anonymous : Bool
  populate : Bool
  fd : ℤ
  offset : UInt64
  deriving DecidableEq, Repr

/-- SOURCE: sys/mmap.rs:315-319 -/
structure RawMmap where
  ptr : Usize
  len : Usize
  writable : Bool
  deriving DecidableEq, Repr

/-- SOURCE: sys/mmap.rs:121-128 -/
structure MmapOptions where
  len : Usize
  fd : Option ℤ
  offset : UInt64
  protection : Protection
  visibility : Visibility
  populate : Bool
  deriving DecidableEq, Repr

/-- SOURCE: sys/mmap.rs:138-147 -/
def MmapOptions.new (len : Usize) : MmapOptions where
  len := len
  fd := none
  offset := 0
  protection := .read
  visibility := .privateMap
  populate := false

/-- The arguments that `MmapOptions::map` passes to `mmap(2)`; a builder without a
file descriptor asks for an anonymous mapping.
SOURCE: sys/mmap.rs:246-275 -/
def MmapOptions.call (self : MmapOptions) : MmapCall where
  len := self.len
  prot := self.protection
  visibility := self.visibility
  anonymous := self.fd.isNone
  populate := self.populate
  fd := self.fd.getD (-1)
  offset := self.offset

/-- SOURCE: sys/mmap.rs:227-286 -/
def MmapOptions.map (self : MmapOptions) (page : Usize)
    (mmap : MmapCall → Except IoError Usize) : Except IoError RawMmap :=
  if self.len = 0 then
    .error (.new .invalidInput "length must be non-zero")
  else if self.offset % page ≠ 0 then
    .error (.new .invalidInput
      ("offset " ++ toString self.offset ++ " is not page-aligned (page size: "
        ++ toString page ++ ")"))
  else
    match mmap self.call with
    | .error e => .error e
    | .ok rawPtr =>
      .ok { ptr := rawPtr, len := self.len, writable := self.protection.isWritable }

/-- SOURCE: sys/mmap.rs:388-390 -/
def RawMmap.asMutPtr (self : RawMmap) : Option Usize :=
  if self.writable then some self.ptr else none

/-- INTERNAL: what a successful `map` has checked, and what it returns.
SOURCE: sys/mmap.rs:227-286 -/
theorem MmapOptions.map_ok {self : MmapOptions} {page : Usize}
    {mmap : MmapCall → Except IoError Usize} {raw : RawMmap}
    (h : self.map page mmap = .ok raw) :
    self.len ≠ 0 ∧ self.offset % page = 0 ∧ mmap self.call = .ok raw.ptr ∧
      raw.len = self.len ∧ raw.writable = self.protection.isWritable := by
  unfold MmapOptions.map at h
  split at h
  · cases h
  · rename_i hlen
    split at h
    · cases h
    · rename_i hoff
      cases hm : mmap self.call with
      | error e => simp [hm] at h
      | ok p =>
        simp only [hm, Except.ok.injEq] at h
        subst h
        exact ⟨hlen, not_not.mp hoff, rfl, rfl, rfl⟩

end MmapShield.Model
