import MmapShield.Model.Advice
import Mathlib.Logic.Function.Basic

/-!
# Pages that are locked into memory

The mappings of a process, with the operations that pin pages, let them go again, drop them from
memory and ask which are there. Pages are numbered by their address. `mmaps` are the mappings that
the process may come to have; a place that one has left may be taken by another one.

`mlock(2)` and `munlock(2)` round their range out to whole pages. Locks do not stack: one `munlock`
undoes them all. A successful `mlock` brings its pages into memory. One that fails may have locked
any pages of its range before, in memory or not, and a `munlock` that fails may have unlocked any.
A locked page that is in memory stays there, and no range with a locked page can be discarded.
Pages that are not locked come and go at any time. Nobody cuts the files meanwhile.
-/

set_option autoImplicit false

namespace MmapShield.Model

namespace RawMmap

/-- A system call on the whole mapping. -/
def wholeCall (kernel : RangeKernel) (call : RangeCall) : RangeOutcome Unit :=
  match kernel.errno call with
  | some errno => ⟨.error (.lastOsError errno), [call]⟩
  | none => ⟨.ok (), [call]⟩

/-- SOURCE: sys/mmap.rs:558-566 -/
def lock (self : RawMmap) (kernel : RangeKernel) : RangeOutcome Unit :=
  wholeCall kernel (.mlock self.ptr self.len)

/-- SOURCE: sys/mmap.rs:569-577 -/
def unlock (self : RawMmap) (kernel : RangeKernel) : RangeOutcome Unit :=
  wholeCall kernel (.munlock self.ptr self.len)

end RawMmap

/-- The mappings that are live, the pages that are locked and those that are in memory. -/
structure Pinning (ι : Type) where
  live : List ι
  locked : ℕ → Bool
  resident : ℕ → Bool

/-- An operation on a mapping with what the kernel answers this time, or a page that the kernel
brings into memory or takes out of it. -/
inductive PinAct (ι : Type)
  | map (i : ι)
  | drop (i : ι)
  | lockRange (i : ι) (kernel : PageKernel) (offset len : Usize)
  | unlockRange (i : ι) (kernel : PageKernel) (offset len : Usize)
  | lock (i : ι) (kernel : PageKernel)
  | unlock (i : ι) (kernel : PageKernel)
  | adviseRange (i : ι) (kernel : PageKernel) (advice : Advice) (offset len : Usize)
  | residentPages (i : ι) (kernel : PageKernel) (offset len : Usize)
  | paging (p : ℕ) (resident : Bool)

/-- The pages of a range of addresses, rounded out. -/
def spans (page ptr len : Usize) (p : ℕ) : Bool :=
  decide (ptr.toNat / page.toNat ≤ p ∧ p * page.toNat < ptr.toNat + len.toNat)

/-- The pages of a mapping. -/
def RawMmap.hasPage (self : RawMmap) (page : Usize) (p : ℕ) : Bool := spans page self.ptr self.len p

/-- No byte belongs to both mappings. -/
def RawMmap.apart (self other : RawMmap) : Bool :=
  decide (self.ptr.toNat + self.len.toNat ≤ other.ptr.toNat ∨
    other.ptr.toNat + other.len.toNat ≤ self.ptr.toNat)

namespace Pinning

variable {ι : Type} [DecidableEq ι]

/-- No mapping yet, and no page is locked. -/
def init (ι : Type) (resident : ℕ → Bool) : Pinning ι where
  live := []
  locked := fun _ => false
  resident := resident

omit [DecidableEq ι] in
/-- Whether the kernel may answer a system call with success, and with these status bytes. -/
def admits (page : Usize) (kernel : RangeKernel) (s : Pinning ι) : RangeCall → Bool
  | .madvise ptr len .dontNeed =>
    (List.range ((ptr.toNat + len.toNat) / page.toNat + 1)).all fun p =>
      !(spans page ptr len p && s.locked p)
  | .mincore ptr len _ =>
    (List.range ((len.toNat + page.toNat - 1) / page.toNat)).all fun n =>
      (kernel.status (ptr + page * UInt64.ofNat n) &&& 1 != 0) ==
        s.resident (ptr.toNat / page.toNat + n)
  | _ => true

omit [DecidableEq ι] in
/-- What a system call does, whether it succeeds or fails. -/
def effect (page : Usize) (kernel : PageKernel) (s : Pinning ι) : RangeCall → Pinning ι
  | .mlock ptr len =>
    { s with
      locked := fun p =>
        spans page ptr len p && kernel.reaches (.mlock ptr len) p || s.locked p
      resident := fun p =>
        spans page ptr len p && (kernel.errno (.mlock ptr len)).isNone || s.resident p }
  | .munlock ptr len =>
    { s with
      locked := fun p =>
        !(spans page ptr len p && kernel.reaches (.munlock ptr len) p) && s.locked p }
  | _ => s

/-- The system calls of an operation that returned; the kernel says what it does when it
succeeds. -/
def issue {ρ : Type} (page : Usize) (kernel : PageKernel) (s : Pinning ι) (i : ι)
    (o : RangeOutcome ρ) : Option (Pinning ι) :=
  if i ∈ s.live ∧ (o.result.isOk → o.calls.all (admits page kernel.toRangeKernel s)) then
    some (o.calls.foldl (effect page kernel) s)
  else none

/-- One operation, or one page that comes or goes.
SOURCE: mmap/mod.rs:646-648, 709-711, 733-735, 869-871, 908-954, sys/mmap.rs:558-589 -/
def step (mmaps : ι → SafeMmap) (page : Usize) (act : PinAct ι) (s : Pinning ι) :
    Option (Pinning ι) :=
  match act with
  | .map i =>
    if i ∉ s.live ∧ (s.live.all fun j => (mmaps i).raw.apart (mmaps j).raw) = true then
      some { s with live := i :: s.live }
    else none
  | .drop i =>
    if i ∈ s.live then
      some { s with
        live := s.live.filter fun j => j != i
        locked := fun p => !(mmaps i).raw.hasPage page p && s.locked p }
    else none
  | .lockRange i kernel offset len =>
    s.issue page kernel i ((mmaps i).lockRange kernel.toRangeKernel offset len)
  | .unlockRange i kernel offset len =>
    s.issue page kernel i ((mmaps i).unlockRange kernel.toRangeKernel offset len)
  | .lock i kernel => s.issue page kernel i ((mmaps i).raw.lock kernel.toRangeKernel)
  | .unlock i kernel => s.issue page kernel i ((mmaps i).raw.unlock kernel.toRangeKernel)
  | .adviseRange i kernel advice offset len =>
    s.issue page kernel i ((mmaps i).adviseRange page kernel.toRangeKernel advice offset len)
  | .residentPages i kernel offset len =>
    s.issue page kernel i ((mmaps i).residentPages page kernel.toRangeKernel offset len)
  | .paging p resident =>
    if s.locked p && !resident then none
    else some { s with resident := Function.update s.resident p resident }

end Pinning

end MmapShield.Model
