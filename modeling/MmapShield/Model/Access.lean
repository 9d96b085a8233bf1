import MmapShield.Model.Open
import Mathlib.Tactic.Basic

/-!
# Safe accesses to one mapping

The accessors of `SafeMmap` and `ReadGuard::read` (`mmap/mod.rs:503-839`,
`mmap/guard.rs`), each as a whole and without another thread in between. The
touches that an access makes fault as the `Memory` says, which may differ from touch to
touch. An access returns its result with everything it did: the addresses it touched,
how many closures of the caller it started, the events it emitted and the mapping
afterwards. `Session.step` is one operation of a thread that uses one mapping.
-/

set_option autoImplicit false

namespace MmapShield.Model

/-- The memory during one access: the byte at an address, and whether the `n`-th touch
of the access, at that address, raises SIGBUS. -/
structure Memory where
  bytes : Usize → UInt8
  faults : ℕ → Usize → Bool

/-- A closure over a byte slice: the indices it reads in a slice of a given length, all of
them inside, and what it makes of the bytes. -/
structure Closure (ρ : Type) where
  touches : Usize → List Usize
  value : List UInt8 → ρ
  inside : ∀ len, ∀ i ∈ touches len, i < len

/-- A byte slice of the caller; no slice is longer than `isize::MAX`. -/
structure Slice where
  bytes : List UInt8
  small : bytes.length < 2 ^ 63

/-- SOURCE: mmap/mod.rs:556, 817 -/
def Slice.len (s : Slice) : Usize := UInt64.ofNat s.bytes.length

/-- The words `0, 1, ..., n - 1`. -/
def wordsBelow (n : Usize) : List Usize := (List.range n.toNat).map UInt64.ofNat

/-- The bytes of the slice that starts at `ptr`. -/
def Memory.slice (mem : Memory) (ptr len : Usize) : List UInt8 :=
  (wordsBelow len).map fun i => mem.bytes (ptr + i)

/-- Touches the addresses in order, the first of them as the `n`-th touch of the access, up
to the first that faults. The result is that of the call of `with_sigbus_protection`
around them. -/
def Memory.touchAll (mem : Memory) (n : ℕ) : List Usize → List Usize × Except Usize Unit
  | [] => ([], .ok ())
  | addr :: rest =>
    if mem.faults n addr then ([addr], .error addr)
    else
      let (touched, result) := mem.touchAll (n + 1) rest
      (addr :: touched, result)

/-- What an access returned, and everything it did. -/
structure Outcome (ρ : Type) where
  result : Except AccessError ρ
  touched : List Usize
  closures : ℕ
  events : List MmapEvent
  mmap : SafeMmap

variable {ρ : Type}

/-- The result of a read through a guard, with its touches and the closures it started. -/
structure GuardOutcome (ρ : Type) where
  result : Except AccessError ρ
  touched : List Usize
  closures : ℕ

/-- SOURCE: mmap/guard.rs:93-128 -/
def ReadGuard.read (raw : RawMmap) (mem : Memory) (n : ℕ) (offset len : Usize)
    (f : Closure ρ) : GuardOutcome ρ :=
  if (checkedAdd offset len).elim true fun stop => decide (stop > raw.len) then
    ⟨.error (.outOfBounds offset len raw.len), [], 0⟩
  else
    let slicePtr := raw.ptr + offset
    match mem.touchAll n ((f.touches len).map fun i => slicePtr + i) with
    | (touched, .ok ()) => ⟨.ok (f.value (mem.slice slicePtr len)), touched, 1⟩
    | (touched, .error faultAddress) => ⟨.error (.sigbus faultAddress), touched, 1⟩

namespace SafeMmap

/-- SOURCE: mmap/mod.rs:1013-1020 -/
def checkPoisoned (self : SafeMmap) : Except AccessError Unit :=
  if self.poisoned then .error (.poisoned self.sigbusCount) else .ok ()

/-- SOURCE: mmap/mod.rs:1022-1037 -/
def checkBounds (self : SafeMmap) (offset len : Usize) : Except AccessError Unit :=
  match checkedAdd offset len with
  | none => .error (.outOfBounds offset len self.raw.len)
  | some stop =>
    if stop > self.raw.len then .error (.outOfBounds offset len self.raw.len) else .ok ()

/-- SOURCE: mmap/mod.rs:1057-1061 -/
def emitEvent (self : SafeMmap) (event : MmapEvent) : List MmapEvent :=
  if self.onEvent then [event] else []

/-- The address that `record_sigbus_from` reports; an error of another kind reports 0.
SOURCE: mmap/mod.rs:1040-1043 -/
def faultAddressOf : AccessError → Usize
  | .sigbus faultAddress => faultAddress
  | _ => 0

/-- The counter is an `AtomicU32`, which wraps.
SOURCE: mmap/mod.rs:1039-1055 -/
def recordSigbusFrom (self : SafeMmap) (err : AccessError) : SafeMmap × List MmapEvent :=
  let count := self.sigbusCount + 1
  let counted := { self with sigbusCount := count }
  let events := self.emitEvent (.sigbus (faultAddressOf err))
  if count ≥ self.maxSigbus then
    ({ counted with poisoned := true }, events ++ self.emitEvent (.poisoned count))
  else (counted, events)

/-- SOURCE: mmap/mod.rs:1008-1011 -/
def resetPoison (self : SafeMmap) : SafeMmap := { self with poisoned := false, sigbusCount := 0 }

/-- An access that returns before it reaches the mapping. -/
def refuse (self : SafeMmap) (e : AccessError) : Outcome ρ := ⟨.error e, [], 0, [], self⟩

/-- An access that did not fault and one that did, with the fault recorded. -/
def settle (self : SafeMmap) (result : Except AccessError ρ) (touched : List Usize)
    (closures : ℕ) : Outcome ρ :=
  match result with
  | .error (.sigbus faultAddress) =>
    let (mmap, events) := self.recordSigbusFrom (.sigbus faultAddress)
    ⟨result, touched, closures, events, mmap⟩
  | _ => ⟨result, touched, closures, [], self⟩

/-- The subtraction wraps, as it does in a release build.
SOURCE: mmap/mod.rs:503-518 -/
def read (self : SafeMmap) (mem : Memory) (start stop : Usize) (f : Closure ρ) : Outcome ρ :=
  match self.checkPoisoned with
  | .error e => self.refuse e
  | .ok () =>
    let g := ReadGuard.read self.raw mem 0 start (stop - start) f
    self.settle g.result g.touched g.closures

/-- The copy between the mapping at `ptr` and a buffer of `len` bytes. The ascending order of
its touches is one choice: `copy_nonoverlapping` promises none, and a `memcpy` that goes through
the bytes in another order faults at another byte of the range.
SOURCE: mmap/mod.rs:570-584, 824-838 -/
def copy (self : SafeMmap) (mem : Memory) (ptr len : Usize) : Outcome Unit :=
  match mem.touchAll 0 ((wordsBelow len).map fun i => ptr + i) with
  | (touched, .ok ()) => self.settle (.ok ()) touched 0
  | (touched, .error faultAddress) => self.settle (.error (.sigbus faultAddress)) touched 0

/-- SOURCE: mmap/mod.rs:556-585 -/
def write (self : SafeMmap) (mem : Memory) (offset : Usize) (data : Slice) : Outcome Unit :=
  match self.checkPoisoned with
  | .error e => self.refuse e
  | .ok () =>
    match self.checkBounds offset data.len with
    | .error e => self.refuse e
    | .ok () =>
      match self.raw.asMutPtr with
      | none => self.refuse (.io (.new .permissionDenied "mapping is read-only"))
      | some dst => self.copy mem (dst + offset) data.len

/-- SOURCE: mmap/mod.rs:815-839 -/
def readInto (self : SafeMmap) (mem : Memory) (offset : Usize) (buf : Slice) : Outcome Unit :=
  match self.checkPoisoned with
  | .error e => self.refuse e
  | .ok () =>
    match self.checkBounds offset buf.len with
    | .error e => self.refuse e
    | .ok () => self.copy mem (self.raw.ptr + offset) buf.len

/-- The closure `|b| b[0]`.
SOURCE: mmap/mod.rs:677 -/
def firstByte : Closure UInt8 where
  touches := fun len => if 0 < len then [0] else []
  value := fun bytes => bytes.headD 0
  inside := by
    intro len i hi
    split at hi
    · rename_i hlen
      rw [List.mem_singleton.mp hi]
      exact hlen
    · cases hi

/-- The loop of `probe` over the positions from `pos` on, for at most `fuel` rounds.
SOURCE: mmap/mod.rs:676-683 -/
def probeLoop (self : SafeMmap) (page : Usize) (mem : Memory) (stop : Usize) :
    ℕ → ℕ → Usize → Option (Except AccessError Unit × List Usize)
  | 0, _, _ => none
  | fuel + 1, n, pos =>
    if pos < stop then
      let g := ReadGuard.read self.raw mem n pos 1 firstByte
      match g.result with
      | .error e => some (.error e, g.touched)
      | .ok _ =>
        (self.probeLoop page mem stop fuel (n + 1) (pos + page)).map fun rest =>
          (rest.1, g.touched ++ rest.2)
    else some (.ok (), [])

/-- `none` says that the loop has not ended after `fuel` rounds. Every error of the loop is
recorded, of whatever kind it is.
SOURCE: mmap/mod.rs:668-686 -/
def probe (self : SafeMmap) (page : Usize) (mem : Memory) (fuel : ℕ) (offset len : Usize) :
    Option (Outcome Unit) :=
  match self.checkPoisoned with
  | .error e => some (self.refuse e)
  | .ok () =>
    match self.checkBounds offset len with
    | .error e => some (self.refuse e)
    | .ok () =>
      (self.probeLoop page mem (offset + len) fuel 0 offset).map fun (result, touched) =>
        match result with
        | .error e =>
          let (mmap, events) := self.recordSigbusFrom e
          ⟨.error e, touched, 0, events, mmap⟩
        | .ok () => ⟨.ok (), touched, 0, [], self⟩

/-- `prefetch_with_timeout` around a call of `prefetch_with_deadline` that returned `result`
while its worker touched `touched`.
SOURCE: mmap/mod.rs:766-787 -/
def prefetchWithTimeout (self : SafeMmap) (offset len : Usize) (result : Except AccessError Unit)
    (touched : List Usize) : Outcome Unit :=
  match self.checkPoisoned with
  | .error e => self.refuse e
  | .ok () =>
    match self.checkBounds offset len with
    | .error e => self.refuse e
    | .ok () =>
      match result with
      | .error (.sigbus faultAddress) => self.settle (.error (.sigbus faultAddress)) touched 0
      | .error (.timeout o l d) =>
        ⟨.error (.timeout o l d), touched, 0, self.emitEvent (.prefetchTimeout offset len), self⟩
      | _ => ⟨result, touched, 0, [], self⟩

/-- INTERNAL: the gate of a poisoned mapping.
SOURCE: mmap/mod.rs:1013-1020 -/
theorem checkPoisoned_poisoned {self : SafeMmap} (h : self.poisoned = true) :
    self.checkPoisoned = .error (.poisoned self.sigbusCount) := by
  unfold checkPoisoned
  rw [if_pos h]

/-- INTERNAL: the gate of a mapping that is not poisoned.
SOURCE: mmap/mod.rs:1013-1020 -/
theorem checkPoisoned_clean {self : SafeMmap} (h : self.poisoned = false) :
    self.checkPoisoned = .ok () := by
  unfold checkPoisoned
  rw [h, if_neg Bool.false_ne_true]

end SafeMmap

/-! ## One thread and its guards -/

/-- One operation on a mapping, with the memory it meets. -/
inductive Access (ρ : Type)
  | read (mem : Memory) (start stop : Usize) (f : Closure ρ)
  | write (mem : Memory) (offset : Usize) (data : Slice)
  | readInto (mem : Memory) (offset : Usize) (buf : Slice)
  | probe (mem : Memory) (fuel : ℕ) (offset len : Usize)
  | prefetchWithTimeout (offset len : Usize) (result : Except AccessError Unit)
      (touched : List Usize)
  | guard
  | guardRead (g : ℕ) (mem : Memory) (offset len : Usize) (f : Closure ρ)
  | resetPoison

/-- The mapping and the number of guards that have been made of it. -/
structure Session where
  mmap : SafeMmap
  guards : ℕ

/-- An outcome without the value. -/
def Outcome.forget (o : Outcome ρ) : Outcome Unit where
  result := o.result.map fun _ => ()
  touched := o.touched
  closures := o.closures
  events := o.events
  mmap := o.mmap

/-- What an operation does; a read needs a guard that has been made. -/
def Access.outcome (page : Usize) (s : Session) : Access ρ → Option (Outcome Unit)
  | .read mem start stop f => some (Outcome.forget (s.mmap.read mem start stop f))
  | .write mem offset data => some (s.mmap.write mem offset data)
  | .readInto mem offset buf => some (s.mmap.readInto mem offset buf)
  | .probe mem fuel offset len => s.mmap.probe page mem fuel offset len
  | .prefetchWithTimeout offset len result touched =>
    some (s.mmap.prefetchWithTimeout offset len result touched)
  | .guard => some ⟨.ok (), [], 0, [], s.mmap⟩
  | .guardRead g mem offset len f =>
    if g < s.guards then
      let o := ReadGuard.read s.mmap.raw mem 0 offset len f
      some ⟨o.result.map fun _ => (), o.touched, o.closures, [], s.mmap⟩
    else none
  | .resetPoison => some ⟨.ok (), [], 0, [], s.mmap.resetPoison⟩

/-- The operation makes a guard. -/
def Access.makesGuard : Access ρ → Bool
  | .guard => true
  | _ => false

/-- The operation resets the poison. -/
def Access.resets : Access ρ → Bool
  | .resetPoison => true
  | _ => false

/-- The operation is a safe access to the bytes of the mapping. -/
def Access.accesses : Access ρ → Bool
  | .guard | .resetPoison => false
  | _ => true

/-- The guard of a read through a guard, which has to exist. -/
def Access.Reads (s : Session) : Access ρ → Prop
  | .guardRead g _ _ _ _ => g < s.guards
  | _ => False

/-- The caller has what the operation needs. -/
def Access.Possible (s : Session) : Access ρ → Prop
  | .guardRead g _ _ _ _ => g < s.guards
  | _ => True

/-- One operation as a step of the session. -/
def Session.step (page : Usize) (op : Access ρ) (s : Session) : Option Session :=
  (op.outcome page s).map fun o =>
    { mmap := o.mmap, guards := if op.makesGuard then s.guards + 1 else s.guards }

end MmapShield.Model
