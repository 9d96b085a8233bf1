import MmapShield.Model.Access
import Mathlib.Logic.Function.Basic

/-!
# Concurrent recording and resetting

`record_sigbus_from` and `reset_poison` as the atomic steps that they are made of, in any
number of threads, each of which makes one of these calls. `serial` runs such calls one
after the other, each as a whole.
-/

set_option autoImplicit false

namespace MmapShield.Model

/-- A call of `record_sigbus_from` or of `reset_poison`. -/
inductive PoisonCall
  | record (err : AccessError)
  | reset

/-- The call is one of `record_sigbus_from`. -/
def PoisonCall.isRecord : PoisonCall → Bool
  | .record _ => true
  | .reset => false

/-- A whole call.
SOURCE: mmap/mod.rs:1008-1011, 1039-1055 -/
def PoisonCall.apply (call : PoisonCall) (mmap : SafeMmap) : SafeMmap :=
  match call with
  | .record err => (mmap.recordSigbusFrom err).1
  | .reset => mmap.resetPoison

/-- The calls one after the other. -/
def serial : List PoisonCall → SafeMmap → SafeMmap
  | [], mmap => mmap
  | call :: rest, mmap => serial rest (call.apply mmap)

/-- Where a call is: before its first step, before the store of `poisoned := true`, before
the store of `sigbus_count := 0`, or at its end. -/
inductive PoisonPc
  | start
  | store
  | zero
  | done
  deriving DecidableEq, Repr

/-- The mapping and the calls. -/
structure Recording (ι : Type) where
  mmap : SafeMmap
  pc : ι → PoisonPc

namespace Recording

variable {ι : Type} [DecidableEq ι]

/-- No call has taken a step. -/
def init (ι : Type) (mmap : SafeMmap) : Recording ι where
  mmap := mmap
  pc := fun _ => .start

/-- One atomic step of the call of the thread `t`.
SOURCE: mmap/mod.rs:1009-1010, 1045, 1049-1050 -/
def step (calls : ι → PoisonCall) (t : ι) (s : Recording ι) : Option (Recording ι) :=
  match s.pc t, calls t with
  | .start, .record _ =>
    let count := s.mmap.sigbusCount + 1
    some {
      mmap := { s.mmap with sigbusCount := count }
      pc := Function.update s.pc t (if count ≥ s.mmap.maxSigbus then .store else .done) }
  | .start, .reset =>
    some {
      mmap := { s.mmap with poisoned := false }
      pc := Function.update s.pc t .zero }
  | .store, _ =>
    some {
      mmap := { s.mmap with poisoned := true }
      pc := Function.update s.pc t .done }
  | .zero, _ =>
    some {
      mmap := { s.mmap with sigbusCount := 0 }
      pc := Function.update s.pc t .done }
  | .done, _ => none

end Recording

end MmapShield.Model
