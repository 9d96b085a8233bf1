import MmapShield.Model.Sharing

/-!
# Callbacks that use the mapping

The callback of a mapping is code of its user, which runs in the middle of `record_sigbus_from`:
after the counter and before the flag for a `Sigbus`, after the flag for a `Poisoned`. It may call
`read`, `write`, `read_into` and `probe` on the same mapping, fault again and be called again, and
it may panic, which unwinds the call that it runs in up to the code that made the call: a callback
one level below, or the code of the thread. That code may catch the panic or go on unwinding.

A thread is a stack of levels; level 0 is its own code, and each callback that runs adds one. The
highest level is the only one that moves, as a thread of `Sharing` does.

`unwound` are the results of the calls that were unwound and so returned to nobody, `lost` the
counts at the threshold whose call was unwound before it set the flag. No step reads them.
-/

set_option autoImplicit false

namespace MmapShield.Model

/-- The mapping with the levels of all threads, and the highest level of each. -/
structure Reentry (τ : Type) where
  share : Sharing (τ × ℕ)
  depth : τ → ℕ
  unwound : List (Except AccessError Unit)
  lost : List UInt32

/-- The code at the highest level of a thread takes a step or starts a call; a callback that runs
returns, or it panics. -/
inductive ReentryAct
  | act (act : ShareAct)
  | leave
  | panic

namespace Reentry

variable {τ : Type} [DecidableEq τ]

/-- No call has started. -/
def init (τ : Type) (mmap : SafeMmap) : Reentry τ where
  share := .init (τ × ℕ) mmap
  depth := fun _ => 0
  unwound := []
  lost := []

/-- The next step of the call emits an event. -/
def emits : CallPc → Bool
  | .emitSigbus _ _ | .emitPoisoned _ _ => true
  | _ => false

/-- The result that a call in the middle of its callback would have returned. -/
def resultOf : CallPc → List (Except AccessError Unit)
  | .store err _ => [.error err]
  | .ret result => [result]
  | _ => []

/-- The count that a call in the middle of its callback would have set the flag for. -/
def countOf : CallPc → List UInt32
  | .store _ count => [count]
  | _ => []

/-- One step of the thread `t`.
SOURCE: mmap/mod.rs:503-585, 668-686, 815-839, 1013-1061 -/
def step (page : Usize) (a : τ × ReentryAct) (s : Reentry τ) : Option (Reentry τ) :=
  let t := a.1
  let top := s.share.pc (t, s.depth t)
  match a.2, s.depth t with
  | .act act, d =>
    (Sharing.step page ((t, d), act) s.share).map fun share =>
      { s with
        share := share
        depth := if s.share.mmap.onEvent && emits top then Function.update s.depth t (d + 1)
          else s.depth }
  | .leave, d + 1 =>
    match top with
    | .idle => some { s with depth := Function.update s.depth t d }
    | _ => none
  | .panic, d + 1 =>
    match top with
    | .idle =>
      let call := s.share.pc (t, d)
      some {
        share := s.share.goto (t, d) .idle
        depth := Function.update s.depth t d
        unwound := s.unwound ++ resultOf call
        lost := s.lost ++ countOf call }
    | _ => none
  | _, _ => none

end Reentry

end MmapShield.Model
