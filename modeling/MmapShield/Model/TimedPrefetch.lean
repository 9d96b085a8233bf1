import MmapShield.Computation.Machine
import MmapShield.Model.Access
import MmapShield.Model.Prefetch

/-!
# The timed prefetch of a mapping

`SafeMmap::prefetch_with_timeout` (`mmap/mod.rs:766-787`) as a whole: its two checks, a call of
`prefetch_with_deadline` under a schedule of the two threads, and what it records. `probePages`
is the loop of the worker as one call, with the answers that its looks at the flag get.
-/

set_option autoImplicit false

namespace MmapShield.Model

open MmapShield.Computation

/-- The call that `prefetch_with_timeout` makes of `prefetch_with_deadline`.
SOURCE: mmap/mod.rs:775-776 -/
def SafeMmap.prefetchCall (self : SafeMmap) (offset len : Usize) (timeout : ℕ) : PrefetchCall where
  basePtr := self.raw.ptr
  offset := offset
  len := len
  timeout := timeout

/-- `none` says that the schedule is not one of the call, or that the call has not returned
at its end.
SOURCE: mmap/mod.rs:766-787 -/
def SafeMmap.timedPrefetch (self : SafeMmap) (page offset len : Usize) (timeout : ℕ)
    (acts : List PrefetchAct) : Option (Outcome Unit) :=
  match self.checkPoisoned with
  | .error e => some (self.refuse e)
  | .ok () =>
    match self.checkBounds offset len with
    | .error e => some (self.refuse e)
    | .ok () =>
      match run (Prefetch.step page (self.prefetchCall offset len timeout)) acts .init with
      | none => none
      | some s =>
        match s.caller with
        | .returned result =>
          some (self.prefetchWithTimeout offset len result (s.touches.map Touch.addr))
        | _ => none

/-- The loop of `probe_pages` over the positions from `pos` on, for at most `fuel` rounds; the
`n`-th look at the flag finds `cancelled n`.
SOURCE: mmap/prefetch.rs:44-65 -/
def probePagesLoop (basePtr page : Usize) (mem : Memory) (cancelled : ℕ → Bool) (stop : Usize) :
    ℕ → ℕ → Usize → Option (Except AccessError Unit × List Usize)
  | 0, _, _ => none
  | fuel + 1, n, pos =>
    if pos < stop then
      if cancelled n then some (.ok (), [])
      else
        match mem.touchAll n [basePtr + pos] with
        | (touched, .error faultAddr) => some (.error (.sigbus faultAddr), touched)
        | (touched, .ok ()) =>
          (probePagesLoop basePtr page mem cancelled stop fuel (n + 1) (pos + page)).map
            fun rest => (rest.1, touched ++ rest.2)
    else some (.ok (), [])

/-- `none` says that the loop has not ended after `fuel` rounds; the addresses are those that it
has touched.
SOURCE: mmap/prefetch.rs:35-66 -/
def probePages (basePtr page : Usize) (mem : Memory) (cancelled : ℕ → Bool) (fuel : ℕ)
    (offset len : Usize) : Option (Except AccessError Unit × List Usize) :=
  probePagesLoop basePtr page mem cancelled (offset + len) fuel 0 offset

end MmapShield.Model
