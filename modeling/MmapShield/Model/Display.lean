import MmapShield.Model.Sys

/-!
# The texts of the errors

`Display` of `AccessError`, as `thiserror` derives it from the attributes in `error.rs`, with
the formats of the standard library that it uses. The end of a range is printed as a sum of
two words. A sum that does not fit has no text here: it panics in a debug build, and prints an
end before the start in a release build.
-/

set_option autoImplicit false

namespace MmapShield.Model

/-- The format `{:#x}`. -/
def hexText (n : ℕ) : String := "0x" ++ String.ofList (Nat.toDigits 16 n)

/-- A number with `width` decimal places, without the zeros at its end. -/
def decimalText (integer fraction width : ℕ) : String :=
  let digits := Nat.toDigits 10 fraction
  let padded := List.replicate (width - digits.length) '0' ++ digits
  let places := (padded.reverse.dropWhile fun c => c == '0').reverse
  toString integer ++ if places.isEmpty then "" else "." ++ String.ofList places

/-- The format `{:?}` of a `Duration` of so many nanoseconds. -/
def durationText (nanos : ℕ) : String :=
  if 1000000000 ≤ nanos then decimalText (nanos / 1000000000) (nanos % 1000000000) 9 ++ "s"
  else if 1000000 ≤ nanos then decimalText (nanos / 1000000) (nanos % 1000000) 6 ++ "ms"
  else if 1000 ≤ nanos then decimalText (nanos / 1000) (nanos % 1000) 3 ++ "µs"
  else toString nanos ++ "ns"

/-- An `io::Error`, with the message of the operating system for a number. -/
def IoError.display (strerror : ℕ → String) : IoError → String
  | .lastOsError errno => strerror errno ++ " (os error " ++ toString errno ++ ")"
  | .new _ message => message

/-- SOURCE: error.rs:39-101 -/
def AccessError.display (strerror : ℕ → String) : AccessError → Option String
  | .sigbus faultAddress => some ("SIGBUS caught at address " ++ hexText faultAddress.toNat)
  | .outOfBounds offset len mappingLen =>
    (checkedAdd offset len).map fun stop =>
      "access [" ++ toString offset ++ ".." ++ toString stop ++ "] exceeds mapping length "
        ++ toString mappingLen
  | .poisoned sigbusCount =>
    some ("file poisoned after " ++ toString sigbusCount ++ " SIGBUS faults")
  | .timeout offset len deadline =>
    (checkedAdd offset len).map fun stop =>
      "prefetch [" ++ toString offset ++ ".." ++ toString stop ++ "] timed out after "
        ++ durationText deadline
  | .io error => some ("I/O error: " ++ error.display strerror)

end MmapShield.Model
