import MmapShield.Analysis.TheoremFallback

/-!
# Reading exactly, under every behaviour of `pread`

`Posix` is what the standard allows a call of `pread(2)` on a file to answer. `LoopAt` are the
states that the loop of `pread_exact` comes through, and `Filled` is its invariant: the bytes
read so far are those of the file, the rest of the buffer is untouched, and the position is
inside the file, so that the sum of the offset cannot overflow.
-/

set_option autoImplicit false

namespace MmapShield.Analysis

open MmapShield.Computation MmapShield.Model

/-- What `pread(2)` may answer: an error of the operating system, or at most as many bytes as
were asked for, which are bytes of the file from the position on. No bytes may come at any
time, as they do at the end of a file that was truncated. -/
structure Posix (file : List UInt8) (pread : Pread) : Prop where
  errors : ∀ {n fd count offset e}, pread n fd count offset = .error e →
    ∃ errno, e = .lastOsError errno
  counts : ∀ {n fd count offset bytes}, pread n fd count offset = .ok bytes →
    bytes.length ≤ count.toNat
  contents : ∀ {n fd count offset bytes}, pread n fd count offset = .ok bytes →
    0 ≤ offset.toInt → bytes = (file.drop offset.toInt.toNat).take bytes.length

/-- The answer to the call that the loop makes after `n` calls that read `total` bytes.
SOURCE: sys/pread.rs:29-34 -/
def answer (pread : Pread) (fd : ℤ) (offset : Int64) (n total : ℕ) (cur : List UInt8) :
    Except IoError (List UInt8) :=
  pread n fd (UInt64.ofNat (cur.length - total)) (offset + Int64.ofNat total)

/-- The loop comes to its condition after `n` calls, with `total` bytes read and the buffer
`cur`.
SOURCE: sys/pread.rs:25-51 -/
inductive LoopAt (pread : Pread) (fd : ℤ) (offset : Int64) (buf : List UInt8) :
    ℕ → ℕ → List UInt8 → Prop
  | start : LoopAt pread fd offset buf 0 0 buf
  | next {n total : ℕ} {cur bytes : List UInt8} (h : LoopAt pread fd offset buf n total cur)
      (hlt : total < cur.length) (hread : answer pread fd offset n total cur = .ok bytes)
      (hbytes : bytes.length ≠ 0) :
      LoopAt pread fd offset buf (n + 1) (total + bytes.length) (overwrite cur total bytes)

/-- The error of an end of file.
SOURCE: sys/pread.rs:41-46 -/
def eofError : AccessError :=
  .io (.new .unexpectedEof "pread returned 0 before buffer was filled")

/-- How the loop ends: with a full buffer, with an error of the call, or with no bytes. -/
inductive EndsAt (pread : Pread) (fd : ℤ) (offset : Int64) (n total : ℕ) (cur : List UInt8) :
    PreadOutcome → Prop
  | full (h : ¬ total < cur.length) : EndsAt pread fd offset n total cur ⟨.ok (), cur, n⟩
  | failed (e : IoError) (h : total < cur.length)
      (hread : answer pread fd offset n total cur = .error e) :
      EndsAt pread fd offset n total cur ⟨.error (.io e), cur, n + 1⟩
  | eof (h : total < cur.length) (hread : answer pread fd offset n total cur = .ok []) :
      EndsAt pread fd offset n total cur ⟨.error eofError, cur, n + 1⟩

section Loop

variable {pread : Pread} {fd : ℤ} {offset : Int64} {buf cur : List UInt8} {n total : ℕ}

/-- INTERNAL: a round that reads bytes goes on.
SOURCE: sys/pread.rs:48-49 -/
theorem preadLoop_next {bytes : List UInt8} (hlt : total < cur.length)
    (hread : answer pread fd offset n total cur = .ok bytes) (hbytes : bytes.length ≠ 0) :
    preadLoop pread fd offset n total cur =
      preadLoop pread fd offset (n + 1) (total + bytes.length) (overwrite cur total bytes) := by
  unfold answer at hread
  rw [preadLoop, dif_pos hlt]
  simp only [hread]
  rw [dif_neg hbytes]

/-- INTERNAL: the loop comes through its states.
SOURCE: sys/pread.rs:25-51 -/
theorem LoopAt.outcome (h : LoopAt pread fd offset buf n total cur) :
    preadExact pread fd buf offset = preadLoop pread fd offset n total cur := by
  induction h with
  | start => rfl
  | next _ hlt hread hbytes ih => exact ih.trans (preadLoop_next hlt hread hbytes)

/-- INTERNAL: **the loop ends** in one of its states.
SOURCE: sys/pread.rs:25-51 -/
theorem LoopAt.ends (h : LoopAt pread fd offset buf n total cur) :
    ∃ n' total' cur', LoopAt pread fd offset buf n' total' cur' ∧
      EndsAt pread fd offset n' total' cur' (preadLoop pread fd offset n total cur) := by
  induction n, total, cur using preadLoop.induct pread fd offset with
  | case1 n total cur hlt e herr =>
    refine ⟨n, total, cur, h, ?_⟩
    rw [preadLoop, dif_pos hlt]
    simp only [herr]
    exact .failed e hlt herr
  | case2 n total cur hlt bytes hok hzero =>
    refine ⟨n, total, cur, h, ?_⟩
    rw [preadLoop, dif_pos hlt]
    simp only [hok]
    rw [dif_pos hzero]
    exact .eof hlt (by rw [answer, hok, List.eq_nil_of_length_eq_zero hzero])
  | case3 n total cur hlt bytes hok hzero hless ih =>
    rw [preadLoop_next hlt hok hzero]
    exact ih (h.next hlt hok hzero)
  | case4 n total cur hge =>
    refine ⟨n, total, cur, h, ?_⟩
    rw [preadLoop, dif_neg hge]
    exact .full hge

end Loop

/-! ## The invariant -/

/-- The first `total` bytes of the buffer are those of the file from the offset on, and the
rest is as it was. Each call has read at least one byte. -/
structure Filled (file : List UInt8) (offset : Int64) (buf : List UInt8) (n total : ℕ)
    (cur : List UInt8) : Prop where
  length : cur.length = buf.length
  inside : total ≤ buf.length
  calls : n ≤ total
  read : cur.take total = (file.drop offset.toInt.toNat).take total
  rest : cur.drop total = buf.drop total
  position : total = 0 ∨ offset.toInt.toNat + total ≤ file.length

section Invariant

variable {file : List UInt8} {pread : Pread} {fd : ℤ} {offset : Int64} {buf cur : List UInt8}
  {n total : ℕ}

/-- INTERNAL: **the sum of the offset does not overflow.**
SOURCE: sys/pread.rs:33 -/
theorem Filled.offset_exact (h : Filled file offset buf n total cur)
    (hfile : file.length < 2 ^ 63) (hoffset : 0 ≤ offset.toInt) :
    (offset + Int64.ofNat total).toInt = offset.toInt + total := by
  have hmax := Int64.toInt_lt offset
  have hlt : offset.toInt + total < 2 ^ 63 := by
    rcases h.position with hzero | hinside
    · omega
    · omega
  have htotal : (Int64.ofNat total).toInt = total := by
    apply Int64.toInt_ofNat_of_lt
    omega
  rw [Int64.toInt_add, htotal, Int.bmod_def]
  omega

/-- INTERNAL: what is behind the bytes of a read stays. -/
theorem overwrite_drop (buf : List UInt8) {total : ℕ} (bytes : List UInt8)
    (h : total + bytes.length ≤ buf.length) :
    (overwrite buf total bytes).drop (total + bytes.length) =
      buf.drop (total + bytes.length) := by
  unfold overwrite
  apply List.drop_left'
  simp only [List.length_append, List.length_take]
  omega

/-- INTERNAL: **a round keeps the invariant.**
SOURCE: sys/pread.rs:27-49 -/
theorem Filled.next (h : Filled file offset buf n total cur) (hposix : Posix file pread)
    (hfile : file.length < 2 ^ 63) (hbuf : buf.length < 2 ^ 63) (hoffset : 0 ≤ offset.toInt)
    {bytes : List UInt8} (hlt : total < cur.length)
    (hread : answer pread fd offset n total cur = .ok bytes) (hbytes : bytes.length ≠ 0) :
    Filled file offset buf (n + 1) (total + bytes.length) (overwrite cur total bytes) := by
  have hlength := h.length
  have hcalls := h.calls
  have hsum := h.offset_exact hfile hoffset
  have hpos : (offset + Int64.ofNat total).toInt.toNat = offset.toInt.toNat + total := by
    rw [hsum]
    omega
  have hcount : bytes.length ≤ cur.length - total := by
    have hle := hposix.counts hread
    rw [UInt64.toNat_ofNat_of_lt' (show _ < 2 ^ 64 by omega)] at hle
    exact hle
  have hcontents : bytes =
      (file.drop (offset.toInt.toNat + total)).take bytes.length := by
    have heq := hposix.contents hread (by rw [hsum]; omega)
    rw [hpos] at heq
    exact heq
  have hinside : offset.toInt.toNat + total + bytes.length ≤ file.length := by
    have hlen := congrArg List.length hcontents
    rw [List.length_take, List.length_drop] at hlen
    omega
  have hroom : total + bytes.length ≤ cur.length := by omega
  refine ⟨?_, ?_, ?_, ?_, ?_, Or.inr (by omega)⟩
  · rw [overwrite_length cur bytes hroom, hlength]
  · omega
  · omega
  · rw [overwrite_take cur bytes hroom, h.read, List.take_add, List.drop_drop, ← hcontents]
  · rw [overwrite_drop cur bytes hroom, ← List.drop_drop, ← List.drop_drop, h.rest]

/-- INTERNAL: **the loop keeps its invariant**, however many rounds it has made. -/
theorem LoopAt.filled (h : LoopAt pread fd offset buf n total cur) (hposix : Posix file pread)
    (hfile : file.length < 2 ^ 63) (hbuf : buf.length < 2 ^ 63) (hoffset : 0 ≤ offset.toInt) :
    Filled file offset buf n total cur := by
  induction h with
  | start => exact ⟨rfl, Nat.zero_le _, Nat.le_refl _, by simp, rfl, Or.inl rfl⟩
  | next _ hlt hread hbytes ih => exact ih.next hposix hfile hbuf hoffset hlt hread hbytes

end Invariant

/-! ## What `pread_exact` does -/

section Results

variable {file : List UInt8} {pread : Pread} {fd : ℤ} {offset : Int64} {buf : List UInt8}

/-- INTERNAL: the loop ends well exactly when no call of it failed or read nothing.
SOURCE: sys/pread.rs:37-46 -/
theorem preadExact_ok_iff :
    (preadExact pread fd buf offset).result = .ok () ↔
      ∀ n total cur, LoopAt pread fd offset buf n total cur → total < cur.length →
        ∃ bytes, answer pread fd offset n total cur = .ok bytes ∧ bytes ≠ [] := by
  constructor
  · intro hok n total cur h hlt
    have houtcome := h.outcome
    cases hanswer : answer pread fd offset n total cur with
    | error e =>
      unfold answer at hanswer
      rw [houtcome, preadLoop, dif_pos hlt] at hok
      simp only [hanswer] at hok
      cases hok
    | ok bytes =>
      refine ⟨bytes, rfl, ?_⟩
      rintro rfl
      unfold answer at hanswer
      rw [houtcome, preadLoop, dif_pos hlt] at hok
      simp only [hanswer] at hok
      cases hok
  · intro hall
    obtain ⟨n, total, cur, h, hends⟩ :=
      (LoopAt.start : LoopAt pread fd offset buf 0 0 buf).ends
    unfold preadExact
    generalize preadLoop pread fd offset 0 0 buf = o at hends
    cases hends with
    | full hge => rfl
    | failed e hlt hread =>
      obtain ⟨bytes, hok, -⟩ := hall n total cur h hlt
      rw [hread] at hok
      cases hok
    | eof hlt hread =>
      obtain ⟨bytes, hok, hne⟩ := hall n total cur h hlt
      rw [hread] at hok
      cases hok
      exact absurd rfl hne

/-- INTERNAL: a full buffer is the slice of the file.
SOURCE: sys/pread.rs:51 -/
theorem preadExact_full (hposix : Posix file pread) (hfile : file.length < 2 ^ 63)
    (hbuf : buf.length < 2 ^ 63) (hoffset : 0 ≤ offset.toInt)
    (hok : (preadExact pread fd buf offset).result = .ok ()) :
    (preadExact pread fd buf offset).buf = (file.drop offset.toInt.toNat).take buf.length ∧
      (preadExact pread fd buf offset).buf.length = buf.length := by
  obtain ⟨n, total, cur, h, hends⟩ := (LoopAt.start : LoopAt pread fd offset buf 0 0 buf).ends
  have hfilled := h.filled hposix hfile hbuf hoffset
  unfold preadExact at hok ⊢
  generalize preadLoop pread fd offset 0 0 buf = o at hends hok
  cases hends with
  | full hge =>
    have htotal : total = buf.length := by
      have hlength := hfilled.length
      have hinside := hfilled.inside
      omega
    refine ⟨?_, hfilled.length⟩
    rw [← htotal, ← hfilled.read, htotal, ← hfilled.length, List.take_length]
  | failed e hlt hread => cases hok
  | eof hlt hread => cases hok

/-- INTERNAL: **the loop makes at most one call more than the buffer has bytes.**
SOURCE: sys/pread.rs:27-49 -/
theorem preadExact_calls (hposix : Posix file pread) (hfile : file.length < 2 ^ 63)
    (hbuf : buf.length < 2 ^ 63) (hoffset : 0 ≤ offset.toInt) :
    (preadExact pread fd buf offset).calls ≤ buf.length + 1 := by
  obtain ⟨n, total, cur, h, hends⟩ := (LoopAt.start : LoopAt pread fd offset buf 0 0 buf).ends
  have hfilled := h.filled hposix hfile hbuf hoffset
  have hcalls := hfilled.calls
  have hinside := hfilled.inside
  unfold preadExact
  generalize preadLoop pread fd offset 0 0 buf = o at hends
  cases hends with
  | full hge =>
    simp only
    omega
  | failed e hlt hread =>
    simp only
    omega
  | eof hlt hread =>
    simp only
    omega

/-- How `pread_exact` fails: after `n` calls that read `total` bytes, which are in the buffer
in front of what was there, the next one answered with an error or with no bytes. -/
structure FailsAt (file : List UInt8) (pread : Pread) (fd : ℤ) (offset : Int64)
    (buf : List UInt8) (o : PreadOutcome) (e : AccessError) (n total : ℕ) : Prop where
  reached : LoopAt pread fd offset buf n total o.buf
  calls : o.calls = n + 1
  partly : total < buf.length
  read : o.buf.take total = (file.drop offset.toInt.toNat).take total
  readLength : (o.buf.take total).length = total
  rest : o.buf.drop total = buf.drop total
  cause : (∃ errno, answer pread fd offset n total o.buf = .error (.lastOsError errno) ∧
      e = .io (.lastOsError errno)) ∨
    answer pread fd offset n total o.buf = .ok [] ∧ e = eofError
  eof : (∃ message, e = .io (.new .unexpectedEof message)) ↔
    answer pread fd offset n total o.buf = .ok []

/-- SOURCE: sys/pread.rs:37-46 -/
theorem preadExact_fails (hposix : Posix file pread) (hfile : file.length < 2 ^ 63)
    (hbuf : buf.length < 2 ^ 63) (hoffset : 0 ≤ offset.toInt) {e : AccessError}
    (herr : (preadExact pread fd buf offset).result = .error e) :
    ∃ n total, FailsAt file pread fd offset buf (preadExact pread fd buf offset) e n total := by
  obtain ⟨n, total, cur, h, hends⟩ := (LoopAt.start : LoopAt pread fd offset buf 0 0 buf).ends
  have hfilled := h.filled hposix hfile hbuf hoffset
  have hlength := hfilled.length
  unfold preadExact at herr ⊢
  generalize preadLoop pread fd offset 0 0 buf = o at hends herr
  refine ⟨n, total, ?_⟩
  cases hends with
  | full hge => cases herr
  | failed e' hlt hread =>
    cases herr
    obtain ⟨errno, rfl⟩ := hposix.errors hread
    have htake : (cur.take total).length = total := by
      rw [List.length_take]
      omega
    exact {
      reached := h
      calls := rfl
      partly := hlength ▸ hlt
      read := hfilled.read
      readLength := htake
      rest := hfilled.rest
      cause := Or.inl ⟨errno, hread, rfl⟩
      eof := by simp [hread] }
  | eof hlt hread =>
    cases herr
    have htake : (cur.take total).length = total := by
      rw [List.length_take]
      omega
    exact {
      reached := h
      calls := rfl
      partly := hlength ▸ hlt
      read := hfilled.read
      readLength := htake
      rest := hfilled.rest
      cause := Or.inr ⟨hread, rfl⟩
      eof := by simp [hread, eofError] }

/-- INTERNAL: **the fallback hands its closure the slice of the file or nothing.**
SOURCE: fallback/mod.rs:82-102 -/
theorem reader_exact {ρ : Type} (hposix : Posix file pread) (hfile : file.length < 2 ^ 63)
    {reader : PreadReader} (hreader : reader.len.toNat = file.length) (alloc : Usize → Bool)
    {start stop : Usize} (hle : start ≤ stop) (f : List UInt8 → ρ) {value : ρ}
    (h : reader.read alloc pread start stop f = .returned (.ok value)) :
    ∃ bytes, bytes = (file.drop start.toNat).take (stop.toNat - start.toNat) ∧
      bytes.length = stop.toNat - start.toNat ∧ value = f bytes := by
  have hsub := toNat_sub_of_ge hle
  rw [UInt64.le_iff_toNat_le] at hle
  unfold PreadReader.read at h
  dsimp only at h
  split at h
  · cases h
  · rename_i hin
    have hstop : stop.toNat ≤ file.length := by
      rw [← hreader, ← UInt64.le_iff_toNat_le]
      exact UInt64.not_lt.mp hin
    have hstart : start.toInt64.toInt = start.toNat := by
      rw [← UInt64.ofNat_toNat (x := start), UInt64.toInt64_ofNat', UInt64.ofNat_toNat]
      apply Int64.toInt_ofNat_of_lt
      omega
    split at h
    · cases h
    · cases h
    · rename_i buf hvec
      have hbuf : buf.length = stop.toNat - start.toNat := by
        unfold vecZeroed at hvec
        split at hvec
        · cases hvec
        · split at hvec
          · cases hvec
            rw [List.length_replicate, hsub]
          · cases hvec
      split at h
      · cases h
      · rename_i hok
        cases h
        obtain ⟨hslice, hlength⟩ := preadExact_full hposix hfile (by omega)
          (by rw [hstart]; omega) hok
        rw [hstart, Int.toNat_natCast, hbuf] at hslice
        exact ⟨_, hslice, hlength.trans hbuf, rfl⟩

end Results

/-- RESULT: **`pread_exact` is exact under every behaviour of `pread`.** The loop ends after at
most one call more than the buffer has bytes. It returns `Ok` exactly when no call failed or
read nothing, and then the buffer is the slice of the file; otherwise the bytes read so far are
those of the file, the rest of the buffer is untouched, and the error is an `UnexpectedEof`
exactly for a call that read nothing. No sum of the offset overflows. The fallback hands its
closure the slice of the file that was there when it was opened, or does not call it.
SOURCE: sys/pread.rs:24-52, fallback/mod.rs:82-102 -/
theorem pread_exact_spec {ρ : Type} (file : List UInt8) (pread : Pread) (fd : ℤ) (buf : Slice)
    (offset : Int64) (hfile : file.length < 2 ^ 63) (hposix : Posix file pread)
    (hoffset : 0 ≤ offset.toInt) :
    (preadExact pread fd buf.bytes offset).calls ≤ buf.bytes.length + 1 ∧
    ((preadExact pread fd buf.bytes offset).result = .ok () ↔
      ∀ n total cur, LoopAt pread fd offset buf.bytes n total cur → total < cur.length →
        ∃ bytes, answer pread fd offset n total cur = .ok bytes ∧ bytes ≠ []) ∧
    ((preadExact pread fd buf.bytes offset).result = .ok () →
      (preadExact pread fd buf.bytes offset).buf =
          (file.drop offset.toInt.toNat).take buf.bytes.length ∧
        (preadExact pread fd buf.bytes offset).buf.length = buf.bytes.length) ∧
    (∀ e, (preadExact pread fd buf.bytes offset).result = .error e → ∃ n total,
      FailsAt file pread fd offset buf.bytes (preadExact pread fd buf.bytes offset) e n total) ∧
    (∀ n total cur, LoopAt pread fd offset buf.bytes n total cur →
      (offset + Int64.ofNat total).toInt = offset.toInt + total) ∧
    ∀ (reader : PreadReader) alloc start stop (f : List UInt8 → ρ) value,
      reader.len.toNat = file.length → start ≤ stop →
      reader.read alloc pread start stop f = .returned (.ok value) →
        ∃ bytes, bytes = (file.drop start.toNat).take (stop.toNat - start.toNat) ∧
          bytes.length = stop.toNat - start.toNat ∧ value = f bytes := by
  refine ⟨preadExact_calls hposix hfile buf.small hoffset, preadExact_ok_iff,
    preadExact_full hposix hfile buf.small hoffset, ?_, ?_, ?_⟩
  · intro e herr
    exact preadExact_fails hposix hfile buf.small hoffset herr
  · intro n total cur h
    exact (h.filled hposix hfile buf.small hoffset).offset_exact hfile hoffset
  · intro reader alloc start stop f value hreader hle h
    exact reader_exact hposix hfile hreader alloc hle f h

/-- INTERNAL: an unchanged file answers as the standard allows. -/
theorem posix_unchanged (file : FileContents) (short : ℕ → ℕ) :
    Posix file.bytes (file.pread short) where
  errors := by
    intro n fd count offset e h
    unfold FileContents.pread at h
    split at h
    · cases h
      exact ⟨22, rfl⟩
    · cases h
  counts := by
    intro n fd count offset bytes h
    unfold FileContents.pread at h
    split at h
    · cases h
    · cases h
      rw [List.length_take]
      omega
  contents := by
    intro n fd count offset bytes h _
    unfold FileContents.pread at h
    split at h
    · cases h
    · cases h
      rw [List.length_take, List.take_eq_take_iff]
      omega

/-- A file of three bytes that is read one byte at a time.
SOURCE: sys/pread.rs:24-52 -/
theorem pread_exact_spec_threeBytes :
    (preadExact (FileContents.pread ⟨[7, 8, 9], by decide, by decide⟩ fun _ => 1) 3 [0, 0] 1).calls
      ≤ 3 ∧
    ∀ value, (PreadReader.mk 3 3).read (fun _ => true)
        (FileContents.pread ⟨[7, 8, 9], by decide, by decide⟩ fun _ => 1) 1 3 id =
          .returned (.ok value) → value = [8, 9] := by
  obtain ⟨hcalls, -, -, -, -, hreader⟩ :=
    pread_exact_spec (ρ := List UInt8) [7, 8, 9]
      (FileContents.pread ⟨[7, 8, 9], by decide, by decide⟩ fun _ => 1) 3 ⟨[0, 0], by decide⟩ 1
      (by decide) (posix_unchanged ⟨[7, 8, 9], by decide, by decide⟩ fun _ => 1) (by decide)
  refine ⟨hcalls, ?_⟩
  intro value h
  obtain ⟨bytes, hbytes, -, hvalue⟩ := hreader ⟨3, 3⟩ (fun _ => true) 1 3 id value rfl
    (by decide) h
  rw [hvalue, hbytes]
  rfl

end MmapShield.Analysis
