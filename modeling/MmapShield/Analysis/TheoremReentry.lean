import MmapShield.Analysis.TheoremAccounting
import MmapShield.Computation.Measure
import MmapShield.Model.Reentry

/-!
# The accounts of a mapping whose callback uses it

A level of a thread is accounted for like a thread of its own, so that a callback that calls the
mapping again changes no account. A panic does: it unwinds a call that has not set the flag, or
not returned. `Mirror` puts next to the mapping the books of one on which the unwound calls went
on to their end without being heard; each step of a level is a move of those books, a panic is up
to three. What the two have apart is in `unwound` and `lost`, and the flag, of which `Flagged`
says that it goes with the `Poisoned` events.
-/

set_option autoImplicit false

namespace MmapShield.Analysis.Callbacks

open MmapShield.Computation MmapShield.Model MmapShield.Analysis

variable {τ : Type} [DecidableEq τ]

/-- A call in the middle of its callback. -/
def Suspended (c : CallPc) : Prop :=
  ∃ addr, (∃ count, c = .store (.sigbus addr) count) ∨ c = .ret (.error (.sigbus addr))

/-- The level has set the flag and not emitted the event. -/
def flagging : CallPc → Bool
  | .emitPoisoned _ _ => true
  | _ => false

/-- The flag is set when a `Poisoned` event has been emitted or is about to be. -/
def Flagged (s : Sharing (τ × ℕ)) : Prop :=
  s.mmap.poisoned = true ↔
    (∃ count, .poisoned count ∈ s.events) ∨ ∃ k, flagging (s.pc k) = true

/-- **What a step is**: a step of the code at the highest level, which may begin a callback, the
return of a callback, or a panic. -/
inductive Turn (page : Usize) (t : τ) (s s' : Reentry τ) : ReentryAct → Prop
  | move (act : ShareAct) (share : Sharing (τ × ℕ))
      (hmove : Sharing.step page ((t, s.depth t), act) s.share = some share)
      (heq : s' = { s with
        share := share
        depth := if s.share.mmap.onEvent && Reentry.emits (s.share.pc (t, s.depth t)) then
            Function.update s.depth t (s.depth t + 1) else s.depth }) : Turn page t s s' (.act act)
  | leave (d : ℕ) (hdepth : s.depth t = d + 1) (htop : s.share.pc (t, d + 1) = .idle)
      (heq : s' = { s with depth := Function.update s.depth t d }) : Turn page t s s' .leave
  | panic (d : ℕ) (hdepth : s.depth t = d + 1) (htop : s.share.pc (t, d + 1) = .idle)
      (heq : s' = {
        share := s.share.goto (t, d) .idle
        depth := Function.update s.depth t d
        unwound := s.unwound ++ Reentry.resultOf (s.share.pc (t, d))
        lost := s.lost ++ Reentry.countOf (s.share.pc (t, d)) }) : Turn page t s s' .panic

/-- The books of the mapping with the unwound calls gone on to their end, for the levels below
`n`. Only the flag may differ, the missing events are `extra` and the missing results `unwound`. -/
structure Mirror {n : ℕ} (share : Sharing (τ × ℕ)) (extra : List MmapEvent)
    (unwound : List (Except AccessError Unit)) (books : Sharing (τ × Fin n)) : Prop where
  pc : ∀ k, books.pc k = share.pc (k.1, k.2)
  mmap : books.mmap = { share.mmap with poisoned := books.mmap.poisoned }
  recorded : books.recorded = share.recorded
  events : (books.events : Multiset MmapEvent) = share.events + extra
  returns : (books.returns : Multiset (Except AccessError Unit)) = share.returns + unwound

/-- The invariant of the runs, with `steps` to come and levels below `n`. -/
structure Reconciled (mmap : SafeMmap) (n steps : ℕ) (s : Reentry τ) [Fintype τ] : Prop where
  room : ∀ t, s.depth t + steps < n
  above : ∀ t d, s.depth t < d → s.share.pc (t, d) = .idle
  suspended : ∀ t d, d < s.depth t → Suspended (s.share.pc (t, d))
  heard : s.share.mmap.onEvent = true
  flagged : Flagged s.share
  books : ∃ books : Sharing (τ × Fin n),
    Mirror s.share (s.lost.map MmapEvent.poisoned) s.unwound books ∧ Booked mmap books

/-! ## Moves of the books -/

section Moves

variable {ι : Type} [DecidableEq ι] {b b' : Sharing ι} {k : ι}

/-- INTERNAL: every move keeps the books. -/
theorem booked_move [Fintype ι] {mmap : SafeMmap} (h : Booked mmap b)
    (hmove : Sharing.Move b k b') : Booked mmap b' := by
  have hfixed : b'.mmap.maxSigbus = b.mmap.maxSigbus ∧ b'.mmap.onEvent = b.mmap.onEvent ∧
      b.recorded ≤ b'.recorded := by
    cases hmove with
    | record addr hp => exact ⟨rfl, rfl, Nat.le_succ _⟩
    | _ => exact ⟨rfl, rfl, Nat.le_refl _⟩
  refine ⟨h.sane.move hmove, ⟨hfixed.1.trans h.fixed.1, hfixed.2.1.trans h.fixed.2⟩,
    h.calls.move hmove, ?_⟩
  intro hfits
  obtain ⟨haccounts, hreached⟩ := h.accounts (by omega)
  exact ⟨haccounts.move hreached hmove hfits, hreached.move haccounts.count hmove hfits⟩

end Moves

section Mirrors

variable {n : ℕ} {share share' : Sharing (τ × ℕ)} {extra : List MmapEvent}
  {unwound : List (Except AccessError Unit)} {books : Sharing (τ × Fin n)} {t : τ} {d : ℕ}

/-- INTERNAL: the books follow a thread at the levels that they keep. -/
theorem update_level (hpc : ∀ k, books.pc k = share.pc (k.1, k.2)) (hd : d < n) (c : CallPc)
    (k : τ × Fin n) :
    Function.update books.pc (t, ⟨d, hd⟩) c k = Function.update share.pc (t, d) c (k.1, k.2) := by
  obtain ⟨u, e⟩ := k
  by_cases hk : u = t ∧ (e : ℕ) = d
  · obtain ⟨rfl, rfl⟩ := hk
    simp
  · have hleft : ((u, e) : τ × Fin n) ≠ (t, ⟨d, hd⟩) := by
      intro heq
      exact hk ⟨congrArg Prod.fst heq, congrArg (fun k => (k.2 : ℕ)) heq⟩
    have hright : ((u, (e : ℕ)) : τ × ℕ) ≠ (t, d) := by
      intro heq
      exact hk ⟨congrArg Prod.fst heq, congrArg Prod.snd heq⟩
    rw [Function.update_of_ne hleft, Function.update_of_ne hright, hpc]

omit [DecidableEq τ] in
/-- INTERNAL: books and mapping emit the same events. -/
theorem Mirror.emitEvent (h : Mirror share extra unwound books) (event : MmapEvent) :
    books.mmap.emitEvent event = share.mmap.emitEvent event := by
  unfold SafeMmap.emitEvent
  rw [h.mmap]

/-- INTERNAL: events that both have emitted. -/
theorem add_events {events events' : List MmapEvent}
    (h : (events : Multiset MmapEvent) = events' + extra) (new : List MmapEvent) :
    ((events ++ new : List MmapEvent) : Multiset MmapEvent) =
      (events' ++ new : List MmapEvent) + extra := by
  rw [← Multiset.coe_add, ← Multiset.coe_add, h, add_right_comm]

/-- INTERNAL: further returns on both sides. -/
theorem add_returns {returns returns' : List (Except AccessError Unit)}
    (h : (returns : Multiset (Except AccessError Unit)) = returns' + unwound)
    (new : List (Except AccessError Unit)) :
    ((returns ++ new : List (Except AccessError Unit)) : Multiset (Except AccessError Unit)) =
      (returns' ++ new : List (Except AccessError Unit)) + unwound := by
  rw [← Multiset.coe_add, ← Multiset.coe_add, h, add_right_comm]

/-- INTERNAL: **a move of a level is one of the books.** -/
theorem Mirror.move (h : Mirror share extra unwound books) (hd : d < n)
    (hmove : Sharing.Move share (t, d) share') :
    ∃ books', Sharing.Move books (t, ⟨d, hd⟩) books' ∧ Mirror share' extra unwound books' := by
  have hpc (c : CallPc) (hp : share.pc (t, d) = c) : books.pc (t, ⟨d, hd⟩) = c := by
    rw [h.pc]
    exact hp
  have hcount : books.mmap.sigbusCount = share.mmap.sigbusCount := by rw [h.mmap]
  have hmax : books.mmap.maxSigbus = share.mmap.maxSigbus := by rw [h.mmap]
  have hlen : books.mmap.raw = share.mmap.raw := by rw [h.mmap]
  cases hmove with
  | silent c hp hc hsane =>
    refine ⟨_, .silent c (by rw [hpc _ rfl]; exact hp) hc (by rw [hlen]; exact hsane), ?_⟩
    exact ⟨update_level h.pc hd c, h.mmap, h.recorded, h.events, h.returns⟩
  | fault addr hp =>
    refine ⟨_, .fault addr (by rw [hpc _ rfl]; exact hp), ?_⟩
    exact ⟨update_level h.pc hd _, h.mmap, h.recorded, h.events, h.returns⟩
  | record addr hp =>
    refine ⟨_, .record addr (hpc _ hp), ?_⟩
    rw [hcount]
    refine ⟨update_level h.pc hd _, ?_, congrArg (· + 1) h.recorded, h.events, h.returns⟩
    simp only
    rw [h.mmap]
  | emitSigbus addr count hp =>
    refine ⟨_, .emitSigbus addr count (hpc _ hp), ?_⟩
    rw [hmax, h.emitEvent]
    exact ⟨update_level h.pc hd _, h.mmap, h.recorded, add_events h.events _, h.returns⟩
  | store addr count hp =>
    refine ⟨_, .store addr count (hpc _ hp), ?_⟩
    refine ⟨update_level h.pc hd _, ?_, h.recorded, h.events, h.returns⟩
    simp only
    rw [h.mmap]
  | emitPoisoned addr count hp =>
    refine ⟨_, .emitPoisoned addr count (hpc _ hp), ?_⟩
    rw [h.emitEvent]
    exact ⟨update_level h.pc hd _, h.mmap, h.recorded, add_events h.events _, h.returns⟩
  | ret result hp =>
    refine ⟨_, .ret result (hpc _ hp), ?_⟩
    exact ⟨update_level h.pc hd _, h.mmap, h.recorded, h.events, add_returns h.returns _⟩

omit [DecidableEq τ] in
/-- INTERNAL: books of a mapping that has emitted and returned more, and may have the flag. -/
theorem Mirror.apart (h : Mirror share extra unwound books) (less : Sharing (τ × ℕ))
    (events : List MmapEvent) (returns : List (Except AccessError Unit))
    (hpc : share.pc = less.pc)
    (hmmap : share.mmap = { less.mmap with poisoned := share.mmap.poisoned })
    (hrecorded : share.recorded = less.recorded) (hevents : share.events = less.events ++ events)
    (hreturns : share.returns = less.returns ++ returns) :
    Mirror less (extra ++ events) (unwound ++ returns) books where
  pc := fun k => by rw [h.pc, hpc]
  mmap := by rw [h.mmap, hmmap]
  recorded := h.recorded.trans hrecorded
  events := by
    rw [h.events, hevents, ← Multiset.coe_add, ← Multiset.coe_add, add_assoc,
      add_comm (events : Multiset MmapEvent)]
  returns := by
    rw [h.returns, hreturns, ← Multiset.coe_add, ← Multiset.coe_add, add_assoc,
      add_comm (returns : Multiset (Except AccessError Unit))]

/-- INTERNAL: **a panic** is the call going on to its end in the books alone: it sets the flag and
emits the event if it has not, and returns.
SOURCE: mmap/mod.rs:1047-1054 -/
theorem Mirror.unwind [Fintype τ] {mmap : SafeMmap} (h : Mirror share extra unwound books)
    (hbooked : Booked mmap books) (hon : share.mmap.onEvent = true) (hd : d < n)
    (hcall : Suspended (share.pc (t, d))) :
    ∃ books' : Sharing (τ × Fin n), Booked mmap books' ∧ Mirror (share.goto (t, d) .idle)
      (extra ++ (Reentry.countOf (share.pc (t, d))).map MmapEvent.poisoned)
      (unwound ++ Reentry.resultOf (share.pc (t, d))) books' := by
  obtain ⟨addr, ⟨count, hstore⟩ | hret⟩ := hcall
  · rw [hstore]
    obtain ⟨one, hone, hmirror⟩ := h.move hd (.store addr count hstore)
    obtain ⟨two, htwo, hmirror⟩ :=
      hmirror.move hd (.emitPoisoned addr count (Function.update_self _ _ _))
    obtain ⟨three, hthree, hmirror⟩ :=
      hmirror.move hd (.ret (.error (.sigbus addr)) (Function.update_self _ _ _))
    refine ⟨three, booked_move (booked_move (booked_move hbooked hone) htwo) hthree,
      hmirror.apart _ [.poisoned count] [.error (.sigbus addr)] ?_ rfl rfl ?_ rfl⟩
    · simp only [Sharing.goto, Function.update_idem]
    · exact congrArg (share.events ++ ·) (if_pos hon)
  · rw [hret]
    obtain ⟨one, hone, hmirror⟩ := h.move hd (.ret (.error (.sigbus addr)) hret)
    exact ⟨one, booked_move hbooked hone,
      hmirror.apart _ [] [.error (.sigbus addr)] rfl rfl rfl (List.append_nil _).symm rfl⟩

end Mirrors

/-! ## The runs -/

section Runs

variable {page : Usize} {t : τ} {s s' : Reentry τ} {share share' : Sharing (τ × ℕ)}

/-- INTERNAL: **what a step can be.** -/
theorem step_turn {act : ReentryAct} (h : Reentry.step page (t, act) s = some s') :
    Turn page t s s' act := by
  unfold Reentry.step at h
  dsimp only at h
  split at h
  · rename_i act
    rw [Option.map_eq_some_iff] at h
    obtain ⟨share, hmove, rfl⟩ := h
    exact .move act share hmove rfl
  · rename_i d hd
    rw [hd] at h
    split at h
    · rename_i htop
      cases h
      exact .leave d hd htop rfl
    · cases h
  · rename_i d hd
    rw [hd] at h
    split at h
    · rename_i htop
      cases h
      exact .panic d hd htop rfl
    · cases h
  · cases h

/-- INTERNAL: a step between two places that set no flag. -/
theorem flagging_update {pc : τ × ℕ → CallPc} {k : τ × ℕ} {c : CallPc}
    (hp : flagging (pc k) = false) (hc : flagging c = false) :
    (∃ j, flagging (Function.update pc k c j) = true) ↔ ∃ j, flagging (pc j) = true := by
  refine exists_congr fun j => ?_
  by_cases hj : j = k
  · rw [hj, Function.update_self, hp, hc]
  · rw [Function.update_of_ne hj]

/-- INTERNAL: the quiet part of a call sets no flag. -/
theorem flagging_of_quiet {c : CallPc} (h : quietPc c = true) : flagging c = false := by
  cases c with
  | emitPoisoned err count => cases h
  | _ => rfl

/-- INTERNAL: the quiet part of a call emits nothing. -/
theorem emits_of_quiet {c : CallPc} (h : quietPc c = true) : Reentry.emits c = false := by
  cases c with
  | emitSigbus err count => cases h
  | emitPoisoned err count => cases h
  | _ => rfl

/-- INTERNAL: **the flag and the event** go together.
SOURCE: mmap/mod.rs:1047-1054 -/
theorem Flagged.move {k : τ × ℕ} (h : Flagged share)
    (hon : share.mmap.onEvent = true) (hmove : Sharing.Move share k share') : Flagged share' := by
  cases hmove with
  | silent c hp hc hsane =>
    exact h.trans (or_congr Iff.rfl
      (flagging_update (flagging_of_quiet hp) (flagging_of_quiet hc)).symm)
  | fault addr hp =>
    exact h.trans (or_congr Iff.rfl (flagging_update (flagging_of_quiet hp) rfl).symm)
  | record addr hp =>
    exact h.trans (or_congr Iff.rfl (flagging_update (by rw [hp]; rfl) rfl).symm)
  | emitSigbus addr count hp =>
    have hnext : flagging (if count ≥ share.mmap.maxSigbus then .store (.sigbus addr) count
        else .ret (.error (.sigbus addr))) = false := by
      split <;> rfl
    refine h.trans (or_congr ?_ (flagging_update (by rw [hp]; rfl) hnext).symm)
    simp [SafeMmap.emitEvent, hon]
  | store addr count hp =>
    refine iff_of_true rfl (Or.inr ⟨k, ?_⟩)
    simp only [Sharing.goto, Function.update_self]
    rfl
  | emitPoisoned addr count hp =>
    have hset : share.mmap.poisoned = true := h.mpr (Or.inr ⟨k, by rw [hp]; rfl⟩)
    refine iff_of_true hset (Or.inl ⟨count, ?_⟩)
    simp [SafeMmap.emitEvent, hon]
  | ret result hp =>
    exact h.trans (or_congr Iff.rfl (flagging_update (by rw [hp]; rfl) rfl).symm)

/-- INTERNAL: a step of one thread at one level leaves all other places alone. -/
theorem move_others {k j : τ × ℕ} (hmove : Sharing.Move share k share') (hj : j ≠ k) :
    share'.pc j = share.pc j := by
  cases hmove <;> exact Function.update_of_ne hj _ _

/-- INTERNAL: a call that has just emitted an event is in the middle of its callback.
SOURCE: mmap/mod.rs:1047-1054 -/
theorem emits_suspended {k : τ × ℕ} (hmove : Sharing.Move share k share')
    (hemits : Reentry.emits (share.pc k) = true) : Suspended (share'.pc k) := by
  cases hmove with
  | silent c hp hc hsane =>
    rw [emits_of_quiet hp] at hemits
    cases hemits
  | fault addr hp =>
    rw [emits_of_quiet hp] at hemits
    cases hemits
  | record addr hp =>
    rw [hp] at hemits
    cases hemits
  | emitSigbus addr count hp =>
    refine ⟨addr, ?_⟩
    simp only [Sharing.goto, Function.update_self]
    split
    · exact Or.inl ⟨count, rfl⟩
    · exact Or.inr rfl
  | store addr count hp =>
    rw [hp] at hemits
    cases hemits
  | emitPoisoned addr count hp =>
    refine ⟨addr, Or.inr ?_⟩
    simp only [Sharing.goto, Function.update_self]
  | ret result hp =>
    rw [hp] at hemits
    cases hemits

/-- INTERNAL: a call that waits for its callback sets no flag meanwhile. -/
theorem Suspended.not_flagging {c : CallPc} (h : Suspended c) : flagging c = false := by
  obtain ⟨addr, ⟨count, rfl⟩ | rfl⟩ := h <;> rfl

variable [Fintype τ] {mmap : SafeMmap} {n steps : ℕ}

omit [DecidableEq τ] in
/-- INTERNAL: the books are balanced when the mapping is opened.
SOURCE: mmap/mod.rs:397-405 -/
theorem reconciled_init (opts : SafeMmapOptions) (raw : RawMmap) (hon : opts.onEvent = true)
    (hroom : steps < n) :
    Reconciled (opts.finish raw) n steps (.init τ (opts.finish raw)) where
  room := fun t => by
    show 0 + steps < n
    omega
  above := fun t d hd => rfl
  suspended := fun t d hd => absurd hd (Nat.not_lt_zero d)
  heard := hon
  flagged := by
    refine iff_of_false Bool.false_ne_true ?_
    rintro (⟨count, hmem⟩ | ⟨k, hk⟩)
    · cases hmem
    · cases hk
  books := ⟨.init (τ × Fin n) (opts.finish raw), ⟨fun k => rfl, rfl, rfl, rfl, rfl⟩,
    booked_init opts raw⟩

omit [DecidableEq τ] in
/-- INTERNAL: every level is sane. -/
theorem Reconciled.sane (h : Reconciled mmap n steps s) : Sane s.share := by
  obtain ⟨books, hmirror, hbooked⟩ := h.books
  rintro ⟨u, e⟩
  by_cases he : e < n
  · have hsane := hbooked.sane (u, ⟨e, he⟩)
    rw [hmirror.pc, hmirror.mmap] at hsane
    exact hsane
  · have hroom := h.room u
    rw [h.above u e (by omega)]
    trivial

/-- INTERNAL: **a step of the code at the highest level.** -/
theorem Reconciled.move (h : Reconciled mmap n (steps + 1) s)
    (hmove : Sharing.Move s.share (t, s.depth t) share) :
    Reconciled mmap n steps { s with
      share := share
      depth := if s.share.mmap.onEvent && Reentry.emits (s.share.pc (t, s.depth t)) then
          Function.update s.depth t (s.depth t + 1) else s.depth } := by
  obtain ⟨books, hmirror, hbooked⟩ := h.books
  have hheard : share.mmap.onEvent = s.share.mmap.onEvent := by cases hmove <;> rfl
  have hroom (u : τ) : s.depth u + 1 + steps < n := by
    have hbefore := h.room u
    omega
  have hless (u : τ) : s.depth u + steps < n := by
    have hlevel := hroom u
    omega
  obtain ⟨books', hmove', hmirror'⟩ := hmirror.move (show s.depth t < n by
    have hlevel := hroom t
    omega) hmove
  have hothers (u : τ) (e : ℕ) (hne : u = t → e ≠ s.depth t) :
      share.pc (u, e) = s.share.pc (u, e) := by
    apply move_others hmove
    intro heq
    exact hne (congrArg Prod.fst heq) (congrArg Prod.snd heq)
  have hbooks := booked_move hbooked hmove'
  have hflagged := Flagged.move h.flagged h.heard hmove
  by_cases hemits : Reentry.emits (s.share.pc (t, s.depth t)) = true
  · rw [h.heard, hemits, Bool.and_self, if_pos rfl]
    refine ⟨?_, ?_, ?_, hheard.trans h.heard, hflagged, books', hmirror', hbooks⟩
    · refine (Function.forall_update_iff s.depth fun _ d => d + steps < n).mpr
        ⟨hroom t, fun u _ => hless u⟩
    · refine (Function.forall_update_iff s.depth fun u d =>
        ∀ e, d < e → share.pc (u, e) = .idle).mpr ⟨?_, ?_⟩
      · intro e he
        rw [hothers t e fun _ => by omega]
        exact h.above t e (by omega)
      · intro u hu e he
        rw [hothers u e fun heq => absurd heq hu]
        exact h.above u e he
    · refine (Function.forall_update_iff s.depth fun u d =>
        ∀ e, e < d → Suspended (share.pc (u, e))).mpr ⟨?_, ?_⟩
      · intro e he
        by_cases htop : e = s.depth t
        · rw [htop]
          exact emits_suspended hmove hemits
        · rw [hothers t e fun _ => htop]
          exact h.suspended t e (by omega)
      · intro u hu e he
        rw [hothers u e fun heq => absurd heq hu]
        exact h.suspended u e he
  · rw [Bool.not_eq_true] at hemits
    rw [hemits, Bool.and_false, if_neg Bool.false_ne_true]
    refine ⟨?_, ?_, ?_, hheard.trans h.heard, hflagged, books', hmirror', hbooks⟩
    · exact hless
    · intro u e he
      rw [hothers u e (by rintro rfl; exact (Nat.ne_of_lt he).symm)]
      exact h.above u e he
    · intro u e he
      rw [hothers u e (by rintro rfl; exact Nat.ne_of_lt he)]
      exact h.suspended u e he

/-- INTERNAL: a callback ends, and with it the level.
SOURCE: mmap/mod.rs:1057-1061 -/
theorem Reconciled.pop (h : Reconciled mmap n (steps + 1) s) {d : ℕ} (hdepth : s.depth t = d + 1)
    (htop : s.share.pc (t, d + 1) = .idle) :
    Reconciled mmap n (steps + 1) { s with depth := Function.update s.depth t d } := by
  refine ⟨?_, ?_, ?_, h.heard, h.flagged, h.books⟩
  · refine (Function.forall_update_iff s.depth fun _ d => d + (steps + 1) < n).mpr
      ⟨?_, fun u _ => h.room u⟩
    have hroom := h.room t
    omega
  · refine (Function.forall_update_iff s.depth fun u d =>
      ∀ e, d < e → s.share.pc (u, e) = .idle).mpr ⟨?_, fun u _ => h.above u⟩
    intro e he
    by_cases hlast : e = d + 1
    · rw [hlast]
      exact htop
    · exact h.above t e (by omega)
  · refine (Function.forall_update_iff s.depth fun u d =>
      ∀ e, e < d → Suspended (s.share.pc (u, e))).mpr ⟨?_, fun u _ => h.suspended u⟩
    intro e he
    exact h.suspended t e (by omega)

/-- INTERNAL: **every step keeps the invariant**, and needs room for one level.
SOURCE: mmap/mod.rs:503-585, 668-686, 815-839, 1013-1061 -/
theorem Reconciled.step (steps : ℕ) (a : τ × ReentryAct) (s s' : Reentry τ)
    (h : Reconciled mmap n (steps + 1) s) (hstep : Reentry.step page a s = some s') :
    Reconciled mmap n steps s' := by
  have hless {s : Reentry τ} (h : Reconciled mmap n (steps + 1) s) : Reconciled mmap n steps s :=
    ⟨fun u => by
      have hroom := h.room u
      omega, h.above, h.suspended, h.heard, h.flagged, h.books⟩
  obtain ⟨t, act⟩ := a
  cases step_turn hstep with
  | move act share hmove heq =>
    subst heq
    exact h.move (share_move h.sane hmove)
  | leave d hdepth htop heq =>
    subst heq
    exact hless (h.pop hdepth htop)
  | panic d hdepth htop heq =>
    subst heq
    have hcall := h.suspended t d (by omega)
    have hpopped := hless (h.pop hdepth htop)
    obtain ⟨books, hmirror, hbooked⟩ := h.books
    have hd : d < n := by
      have hroom := h.room t
      omega
    obtain ⟨books', hbooked', hmirror'⟩ := hmirror.unwind hbooked h.heard hd hcall
    refine ⟨hpopped.room, ?_, ?_, h.heard, ?_, books', ?_, hbooked'⟩
    · intro u e he
      have habove := hpopped.above u e he
      simp only [Sharing.goto, Function.update_apply]
      split
      · rfl
      · exact habove
    · intro u e he
      have hsuspended := hpopped.suspended u e he
      have hne : ((u, e) : τ × ℕ) ≠ (t, d) := by
        rintro ⟨⟩
        simp at he
      simp only [Sharing.goto, Function.update_of_ne hne]
      exact hsuspended
    · exact h.flagged.trans (or_congr Iff.rfl (flagging_update hcall.not_flagging rfl).symm)
    · rw [List.map_append]
      exact hmirror'

/-! ## The accounts -/

/-- No call is running at the level. -/
def isIdle : CallPc → Bool
  | .idle => true
  | _ => false

omit [DecidableEq τ] in
/-- INTERNAL: `isIdle` decides whether a place is without a call. -/
theorem isIdle_iff {c : CallPc} : isIdle c = true ↔ c = .idle := by
  cases c <;> simp [isIdle]

/-- The event that the mapping has been poisoned. -/
def isWarning : MmapEvent → Bool
  | .poisoned _ => true
  | _ => false

/-- The faults of the calls that have returned and of those that were unwound. -/
def faultsOf (s : Reentry τ) : List Usize := (s.share.returns ++ s.unwound).filterMap faultOf

omit [Fintype τ] in
/-- INTERNAL: only a panic unwinds a call. -/
theorem step_panic {act : ReentryAct} (hact : act ≠ .panic) (h : s.lost = [] ∧ s.unwound = [])
    (hstep : Reentry.step page (t, act) s = some s') : s'.lost = [] ∧ s'.unwound = [] := by
  cases step_turn hstep with
  | move act share hmove heq =>
    subst heq
    exact h
  | leave d hdepth htop heq =>
    subst heq
    exact h
  | panic d hdepth htop heq => exact absurd rfl hact

omit [DecidableEq τ] [Fintype τ] in
/-- INTERNAL: a list of warnings has as many warnings as entries. -/
theorem countP_warnings {α : Type} (f : α → UInt32) (l : List α) :
    (l.map fun k => MmapEvent.poisoned (f k)).countP isWarning = l.length := by
  rw [List.countP_map]
  exact List.countP_eq_length.mpr fun _ _ => rfl

omit [DecidableEq τ] [Fintype τ] in
/-- INTERNAL: what is left of the warnings when some are lost. -/
theorem warnings_left {events : List MmapEvent} {lost : List UInt32} {faults : List Usize}
    {counts : List ℕ} (h : (events ++ lost.map MmapEvent.poisoned).Perm
      (faults.map MmapEvent.sigbus ++ counts.map fun k => MmapEvent.poisoned (UInt32.ofNat k))) :
    (∃ count, .poisoned count ∈ events) ↔ lost.length < counts.length := by
  have hfaults : (faults.map MmapEvent.sigbus).countP isWarning = 0 := by
    rw [List.countP_map]
    exact List.countP_eq_zero.mpr fun _ _ => Bool.false_ne_true
  have hsame := h.countP_eq isWarning
  rw [List.countP_append, List.countP_append, hfaults, countP_warnings _ counts,
    countP_warnings (fun count => count) lost] at hsame
  have hsome : 0 < events.countP isWarning ↔ ∃ count, .poisoned count ∈ events := by
    rw [List.countP_pos_iff]
    refine ⟨?_, fun ⟨count, hmem⟩ => ⟨_, hmem, rfl⟩⟩
    rintro ⟨event, hmem, hwarning⟩
    cases event with
    | poisoned count => exact ⟨count, hmem⟩
    | _ => cases hwarning
  rw [← hsome]
  omega

omit [DecidableEq τ] in
/-- INTERNAL: **the books at rest**: no call is running, at any level. -/
theorem Reconciled.rest (h : Reconciled mmap n steps s)
    (hrest : ∀ t, s.depth t = 0 ∧ s.share.pc (t, 0) = .idle)
    (hfew : (faultsOf s).length < 2 ^ 32) :
    s.share.mmap.sigbusCount.toNat = (faultsOf s).length ∧
    (s.share.events ++ s.lost.map MmapEvent.poisoned).Perm
      ((faultsOf s).map MmapEvent.sigbus ++ (poisonCounts mmap.maxSigbus (faultsOf s).length).map
        fun k => MmapEvent.poisoned (UInt32.ofNat k)) := by
  obtain ⟨books, hmirror, hbooked⟩ := h.books
  have hpc (k : τ × Fin n) : books.pc k = .idle := by
    obtain ⟨u, e⟩ := k
    rw [hmirror.pc]
    by_cases he : (e : ℕ) = 0
    · simp only [he]
      exact (hrest u).2
    · exact h.above u e (by
        rw [(hrest u).1]
        exact Nat.pos_of_ne_zero he)
  have hidle {M : Type} [AddCommMonoid M] (g : CallPc → M) (hg : g .idle = 0) :
      total g books.pc = 0 := by
    refine total_eq_zero fun k => ?_
    rw [hpc k]
    exact hg
  have hreturns : (books.returns.filterMap faultOf).Perm (faultsOf s) := by
    refine List.Perm.filterMap _ (Multiset.coe_eq_coe.mp ?_)
    rw [hmirror.returns, Multiset.coe_add]
  have hrecorded : books.recorded = (faultsOf s).length := by
    have hcalls : books.recorded = _ + total counted books.pc := hbooked.calls
    rw [hidle counted rfl, hreturns.length_eq] at hcalls
    exact hcalls
  obtain ⟨haccounts, -⟩ := hbooked.accounts (by omega)
  have hcount : books.mmap.sigbusCount = s.share.mmap.sigbusCount := by rw [hmirror.mmap]
  have hheard : books.mmap.onEvent = s.share.mmap.onEvent := by rw [hmirror.mmap]
  refine ⟨by rw [← hcount, haccounts.count, hrecorded], ?_⟩
  have hbalance := haccounts.events (hheard.trans h.heard)
  rw [hidle (pending books.mmap.maxSigbus) rfl, add_zero, hbooked.fixed.1, hrecorded,
    hmirror.events] at hbalance
  unfold faults at hbalance
  rw [hidle inflight rfl, add_zero, Multiset.coe_eq_coe.mpr hreturns, Multiset.map_coe,
    Multiset.coe_add, Multiset.coe_add] at hbalance
  exact Multiset.coe_eq_coe.mp hbalance

end Runs

/-- RESULT: **the accounts of a mapping whose callback uses it.** Any number of threads call
`read`, `write`, `read_into` and `probe`, from their own code and from the callback, to any
depth, and any callback may panic. The flag is set exactly when a `Poisoned` event has been
emitted or is the next thing that a call does. Without a panic no call is unwound. When nothing
runs, after fewer than `2 ^ 32` faults, the counter is the number of faults, those of the unwound
calls included, and the events are those of `fault_accounting` except that the `Poisoned` events
of the `lost` counts are missing; so the mapping is poisoned exactly when fewer counts are lost
than have reached the threshold.
SOURCE: mmap/mod.rs:503-585, 668-686, 815-839, 1013-1061 -/
theorem callbacks_accounted {τ : Type} [DecidableEq τ] [Fintype τ] (page : Usize)
    (opts : SafeMmapOptions) (raw : RawMmap) (acts : List (τ × ReentryAct)) (s : Reentry τ)
    (hon : opts.onEvent = true)
    (h : run (Reentry.step page) acts (.init τ (opts.finish raw)) = some s) :
    (s.share.mmap.poisoned = true ↔
      (∃ count, .poisoned count ∈ s.share.events) ∨ ∃ k, flagging (s.share.pc k) = true) ∧
    ((∀ a ∈ acts, a.2 ≠ .panic) → s.lost = [] ∧ s.unwound = []) ∧
    ((∀ t, s.depth t = 0 ∧ s.share.pc (t, 0) = .idle) → (faultsOf s).length < 2 ^ 32 →
      s.share.mmap.sigbusCount.toNat = (faultsOf s).length ∧
      (s.share.events ++ s.lost.map MmapEvent.poisoned).Perm
        ((faultsOf s).map MmapEvent.sigbus ++
          (poisonCounts opts.maxSigbus (faultsOf s).length).map
            fun k => MmapEvent.poisoned (UInt32.ofNat k)) ∧
      (s.share.mmap.poisoned = true ↔
        s.lost.length < (poisonCounts opts.maxSigbus (faultsOf s).length).length)) := by
  have hreconciled : Reconciled (opts.finish raw) (acts.length + 1) 0 s :=
    run_countdown (fun steps s => Reconciled (opts.finish raw) (acts.length + 1) steps s)
      Reconciled.step acts (reconciled_init opts raw hon (Nat.lt_succ_self _)) h
  refine ⟨hreconciled.flagged, ?_, ?_⟩
  · intro hcalm
    exact run_invariant (fun s : Reentry τ => s.lost = [] ∧ s.unwound = [])
      (fun a s s' hact hs hstep => step_panic hact hs hstep) acts ⟨rfl, rfl⟩
      (along_of_forall fun a ha s => hcalm a ha) h
  · intro hrest hfew
    obtain ⟨hcount, hevents⟩ := hreconciled.rest hrest hfew
    refine ⟨hcount, hevents, hreconciled.flagged.trans (Iff.trans ?_ (warnings_left hevents))⟩
    refine or_iff_left ?_
    rintro ⟨⟨u, e⟩, hflagging⟩
    have hidle : s.share.pc (u, e) = .idle := by
      cases e with
      | zero => exact (hrest u).2
      | succ e =>
        apply hreconciled.above
        rw [(hrest u).1]
        exact Nat.succ_pos e
    rw [hidle] at hflagging
    cases hflagging

/-- A read that faults, up to its `Sigbus` callback. -/
def faultingRead : List (Unit × ReentryAct) :=
  [((), .act (.call (.read 0 1))), ((), .act .next), ((), .act .next),
    ((), .act (.touch (some 0x10000))), ((), .act .next), ((), .act .next)]

/-- The callback of the first fault panics and that of the second one returns. -/
def panicOnce : List (Unit × ReentryAct) :=
  faultingRead ++ [((), .panic)] ++ faultingRead ++
    [((), .leave), ((), .act .next), ((), .act .next), ((), .leave), ((), .act .next)]

/-- The run `panicOnce` on a mapping with `max_sigbus` 1: the first fault is counted and its
`Poisoned` event is lost, the second one poisons the mapping. -/
theorem callbacks_accounted_panicOnce :
    ∃ s, run (Reentry.step 4096) panicOnce
        (.init Unit (heard.finish ⟨0x10000, 4096, false⟩)) = some s ∧
      s.lost = [1] ∧ s.share.mmap.sigbusCount.toNat = 2 ∧
      (s.share.events ++ [MmapEvent.poisoned 1]).Perm
        [.sigbus 0x10000, .sigbus 0x10000, .poisoned 1, .poisoned 2] ∧
      s.share.mmap.poisoned = true := by
  have hresult : (run (Reentry.step 4096) panicOnce
      (.init Unit (heard.finish ⟨0x10000, 4096, false⟩))).map
        (fun s => (faultsOf s, s.lost, s.depth (), isIdle (s.share.pc ((), 0)))) =
      some ([0x10000, 0x10000], [1], 0, true) := by
    decide +kernel
  cases hs : run (Reentry.step 4096) panicOnce
      (.init Unit (heard.finish ⟨0x10000, 4096, false⟩)) with
  | none => simp [hs] at hresult
  | some s =>
    simp only [hs, Option.map_some, Option.some.injEq, Prod.mk.injEq] at hresult
    obtain ⟨hfaults, hlost, hdepth, hidle⟩ := hresult
    obtain ⟨-, -, hrest⟩ := callbacks_accounted 4096 heard ⟨0x10000, 4096, false⟩ panicOnce s
      rfl hs
    obtain ⟨hcount, hevents, hpoisoned⟩ := hrest (fun _ => ⟨hdepth, isIdle_iff.mp hidle⟩)
      (by rw [hfaults]; decide)
    rw [hfaults] at hcount hevents hpoisoned
    rw [hlost] at hevents hpoisoned
    exact ⟨s, rfl, hlost, hcount, hevents, hpoisoned.mpr (by decide)⟩

end MmapShield.Analysis.Callbacks
