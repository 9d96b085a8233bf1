import MmapShield.Computation.Machine

/-!
# Initialisation that is done once

Any number of agents call an initialisation through a cell that runs it once. The first agent to
enter runs the body while the others wait; when the body ends, the cell is complete and all calls
return, or, when the body panics, the cell is poisoned and all calls panic. `ran` are the outcomes
of the bodies and `left` those of the calls; no step reads them.
-/

set_option autoImplicit false

namespace MmapShield.Computation

/-- The state of the cell. -/
inductive OnceCell (ι : Type)
  | incomplete
  | running (t : ι)
  | complete
  | poisoned
  deriving DecidableEq, Repr

/-- Where an agent is in its call; `settle` is between the end of the body and the change of the
cell, `past` is behind a call that returned. -/
inductive OncePc
  | outside
  | enter
  | body
  | settle (ok : Bool)
  | past
  | panicked
  deriving DecidableEq, Repr

/-- The cell, its agents, and what has happened. -/
structure Once (ι : Type) where
  state : OnceCell ι
  pc : ι → OncePc
  ran : List Bool
  left : List (ι × Bool)

/-- An agent calls, takes a step of the cell, ends the body, or goes on after its call. -/
inductive OnceAct
  | call
  | next
  | body (ok : Bool)
  | leave
  deriving DecidableEq, Repr

namespace Once

variable {ι : Type} [DecidableEq ι]

/-- Nobody has called. -/
def init (ι : Type) : Once ι where
  state := .incomplete
  pc := fun _ => .outside
  ran := []
  left := []

/-- The agent `t` moves on to `c`. -/
def goto (s : Once ι) (t : ι) (c : OncePc) : Once ι := { s with pc := Function.update s.pc t c }

/-- An agent in front of the cell; it waits while another one runs the body. -/
def enterStep (s : Once ι) (t : ι) : Option (Once ι) :=
  match s.state with
  | .incomplete => some { s.goto t .body with state := .running t }
  | .running _ => none
  | .complete => some { s.goto t .past with left := s.left ++ [(t, true)] }
  | .poisoned => some { s.goto t .panicked with left := s.left ++ [(t, false)] }

/-- One step of the agent `t`. -/
def step (a : ι × OnceAct) (s : Once ι) : Option (Once ι) :=
  let t := a.1
  match a.2, s.pc t with
  | .call, .outside => some (s.goto t .enter)
  | .next, .enter => s.enterStep t
  | .body ok, .body => some { s.goto t (.settle ok) with ran := s.ran ++ [ok] }
  | .next, .settle ok =>
    some { s.goto t (if ok then .past else .panicked) with
      state := if ok then .complete else .poisoned
      left := s.left ++ [(t, ok)] }
  | .leave, .past => some (s.goto t .outside)
  | .leave, .panicked => some (s.goto t .outside)
  | _, _ => none

variable {s s' : Once ι} {t u : ι}

/-- What a step can do. -/
inductive Move (s : Once ι) (t : ι) : OnceAct → Once ι → Prop
  | call (hp : s.pc t = .outside) : Move s t .call (s.goto t .enter)
  | first (hp : s.pc t = .enter) (hs : s.state = .incomplete) :
      Move s t .next { s.goto t .body with state := .running t }
  | later (ok : Bool) (hp : s.pc t = .enter)
      (hs : s.state = if ok then .complete else .poisoned) :
      Move s t .next { s.goto t (if ok then .past else .panicked) with
        left := s.left ++ [(t, ok)] }
  | body (ok : Bool) (hp : s.pc t = .body) :
      Move s t (.body ok) { s.goto t (.settle ok) with ran := s.ran ++ [ok] }
  | settle (ok : Bool) (hp : s.pc t = .settle ok) :
      Move s t .next { s.goto t (if ok then .past else .panicked) with
        state := if ok then .complete else .poisoned
        left := s.left ++ [(t, ok)] }
  | leave (ok : Bool) (hp : s.pc t = if ok then .past else .panicked) :
      Move s t .leave (s.goto t .outside)

/-- INTERNAL: **what a step can do.** -/
theorem step_move {act : OnceAct} (h : step (t, act) s = some s') : Move s t act s' := by
  unfold step at h
  dsimp only at h
  split at h
  · rename_i hp
    cases h
    exact .call hp
  · rename_i hp
    unfold enterStep at h
    split at h
    · cases h
      exact .first hp ‹_›
    · cases h
    · cases h
      exact .later true hp ‹_›
    · cases h
      exact .later false hp ‹_›
  · rename_i ok hp
    cases h
    exact .body ok hp
  · rename_i ok hp
    cases h
    exact .settle ok hp
  · rename_i hp
    cases h
    exact .leave true hp
  · rename_i hp
    cases h
    exact .leave false hp
  · cases h

/-- What has happened, as far as the cell shows it. -/
def Shown (s : Once ι) : OnceCell ι → Prop
  | .incomplete => s.ran = [] ∧ s.left = []
  | .running t => s.left = [] ∧
      (s.pc t = .body ∧ s.ran = [] ∨ ∃ ok, s.pc t = .settle ok ∧ s.ran = [ok])
  | .complete => s.ran = [true]
  | .poisoned => s.ran = [false]

/-- The agent is in the body, or about to change the cell. -/
def inside : OncePc → Bool
  | .body | .settle _ => true
  | _ => false

/-- The invariant of the cell. -/
structure Inv (s : Once ι) : Prop where
  shown : Shown s s.state
  alone : ∀ t, inside (s.pc t) = true → s.state = .running t
  left : ∀ t ok, (t, ok) ∈ s.left → s.ran = [ok]
  past : ∀ t ok, (s.pc t = if ok then .past else .panicked) → s.ran = [ok]

/-- INTERNAL: the invariant holds before the first call. -/
theorem inv_init (ι : Type) : Inv (Once.init ι) where
  shown := ⟨rfl, rfl⟩
  alone := by simp [Once.init, inside]
  left := by simp [Once.init]
  past := by
    intro t ok h
    cases ok <;> cases h

/-- INTERNAL: an agent that is not inside moves to a place that is not inside. -/
theorem Inv.goto (h : Inv s) {c : OncePc} {left : List (ι × Bool)}
    (hold : inside (s.pc t) = false) (hnew : inside c = false)
    (hstate : s.left = left ∨ ∃ ok, s.ran = [ok] ∧ left = s.left ++ [(t, ok)] ∧
      s.state = if ok then .complete else .poisoned)
    (hpast : ∀ ok, (c = if ok then .past else .panicked) → s.ran = [ok]) :
    Inv { s.goto t c with left := left } where
  shown := by
    have hshown := h.shown
    show Shown _ s.state
    rcases hstate with rfl | ⟨ok, hran, rfl, hstate⟩
    · cases hs : s.state with
      | running u =>
          rw [hs] at hshown
          have hne : u ≠ t := by
            rintro rfl
            rcases hshown.2 with ⟨hp, -⟩ | ⟨ok, hp, -⟩
            · rw [hp] at hold
              cases hold
            · rw [hp] at hold
              cases hold
          simpa [Shown, Once.goto, hne] using hshown
      | _ =>
          rw [hs] at hshown
          exact hshown
    · cases ok <;> simpa [hstate, Shown, Once.goto] using hran
  alone := by
    intro u hu
    by_cases hut : u = t
    · subst hut
      simp [Once.goto, hnew] at hu
    · exact h.alone u (by simpa [Once.goto, hut] using hu)
  left := by
    intro u ok hmem
    rcases hstate with rfl | ⟨ok', hran, rfl, -⟩
    · exact h.left u ok hmem
    · rcases List.mem_append.mp hmem with hold | hnew
      · exact h.left u ok hold
      · simp only [List.mem_singleton, Prod.mk.injEq] at hnew
        rw [hnew.2]
        exact hran
  past := by
    intro u ok hu
    by_cases hut : u = t
    · subst hut
      exact hpast ok (by simpa [Once.goto] using hu)
    · exact h.past u ok (by simpa [Once.goto, hut] using hu)

/-- INTERNAL: **every step keeps the invariant.** -/
theorem Inv.move {act : OnceAct} (h : Inv s) (hmove : Move s t act s') : Inv s' := by
  have hshown := h.shown
  cases hmove with
  | call hp =>
      refine h.goto (by simp [hp, inside]) rfl (Or.inl rfl) ?_
      intro ok hok
      cases ok <;> cases hok
  | first hp hs =>
      rw [hs] at hshown
      obtain ⟨hran, hleft⟩ := hshown
      refine ⟨⟨hleft, Or.inl ⟨by simp [Once.goto], hran⟩⟩, ?_, h.left, ?_⟩
      · intro u hu
        by_cases hut : u = t
        · rw [hut]
        · have hrunning := h.alone u (by simpa [Once.goto, hut] using hu)
          rw [hs] at hrunning
          cases hrunning
      · intro u ok hu
        by_cases hut : u = t
        · subst hut
          cases ok <;> simp [Once.goto] at hu
        · exact h.past u ok (by simpa [Once.goto, hut] using hu)
  | later ok hp hs =>
      have hran : s.ran = [ok] := by
        cases ok with
        | true =>
            rw [hs] at hshown
            exact hshown
        | false =>
            rw [hs] at hshown
            exact hshown
      refine h.goto (by simp [hp, inside]) (by cases ok <;> rfl)
        (Or.inr ⟨ok, hran, rfl, hs⟩) ?_
      intro ok' hok
      cases ok <;> cases ok' <;> first | exact hran | cases hok
  | body ok hp =>
      have hrunning := h.alone t (by simp [hp, inside])
      rw [hrunning] at hshown
      have hran : s.ran = [] := by
        rcases hshown.2 with ⟨-, hran⟩ | ⟨ok', hp', -⟩
        · exact hran
        · rw [hp] at hp'
          cases hp'
      refine ⟨?_, ?_, ?_, ?_⟩
      · rw [show ({ s.goto t (.settle ok) with ran := s.ran ++ [ok] } : Once ι).state =
          .running t from hrunning]
        exact ⟨hshown.1, Or.inr ⟨ok, by simp [Once.goto], by simp [hran]⟩⟩
      · intro u hu
        by_cases hut : u = t
        · rw [hut]
          exact hrunning
        · exact h.alone u (by simpa [Once.goto, hut] using hu)
      · intro u ok' hmem
        have hnone : s.left = [] := hshown.1
        simp [Once.goto, hnone] at hmem
      · intro u ok' hu
        by_cases hut : u = t
        · subst hut
          cases ok' <;> simp [Once.goto] at hu
        · have hpast := h.past u ok' (by simpa [Once.goto, hut] using hu)
          rw [hran] at hpast
          cases hpast
  | settle ok hp =>
      have hrunning := h.alone t (by simp [hp, inside])
      rw [hrunning] at hshown
      have hran : s.ran = [ok] := by
        rcases hshown.2 with ⟨hp', -⟩ | ⟨ok', hp', hran⟩
        · rw [hp] at hp'
          cases hp'
        · rw [hp] at hp'
          cases hp'
          exact hran
      refine ⟨?_, ?_, ?_, ?_⟩
      · cases ok <;> exact hran
      · intro u hu
        by_cases hut : u = t
        · subst hut
          cases ok <;> simp [Once.goto, inside] at hu
        · have hother := h.alone u (by simpa [Once.goto, hut] using hu)
          rw [hrunning] at hother
          cases hother
          exact absurd rfl hut
      · intro u ok' hmem
        have hnone : s.left = [] := hshown.1
        simp only [hnone, List.nil_append, List.mem_singleton, Prod.mk.injEq] at hmem
        rw [hmem.2]
        exact hran
      · intro u ok' hu
        by_cases hut : u = t
        · subst hut
          simp only [Once.goto, Function.update_self] at hu
          cases ok <;> cases ok' <;> first | exact hran | cases hu
        · exact h.past u ok' (by simpa [Once.goto, hut] using hu)
  | leave ok hp =>
      refine h.goto (by cases ok <;> simp [hp, inside]) rfl (Or.inl rfl) ?_
      intro ok hok
      cases ok <;> cases hok

/-- INTERNAL: **every step keeps the invariant.** -/
theorem Inv.step (a : ι × OnceAct) (s s' : Once ι) (h : Inv s) (hstep : Once.step a s = some s') :
    Inv s' :=
  h.move (step_move hstep)

/-- The agent can take a step, however the body ends. -/
def CanStep (s : Once ι) (t : ι) : Prop := ∃ act s', act ≠ .call ∧ Once.step (t, act) s = some s'

/-- INTERNAL: an agent that can take a step other than a call can move. -/
theorem canStep_of (act : OnceAct) (hact : act ≠ .call)
    (h : (Once.step (t, act) s).isSome = true) : CanStep s t := by
  obtain ⟨s', hs'⟩ := Option.isSome_iff_exists.mp h
  exact ⟨act, s', hact, hs'⟩

/-- INTERNAL: **only the body is waited for.** -/
theorem Inv.progress (h : Inv s) (t : ι) :
    s.pc t = .outside ∨ CanStep s t ∨
      s.pc t = .enter ∧ ∃ u, s.state = .running u ∧ u ≠ t ∧ CanStep s u := by
  have hinside (u : ι) (hu : inside (s.pc u) = true) : CanStep s u := by
    cases hp : s.pc u with
    | body => exact canStep_of (.body true) (by simp) (by simp [Once.step, hp])
    | settle ok => exact canStep_of .next (by simp) (by simp [Once.step, hp])
    | _ =>
        rw [hp] at hu
        cases hu
  cases hp : s.pc t with
  | outside => exact Or.inl rfl
  | enter =>
      cases hs : s.state with
      | running u =>
          have hshown := h.shown
          rw [hs] at hshown
          have hu : inside (s.pc u) = true := by
            rcases hshown.2 with ⟨hpu, -⟩ | ⟨ok, hpu, -⟩
            · rw [hpu]
              rfl
            · rw [hpu]
              rfl
          refine Or.inr (Or.inr ⟨rfl, u, rfl, ?_, hinside u hu⟩)
          rintro rfl
          rw [hp] at hu
          cases hu
      | _ =>
          refine Or.inr (Or.inl (canStep_of .next (by simp) ?_))
          simp [Once.step, hp, enterStep, hs]
  | body => exact Or.inr (Or.inl (hinside t (by simp [hp, inside])))
  | settle ok => exact Or.inr (Or.inl (hinside t (by simp [hp, inside])))
  | past => exact Or.inr (Or.inl (canStep_of .leave (by simp) (by simp [Once.step, hp])))
  | panicked => exact Or.inr (Or.inl (canStep_of .leave (by simp) (by simp [Once.step, hp])))

end Once

end MmapShield.Computation
