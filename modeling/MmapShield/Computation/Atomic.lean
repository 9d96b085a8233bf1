import MmapShield.Computation.Machine

/-!
# Objects whose operations take effect at one moment

The clients of an object call its operations and receive the answers. In `AtomicObject` an
operation takes effect in a single step, somewhere between its call and its return; the history
is what the clients see. A history is linearizable when the atomic object has it: the effects, in
the order they are taken in, are a sequential execution that agrees with every answer and with
the order of the calls that do not overlap.
-/

set_option autoImplicit false

namespace MmapShield.Computation

/-- What a client sees. -/
inductive ObjectEvent (ι ο ρ : Type)
  | call (t : ι) (op : ο)
  | ret (t : ι) (op : ο) (answer : ρ)
  deriving DecidableEq, Repr

/-- The operation of a client: none, one that has not taken effect, or one that has. -/
inductive Pending (ο ρ : Type)
  | idle
  | called (op : ο)
  | done (op : ο) (answer : ρ)
  deriving DecidableEq, Repr

/-- The value of the object, its clients and the history. -/
structure AtomicObject (ι σ ο ρ : Type) where
  value : σ
  pending : ι → Pending ο ρ
  history : List (ObjectEvent ι ο ρ)

/-- A client calls an operation, has its effect, or receives its answer. -/
inductive AtomicAct (ι ο : Type)
  | call (t : ι) (op : ο)
  | effect (t : ι)
  | ret (t : ι)
  deriving DecidableEq, Repr

variable {ι σ ο ρ : Type} [DecidableEq ι]

namespace AtomicObject

/-- No client has called. -/
def start (ι ο ρ : Type) (value : σ) : AtomicObject ι σ ο ρ where
  value := value
  pending := fun _ => .idle
  history := []

/-- One step, where `apply` gives the answer of an operation and the value after it. -/
def step (apply : ο → σ → ρ × σ) (a : AtomicAct ι ο) (s : AtomicObject ι σ ο ρ) :
    Option (AtomicObject ι σ ο ρ) :=
  match a with
  | .call t op =>
    match s.pending t with
    | .idle =>
      some { s with
        pending := Function.update s.pending t (.called op)
        history := s.history ++ [.call t op] }
    | _ => none
  | .effect t =>
    match s.pending t with
    | .called op =>
      some { s with
        value := (apply op s.value).2
        pending := Function.update s.pending t (.done op (apply op s.value).1) }
    | _ => none
  | .ret t =>
    match s.pending t with
    | .done op answer =>
      some { s with
        pending := Function.update s.pending t .idle
        history := s.history ++ [.ret t op answer] }
    | _ => none

variable {apply : ο → σ → ρ × σ} {s : AtomicObject ι σ ο ρ} {t : ι} {op : ο} {answer : ρ}

/-- INTERNAL: an idle thread can call. -/
theorem step_call (h : s.pending t = .idle) :
    step apply (.call t op) s = some { s with
      pending := Function.update s.pending t (.called op)
      history := s.history ++ [.call t op] } := by
  simp only [step, h]

/-- INTERNAL: a call that has not taken effect can take effect. -/
theorem step_effect (h : s.pending t = .called op) :
    step apply (.effect t) s = some { s with
      value := (apply op s.value).2
      pending := Function.update s.pending t (.done op (apply op s.value).1) } := by
  simp only [step, h]

/-- INTERNAL: a call that has taken effect can return. -/
theorem step_ret (h : s.pending t = .done op answer) :
    step apply (.ret t) s = some { s with
      pending := Function.update s.pending t .idle
      history := s.history ++ [.ret t op answer] } := by
  simp only [step, h]

/-- INTERNAL: a run of one action. -/
theorem run_single {a : AtomicAct ι ο} {u : AtomicObject ι σ ο ρ} (h : step apply a s = some u) :
    run (step apply) [a] s = some u :=
  (run_cons a []).mpr ⟨u, h, rfl⟩

end AtomicObject

end MmapShield.Computation
