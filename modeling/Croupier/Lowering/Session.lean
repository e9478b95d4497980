import Croupier.Lowering.Expr

/-!
# Sessions

What lowering carries along from statement to statement: the next free number, and the result
types settled so far. A step of lowering (`Lowering`) either gives a result or refuses the
program, and in both cases it leaves a session behind, so that it can be said of every run,
finished or not, which numbers it has given out and what it has settled.

> A sequence of steps succeeds exactly when each step does (`bind_eq_ok`), and every basic step
> says what it gives and what session it leaves.
-/

namespace Croupier

/-- What lowering has produced besides the statements. -/
structure Session where
  nextId : Nat
  returns : Returns

/-- The session before anything has been read: the library has used up its numbers. -/
def Session.initial : Session := ⟨Library.size, []⟩

/-- A step of lowering. -/
abbrev Lowering := EStateM Fault Session

namespace Lowering

/-- Takes `count` numbers and gives the first of them. -/
def reserve (count : Nat) : Lowering Nat :=
  fun session => .ok session.nextId { session with nextId := session.nextId + count }

/-- Settles the result type of a function. -/
def settle (id : Nat) (result : Ty) : Lowering Unit :=
  fun session => .ok () { session with returns := (id, result) :: session.returns }

/-- The result types settled so far. -/
def settled : Lowering Returns := fun session => .ok session.returns session

/-- A step that only checks or computes. -/
def checked {α : Type} (result : Except Fault α) : Lowering α :=
  fun session =>
    match result with
    | .ok a => .ok a session
    | .error fault => .error fault session

/-- A step that only reads. -/
def reading {α : Type} (strictness : Strictness) (scope : Scope) (f : Setting → Except Fault α) :
    Lowering α :=
  fun session => checked (f ⟨strictness, session.returns, scope⟩) session

/-! ### What a successful step leaves behind -/

/-- Two steps succeed if the first does and the second does from the session it leaves. -/
theorem bind_eq_ok {α β : Type} {x : Lowering α} {f : α → Lowering β} {s t : Session} {b : β} :
    (x >>= f) s = .ok b t ↔ ∃ a u, x s = .ok a u ∧ f a u = .ok b t := by
  show EStateM.bind x f s = _ ↔ _
  unfold EStateM.bind
  cases x s with
  | ok a u => exact ⟨fun h => ⟨a, u, rfl, h⟩, fun ⟨_, _, h, g⟩ => by cases h; exact g⟩
  | error e u => exact ⟨fun h => by simp at h, fun ⟨_, _, h, _⟩ => by cases h⟩

/-- A step that only returns something leaves the session alone. -/
theorem pure_eq_ok {α : Type} {a b : α} {s t : Session} :
    (pure a : Lowering α) s = .ok b t ↔ a = b ∧ s = t := by
  show EStateM.pure a s = _ ↔ _
  simp [EStateM.pure]

/-- Numbers are reserved from the counter, which moves on by as many. -/
theorem reserve_eq_ok {count id : Nat} {s t : Session} :
    reserve count s = .ok id t ↔ id = s.nextId ∧ t = { s with nextId := s.nextId + count } := by
  simp [reserve, eq_comm]

/-- A settled result is put in front of those settled before. -/
theorem settle_eq_ok {id : Nat} {result : Ty} {s t : Session} :
    settle id result s = .ok () t ↔ t = { s with returns := (id, result) :: s.returns } := by
  simp [settle, eq_comm]

/-- Asking for the results that are settled changes nothing. -/
theorem settled_eq_ok {returns : Returns} {s t : Session} :
    settled s = .ok returns t ↔ returns = s.returns ∧ t = s := by
  simp [settled, eq_comm]

/-- A check succeeds with what it yields, and leaves the session alone. -/
theorem checked_eq_ok {α : Type} {result : Except Fault α} {a : α} {s t : Session} :
    checked result s = .ok a t ↔ result = .ok a ∧ t = s := by
  unfold checked
  cases result <;> simp [eq_comm]

/-- What only reads sees the results that are settled so far, and leaves the session alone. -/
theorem reading_eq_ok {α : Type} {strictness : Strictness} {scope : Scope}
    {f : Setting → Except Fault α} {a : α} {s t : Session} :
    reading strictness scope f s = .ok a t ↔ f ⟨strictness, s.returns, scope⟩ = .ok a ∧ t = s :=
  checked_eq_ok

/-! ### Outcomes -/

/-- What a step comes to: its result with the session behind it, or the fault alone. -/
def outcome {α : Type} (x : Lowering α) (s : Session) : Except Fault (α × Session) :=
  match x s with
  | .ok a t => .ok (a, t)
  | .error fault _ => .error fault

/-- The outcome of two steps is that of the second, from where the first one ended. -/
theorem outcome_bind {α β : Type} (x : Lowering α) (f : α → Lowering β) (s : Session) :
    outcome (x >>= f) s = outcome x s >>= fun (a, t) => outcome (f a) t := by
  unfold outcome
  show (match EStateM.bind x f s with | .ok a t => _ | .error fault _ => _) = _
  unfold EStateM.bind
  cases x s <;> rfl

/-- The outcome of a check is its own, with the session as it was. -/
theorem outcome_checked {α : Type} (result : Except Fault α) (s : Session) :
    outcome (checked result) s = result.map (fun a => (a, s)) := by
  unfold outcome checked
  cases result <;> rfl

/-- The outcome of what only reads is its own, with the session as it was. -/
theorem outcome_reading {α : Type} (strictness : Strictness) (scope : Scope)
    (f : Setting → Except Fault α) (s : Session) :
    outcome (reading strictness scope f) s =
      (f ⟨strictness, s.returns, scope⟩).map (fun a => (a, s)) :=
  outcome_checked _ s

end Lowering

end Croupier
