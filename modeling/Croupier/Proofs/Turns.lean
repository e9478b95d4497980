import Croupier.Proofs.Simplified

/-!
# Which way a turn counts

A turn has a direction from the moment it is lowered, and it keeps it. The direction is read off
the step as it is written: a literal, perhaps with minus signs in front of it (`Expr.WritesInt`).
Any other step, of whatever value, makes the turn count up. Simplifying comes later and turns many
more steps into literals, so a simplified program can have a turn that counts up by `-1`, or
by `0`.

What can be said of a turn with a literal step `n` in a compiled program is therefore a matter of
where the literal comes from. If the step was written as `n`, then `n` is not zero and the direction
is that of its sign (`Direction.Suits`). Simplifying cannot mistake one written number for another,
nor turn a written float into an integer, so there is no third case.

> `Program.turns_directed`: a turn with a literal step has the direction that suits it, or counts
> up because its step was not written as a number.
-/

namespace Croupier

/-! ### Numbers that are written out -/

/-- The expression is a literal up to minus signs in front of it, and writes the integer `n`. -/
inductive Expr.WritesInt : Expr → Int → Prop where
  | literal (n : Int) : WritesInt (.int n) n
  | minus {e : Expr} {n : Int} {ty : Ty} (h : WritesInt e n) :
    WritesInt (.unary (.operator .negate) e ty) (-n)

/-- Changing the sign of an integer turns its comparison with zero around. -/
theorem compare_swap_zero (n : Int) : (compare n 0).swap = compare (-n) 0 := by
  rcases Int.lt_trichotomy n 0 with hneg | rfl | hpos
  · rw [Int.compare_eq_lt.mpr hneg, Int.compare_eq_gt.mpr (by omega)]
    rfl
  · rfl
  · rw [Int.compare_eq_gt.mpr hpos, Int.compare_eq_lt.mpr (by omega)]
    rfl

namespace Expr.WritesInt

variable {e : Expr} {n : Int}

/-- Simplifying gives the number that is written. -/
theorem simplify_eq (h : e.WritesInt n) (returns : Returns) : e.simplify returns = .int n := by
  induction h with
  | literal n => rfl
  | minus _ ih =>
    rw [Expr.simplify, ih]
    rfl

/-- Lowering sees the sign of the number that is written. -/
theorem literalSign?_eq (h : e.WritesInt n) : e.literalSign? = some (compare n 0) := by
  induction h with
  | literal n => rfl
  | minus _ ih => rw [Expr.literalSign?, ih, Option.map_some, compare_swap_zero]

end Expr.WritesInt

/-- An expression whose sign is seen is written as an integer, or simplifies to a float. -/
theorem Expr.written_of_literalSign? (returns : Returns) {e : Expr} {sign : Ordering}
    (h : e.literalSign? = some sign) :
    (∃ n, e.WritesInt n) ∨ ∃ x, e.simplify returns = .float x := by
  match e with
  | .int n => exact Or.inl ⟨n, .literal n⟩
  | .float x => exact Or.inr ⟨x, rfl⟩
  | .unary (.operator .negate) operand ty =>
    obtain ⟨sign', hsign, _⟩ := Option.map_eq_some_iff.mp h
    rcases Expr.written_of_literalSign? returns hsign with ⟨n, hn⟩ | ⟨x, hx⟩
    · exact Or.inl ⟨-n, hn.minus⟩
    · refine Or.inr ⟨-x, ?_⟩
      rw [Expr.simplify, hx]
      rfl

/-! ### Directions -/

/-- The direction is that of the step: a turn that follows it gets ahead by `n` each time. -/
def Direction.Suits (direction : Direction) (n : Int) : Prop :=
  n ≠ 0 ∧ (direction = .descending ↔ n < 0) ∧ (direction = .ascending ↔ 0 < n)

section TurnDirection

variable {step : Expr} {span : Span} {direction : Direction}

/-- A step written as an integer that is accepted is not zero, and sets the direction. -/
theorem turnDirection_of_written {n : Int} (hstep : step.WritesInt n)
    (h : turnDirection step span = .ok direction) : direction.Suits n := by
  unfold turnDirection at h
  rw [hstep.literalSign?_eq] at h
  rcases Int.lt_trichotomy n 0 with hneg | rfl | hpos
  · rw [Int.compare_eq_lt.mpr hneg] at h
    cases h
    exact ⟨by omega, by simpa using hneg, by simp; omega⟩
  · cases h
  · rw [Int.compare_eq_gt.mpr hpos] at h
    cases h
    exact ⟨by omega, by simp; omega, by simpa using hpos⟩

/-- Where no sign is seen, the turn counts up. -/
theorem turnDirection_of_unwritten (hstep : step.literalSign? = none)
    (h : turnDirection step span = .ok direction) : direction = .ascending := by
  unfold turnDirection at h
  rw [hstep] at h
  cases h
  rfl

end TurnDirection

/-! ### Whole programs -/

/-- A turn whose step simplifies to an integer: the integer was written and sets the direction, or
none was and the turn counts up. -/
theorem Program.turn_directed {strictness : Strictness} {tree : List Source.Stmt} {p : Program}
    (h : Source.lower strictness tree = .ok p) {i : Var} {low high step : Expr}
    {direction : Direction} {body : List Stmt}
    (hturn : .stmt (.forTurn i low high step direction body) ∈ p.nodes) {n : Int}
    (hn : step.simplify p.returns = .int n) :
    (step.WritesInt n ∧ direction.Suits n) ∨
      ((∀ m, ¬ step.WritesInt m) ∧ direction = .ascending) := by
  obtain ⟨_, _, _, _, _, hrule⟩ := Program.of_mem_lower h hturn
  cases hrule with
  | forTurn _ _ _ hdirection =>
    cases hsign : step.literalSign? with
    | none =>
      refine Or.inr ⟨fun m hm => ?_, turnDirection_of_unwritten hsign hdirection⟩
      rw [hm.literalSign?_eq] at hsign
      cases hsign
    | some sign =>
      rcases Expr.written_of_literalSign? p.returns hsign with ⟨m, hm⟩ | ⟨x, hx⟩
      · rw [hm.simplify_eq] at hn
        cases hn
        exact Or.inl ⟨hm, turnDirection_of_written hm hdirection⟩
      · rw [hx] at hn
        cases hn

/-- Every turn of a compiled program with a literal integer as its step is a turn of the typed
program, of the same direction. Either its step was written as this integer, which is not zero,
and the turn counts down exactly if the integer is negative and up exactly if it is positive; or
its step was not written as an integer, and the turn counts up. -/
theorem Program.turns_directed {strictness : Strictness} {tree : List Source.Stmt} {q : Program}
    (h : compile strictness tree = .ok q) :
    ∃ p, Source.lower strictness tree = .ok p ∧ p.simplify = q ∧
      ∀ i low' high' n direction body',
        .stmt (.forTurn i low' high' (.int n) direction body') ∈ q.nodes →
        ∃ low high step body, .stmt (.forTurn i low high step direction body) ∈ p.nodes ∧
          step.simplify p.returns = .int n ∧
          ((step.WritesInt n ∧ direction.Suits n) ∨
            ((∀ m, ¬ step.WritesInt m) ∧ direction = .ascending)) := by
  obtain ⟨p, hp, rfl⟩ := compile_eq_ok h
  refine ⟨p, hp, rfl, fun i low' high' n direction body' hturn' => ?_⟩
  obtain ⟨s, hs, heq⟩ := Program.of_mem_simplify hturn'
  cases s with
  | forTurn _ low high step _ body =>
    simp only [Stmt.simplifyParts, Stmt.forTurn.injEq] at heq
    obtain ⟨rfl, rfl, rfl, hstep, rfl, rfl⟩ := heq
    exact ⟨low, high, step, body, hs, hstep.symm, Program.turn_directed hp hs hstep.symm⟩
  | declareVar | declareFunc | assign | bump | call | breakLoop | returnValue | returnNone | branch
  | shortBranch | whileLoop | forEach => cases heq

namespace Countup

open Source (label mention number declare)

/-- `hand n = 9`. -/
def declaration : Source.Stmt := declare "n" (number 9)

/-- `for i in turn(n, 1, step) {}`. -/
def turn (step : Source.Expr) : Source.Stmt :=
  .forTurn .none (label "i") .none [mention "n", number 1, step] []

def n : Var := ⟨14, "n", .mutable, .int⟩

def i (id : Nat) : Var := ⟨id, "i", .mutable, .int⟩

/-- The turn with the step `-(-(-2))` and the turn with the step `3 - 3`. -/
def source : List Source.Stmt :=
  [declaration,
    turn (.unary .none .negate (.unary .none .negate (.unary .none .negate (number 2)))),
    turn (.binary .none .subtract (number 3) (number 3))]

def compiled : Program :=
  ⟨[.declareVar n (.int 9), .forTurn (i 15) (.var n) (.int 1) (.int (-2)) .descending [],
    .forTurn (i 16) (.var n) (.int 1) (.int 0) .ascending []], []⟩

theorem turns_directed_compiled : ∃ p, Source.lower .strict source = .ok p ∧
    p.simplify = compiled ∧
    (∃ low high step body, .stmt (.forTurn (i 15) low high step .descending body) ∈ p.nodes ∧
      step.simplify p.returns = .int (-2) ∧
      ((step.WritesInt (-2) ∧ Direction.descending.Suits (-2)) ∨
        ((∀ m, ¬ step.WritesInt m) ∧ Direction.descending = .ascending))) ∧
    ∃ low high step body, .stmt (.forTurn (i 16) low high step .ascending body) ∈ p.nodes ∧
      step.simplify p.returns = .int 0 ∧
      ((step.WritesInt 0 ∧ Direction.ascending.Suits 0) ∨
        ((∀ m, ¬ step.WritesInt m) ∧ Direction.ascending = .ascending)) := by
  have hcompiled : compile .strict source = .ok compiled := rfl
  obtain ⟨p, hp, hsimplify, hturns⟩ := Program.turns_directed hcompiled
  refine ⟨p, hp, hsimplify, hturns (i 15) (.var n) (.int 1) (-2) .descending [] ?_,
    hturns (i 16) (.var n) (.int 1) 0 .ascending [] ?_⟩
  · simp [compiled, Program.nodes, Stmt.nodesList, Stmt.nodes]
  · simp [compiled, Program.nodes, Stmt.nodesList, Stmt.nodes]

/-- `hand n = 9  for i in turn(n, 1, 0 - 1) {}`. -/
def downward : List Source.Stmt :=
  [declaration, turn (.binary .none .subtract (number 0) (number 1))]

def left : Program :=
  ⟨[.declareVar n (.int 9), .forTurn (i 15) (.var n) (.int 1) (.int (-1)) .ascending []], []⟩

/-- A compiled turn that counts up by `-1`. -/
theorem not_suits : compile .lenient downward = .ok left ∧
    .stmt (.forTurn (i 15) (.var n) (.int 1) (.int (-1)) .ascending []) ∈ left.nodes ∧
    ¬ Direction.ascending.Suits (-1) := by
  refine ⟨rfl, ?_, fun hsuits => ?_⟩
  · simp [left, Program.nodes, Stmt.nodesList, Stmt.nodes]
  · exact absurd (hsuits.2.2.mp rfl) (by decide)

end Countup

end Croupier
