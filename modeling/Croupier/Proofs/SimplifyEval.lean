import Croupier.Simplify.Expr
import Croupier.Proofs.Evaluation
import Croupier.Proofs.Nodes

/-!
# Simplified expressions have the same value

`Expr.simplify` carries out operations on literals, drops operations that change nothing and
decides `and` and `or` beside a literal. None of this can be seen from outside:

> `Expr.value_simplify`: if an expression has a value by some reading, its simplified form has the
> same value by that reading.

This is proved by `Expr.evalIn_simplify`, and `Expr.eval_simplify` is what it says of the usual
reading. The rewrites take nothing for granted that a reading may settle: arithmetic needs
integers in every one of them (`Reading.apply_int_right`), and comparisons are carried out on
integers only.

The converse fails, and is meant to: `false and 1` is decided without a look at its right
operand, and `x * 0` becomes `0` whether `x` has a value or not. So every step below starts from
an operation that succeeds. That is also what rules out the cases in which a rewrite would be
wrong: in `0 / x` the divisor cannot be zero, because then there would be no value to keep.

Variables named `true` and `false` are replaced by the truth values, whatever they hold, so a
program must not use them (`NoTruthNames`).
-/

namespace Croupier

/-- No variable that occurs among the nodes has the name of a truth value. -/
def NoTruthNames (nodes : List Node) : Prop :=
  ∀ v : Var, Node.expr (.var v) ∈ nodes → v.name ≠ "true" ∧ v.name ≠ "false"

/-- Nodes among others that use no such name use none. -/
theorem NoTruthNames.of_subset {xs ys : List Node} (hsub : ∀ x ∈ xs, x ∈ ys)
    (h : NoTruthNames ys) : NoTruthNames xs :=
  fun v hv => h v (hsub _ hv)

theorem NoTruthNames.tail {x : Node} {xs : List Node} (h : NoTruthNames (x :: xs)) :
    NoTruthNames xs :=
  h.of_subset fun _ hx => List.mem_cons_of_mem _ hx

theorem NoTruthNames.left {xs ys : List Node} (h : NoTruthNames (xs ++ ys)) : NoTruthNames xs :=
  h.of_subset fun _ hx => List.mem_append_left _ hx

theorem NoTruthNames.right {xs ys : List Node} (h : NoTruthNames (xs ++ ys)) : NoTruthNames ys :=
  h.of_subset fun _ hx => List.mem_append_right _ hx

/-! ### Literals -/

/-- A literal that has a value at all is an integer. -/
theorem Numeral.ofExpr?_evalIn {e : Expr} {n : Numeral} {I : Reading} {σ : Store} {x : Value}
    (hn : Numeral.ofExpr? e = some n) (h : e.evalIn I σ = some x) :
    ∃ i, e = .int i ∧ n = .int i ∧ x = .int i := by
  unfold Numeral.ofExpr? at hn
  split at hn
  next i =>
    rw [Expr.evalIn] at h
    exact ⟨i, rfl, (Option.some.inj hn).symm, (Option.some.inj h).symm⟩
  next => exact absurd h (by simp [Expr.evalIn])
  next => exact absurd hn (by simp)

/-- A number that has a value is an integer, and has itself as its value. -/
theorem Numeral.ofExpr?_eval {e : Expr} {n : Numeral} {σ : Store} {x : Value}
    (hn : Numeral.ofExpr? e = some n) (h : e.eval σ = some x) :
    ∃ i, e = .int i ∧ n = .int i ∧ x = .int i := by
  rw [← Expr.evalIn_usual] at h
  exact Numeral.ofExpr?_evalIn hn h

/-- What is recognised as `0` has no other value, however operations are read. -/
theorem Expr.isZero_evalIn {e : Expr} {I : Reading} {σ : Store} {x : Value} (hz : e.isZero = true)
    (h : e.evalIn I σ = some x) : x = .int 0 := by
  unfold Expr.isZero at hz
  cases hn : Numeral.ofExpr? e with
  | none => rw [hn] at hz; exact absurd hz (by simp)
  | some n =>
    obtain ⟨i, -, rfl, rfl⟩ := Numeral.ofExpr?_evalIn hn h
    rw [hn] at hz
    have hi : i = 0 := by simpa [Numeral.isZero] using hz
    rw [hi]

/-- What is recognised as `1` has no other value. -/
theorem Expr.isOne_evalIn {e : Expr} {I : Reading} {σ : Store} {x : Value} (ho : e.isOne = true)
    (h : e.evalIn I σ = some x) : x = .int 1 := by
  unfold Expr.isOne at ho
  cases hn : Numeral.ofExpr? e with
  | none => rw [hn] at ho; exact absurd ho (by simp)
  | some n =>
    obtain ⟨i, -, rfl, rfl⟩ := Numeral.ofExpr?_evalIn hn h
    rw [hn] at ho
    have hi : i = 1 := by simpa [Numeral.isOne] using ho
    rw [hi]

/-! ### Operations on integers -/

theorem BinaryOperator.onSame_arithmetic {op : BinaryOperator} (hop : op.opClass = .arithmetic)
    (same : Bool) : op.onSame same = none := by
  cases op <;> first | rfl | cases hop

/-- Arithmetic with an integer on the right has an integer on the left. -/
theorem Reading.apply_int_right {I : Reading} {op : BinaryOperator} {a : Value} {n : Int}
    {x : Value} (hop : op.opClass = .arithmetic) (h : I.apply op a (.int n) = some x) :
    ∃ m, a = .int m ∧ op.onInts m n = some x := by
  cases a with
  | int m => exact ⟨m, rfl, h⟩
  | bool | string | array | object | func =>
    obtain ⟨same, _, hsame⟩ := Option.bind_eq_some_iff.mp h
    rw [BinaryOperator.onSame_arithmetic hop] at hsame
    cases hsame

/-- Arithmetic with an integer on the left has an integer on the right. -/
theorem Reading.apply_int_left {I : Reading} {op : BinaryOperator} {b : Value} {m : Int}
    {x : Value} (hop : op.opClass = .arithmetic) (h : I.apply op (.int m) b = some x) :
    ∃ n, b = .int n ∧ op.onInts m n = some x := by
  cases b with
  | int n => exact ⟨n, rfl, h⟩
  | bool | string | array | object | func =>
    obtain ⟨same, _, hsame⟩ := Option.bind_eq_some_iff.mp h
    rw [BinaryOperator.onSame_arithmetic hop] at hsame
    cases hsame

/-- The outcome of a comparison can be read off how the operands compare. -/
theorem BinaryOperator.onInts_of_holds? {op : BinaryOperator} {a b : Int} {c : Bool}
    (h : op.holds? (compare a b) = some c) : op.onInts a b = some (.bool c) := by
  cases op <;> simp only [holds?, Option.some.injEq, reduceCtorEq] at h <;> subst h <;>
    simp only [onInts, Option.some.injEq, Value.bool.injEq] <;> rw [Bool.eq_iff_iff] <;>
    simp [Ordering.isEq_iff_eq_eq, Ordering.isNe_iff_ne_eq, Ordering.isLT_iff_eq_lt,
      Ordering.isGT_iff_eq_gt, Int.compare_eq_lt, Int.compare_eq_gt, Int.isLE_compare,
      Int.isGE_compare]

/-- What is folded is what would have been computed. -/
theorem BinaryOperator.foldInt_evalIn {op : BinaryOperator} {a b : Int} {e : Expr} {x : Value}
    {I : Reading} {σ : Store} (hf : op.foldInt a b = some e) (hx : op.onInts a b = some x) :
    e.evalIn I σ = some x := by
  cases op with
  | add | subtract | multiply =>
    cases hf
    rw [← hx]
    rfl
  | divide | remainder | floorDivide =>
    simp only [foldInt] at hf
    simp only [onInts] at hx
    by_cases hb : b = 0
    · rw [if_pos hb] at hf
      exact absurd hf (by simp)
    · rw [if_neg hb] at hf hx
      cases hf
      exact hx
  | power =>
    obtain ⟨n, hn, rfl⟩ := Option.map_eq_some_iff.mp hf
    simp only [onInts] at hx
    unfold intPower? at hn
    by_cases hb : b < 0
    · rw [if_pos hb] at hn
      exact absurd hn (by simp)
    · rw [if_neg hb] at hn hx
      -- The two limits only decide whether there is a result.
      split at hn
      next => exact absurd hn (by simp)
      next =>
        split at hn
        next => exact absurd hn (by simp)
        next =>
          cases hn
          exact hx
  | equal | notEqual | less | lessOrEqual | greater | greaterOrEqual =>
    simp only [foldInt] at hf
    obtain ⟨c, hc, rfl⟩ := Option.map_eq_some_iff.mp hf
    rw [onInts_of_holds? hc] at hx
    exact hx
  | and | or => exact absurd hf (by simp [foldInt, holds?])

/-- An operator that is neither `and` nor `or` looks at both operands. -/
theorem Reading.combine_eq_some {I : Reading} {op : BinaryOperator} (hop : op.opClass ≠ .logical)
    {left right : Option Value} {x : Value} :
    I.combine op left right = some x ↔
      ∃ a b, left = some a ∧ right = some b ∧ I.apply op a b = some x := by
  cases op with
  | and | or => exact absurd rfl hop
  | add | subtract | multiply | divide | remainder | floorDivide | power | equal | notEqual
  | less | lessOrEqual | greater | greaterOrEqual =>
    simp only [combine, Option.bind_eq_some_iff]
    constructor
    · rintro ⟨a, ha, b, hb, h⟩
      exact ⟨a, b, ha, hb, h⟩
    · rintro ⟨a, b, ha, hb, h⟩
      exact ⟨a, ha, b, hb, h⟩

/-! ### Dropped operations -/

section Identity

variable {returns : Returns} {left right : Expr} {ty : Ty} {I : Reading} {σ : Store} {a b x : Value}

/-- An operation that is kept has the value it had. -/
theorem evalIn_kept {op : BinaryOperator} (hop : op.opClass ≠ .logical)
    (hl : left.evalIn I σ = some a) (hr : right.evalIn I σ = some b)
    (hx : I.apply op a b = some x) :
    (Expr.binary (.operator op) left right ty).evalIn I σ = some x := by
  rw [Expr.evalIn]
  exact (Reading.combine_eq_some hop).mpr ⟨a, b, hl, hr, hx⟩

/-- Adding `0` on either side leaves the other operand. -/
theorem simplifyIdentity_add (hl : left.evalIn I σ = some a) (hr : right.evalIn I σ = some b)
    (hx : I.apply .add a b = some x) :
    (simplifyIdentity returns .add left right ty).evalIn I σ = some x := by
  simp only [simplifyIdentity]
  split
  next hz =>
    cases Expr.isZero_evalIn hz hr
    obtain ⟨m, rfl, hm⟩ := Reading.apply_int_right rfl hx
    rw [hl, ← hm, BinaryOperator.onInts, Int.add_zero]
  next =>
    split
    next hz =>
      cases Expr.isZero_evalIn hz hl
      obtain ⟨n, rfl, hn⟩ := Reading.apply_int_left rfl hx
      rw [hr, ← hn, BinaryOperator.onInts, Int.zero_add]
    next => exact evalIn_kept (by decide) hl hr hx

/-- Subtracting `0` leaves the left operand, and subtracting from `0` changes the sign of the right
one. -/
theorem simplifyIdentity_subtract (hl : left.evalIn I σ = some a) (hr : right.evalIn I σ = some b)
    (hx : I.apply .subtract a b = some x) :
    (simplifyIdentity returns .subtract left right ty).evalIn I σ = some x := by
  simp only [simplifyIdentity]
  split
  next hz =>
    cases Expr.isZero_evalIn hz hr
    obtain ⟨m, rfl, hm⟩ := Reading.apply_int_right rfl hx
    rw [hl, ← hm, BinaryOperator.onInts, Int.sub_zero]
  next =>
    split
    next hz =>
      cases Expr.isZero_evalIn hz hl
      obtain ⟨n, rfl, hn⟩ := Reading.apply_int_left rfl hx
      rw [Expr.negation, Expr.evalIn, hr, ← hn, BinaryOperator.onInts, Int.zero_sub]
      rfl
    next => exact evalIn_kept (by decide) hl hr hx

/-- Multiplying by `1` leaves the other operand, and by `0` it leaves `0`. -/
theorem simplifyIdentity_multiply (hl : left.evalIn I σ = some a) (hr : right.evalIn I σ = some b)
    (hx : I.apply .multiply a b = some x) :
    (simplifyIdentity returns .multiply left right ty).evalIn I σ = some x := by
  simp only [simplifyIdentity]
  split
  next ho =>
    cases Expr.isOne_evalIn ho hr
    obtain ⟨m, rfl, hm⟩ := Reading.apply_int_right rfl hx
    rw [hl, ← hm, BinaryOperator.onInts, Int.mul_one]
  next =>
    split
    next ho =>
      cases Expr.isOne_evalIn ho hl
      obtain ⟨n, rfl, hn⟩ := Reading.apply_int_left rfl hx
      rw [hr, ← hn, BinaryOperator.onInts, Int.one_mul]
    next =>
      split
      next hz =>
        rcases Bool.or_eq_true_iff.mp hz with hz | hz
        · cases Expr.isZero_evalIn hz hl
          obtain ⟨n, rfl, hn⟩ := Reading.apply_int_left rfl hx
          rw [Expr.evalIn, ← hn, BinaryOperator.onInts, Int.zero_mul]
        · cases Expr.isZero_evalIn hz hr
          obtain ⟨m, rfl, hm⟩ := Reading.apply_int_right rfl hx
          rw [Expr.evalIn, ← hm, BinaryOperator.onInts, Int.mul_zero]
      next => exact evalIn_kept (by decide) hl hr hx

/-- Dividing by `1` leaves the left operand, and `0` divided by anything that can be divided by is
`0`. -/
theorem simplifyIdentity_divide (hl : left.evalIn I σ = some a) (hr : right.evalIn I σ = some b)
    (hx : I.apply .divide a b = some x) :
    (simplifyIdentity returns .divide left right ty).evalIn I σ = some x := by
  simp only [simplifyIdentity]
  split
  next ho =>
    cases Expr.isOne_evalIn ho hr
    obtain ⟨m, rfl, hm⟩ := Reading.apply_int_right rfl hx
    rw [hl, ← hm, BinaryOperator.onInts, if_neg (by decide), Int.tdiv_one]
  next =>
    split
    next hz =>
      cases Expr.isZero_evalIn hz hl
      obtain ⟨n, rfl, hn⟩ := Reading.apply_int_left rfl hx
      -- There is a value, so the divisor is not zero.
      have hn0 : n ≠ 0 := by
        intro h0
        rw [h0, BinaryOperator.onInts, if_pos rfl] at hn
        exact absurd hn (by simp)
      rw [Expr.evalIn, ← hn, BinaryOperator.onInts, if_neg hn0, Int.zero_tdiv]
    next => exact evalIn_kept (by decide) hl hr hx

/-- The rules for powers keep the value of a power that has one. -/
theorem simplifyIdentity_power (hl : left.evalIn I σ = some a) (hr : right.evalIn I σ = some b)
    (hx : I.apply .power a b = some x) :
    (simplifyIdentity returns .power left right ty).evalIn I σ = some x := by
  simp only [simplifyIdentity]
  split
  next hz =>
    rcases Bool.or_eq_true_iff.mp hz with hz | ho
    · cases Expr.isZero_evalIn hz hr
      obtain ⟨m, rfl, hm⟩ := Reading.apply_int_right rfl hx
      have hpow : Int.pow m (Int.toNat 0) = 1 := Int.pow_zero m
      rw [Expr.evalIn, ← hm, BinaryOperator.onInts, if_neg (by decide), hpow]
    · cases Expr.isOne_evalIn ho hl
      obtain ⟨n, rfl, hn⟩ := Reading.apply_int_left rfl hx
      -- There is a value, so the exponent is not negative.
      have hn0 : ¬n < 0 := by
        intro h0
        rw [BinaryOperator.onInts, if_pos h0] at hn
        exact absurd hn (by simp)
      have hpow : Int.pow 1 n.toNat = 1 := Int.one_pow
      rw [Expr.evalIn, ← hn, BinaryOperator.onInts, if_neg hn0, hpow]
  next =>
    split
    next ho =>
      cases Expr.isOne_evalIn ho hr
      obtain ⟨m, rfl, hm⟩ := Reading.apply_int_right rfl hx
      have hpow : Int.pow m (Int.toNat 1) = m := Int.pow_one m
      rw [hl, ← hm, BinaryOperator.onInts, if_neg (by decide), hpow]
    next => exact evalIn_kept (by decide) hl hr hx

end Identity

/-- An operation on simplified operands has the value that it had before. -/
theorem simplifyOperation_evalIn {returns : Returns} {op : BinaryOperator} {left right : Expr}
    {ty : Ty} {I : Reading} {σ : Store} {a b x : Value} (hop : op.opClass ≠ .logical)
    (hl : left.evalIn I σ = some a) (hr : right.evalIn I σ = some b)
    (hx : I.apply op a b = some x) :
    (simplifyOperation returns op left right ty).evalIn I σ = some x := by
  have hidentity : (simplifyIdentity returns op left right ty).evalIn I σ = some x := by
    cases op with
    | add => exact simplifyIdentity_add hl hr hx
    | subtract => exact simplifyIdentity_subtract hl hr hx
    | multiply => exact simplifyIdentity_multiply hl hr hx
    | divide => exact simplifyIdentity_divide hl hr hx
    | power => exact simplifyIdentity_power hl hr hx
    | remainder | floorDivide | equal | notEqual | less | lessOrEqual | greater
    | greaterOrEqual | and | or => exact evalIn_kept hop hl hr hx
  unfold simplifyOperation
  split
  next m n hm hn =>
    obtain ⟨i, -, rfl, rfl⟩ := Numeral.ofExpr?_evalIn hm hl
    obtain ⟨j, -, rfl, rfl⟩ := Numeral.ofExpr?_evalIn hn hr
    cases hf : op.fold (.int i) (.int j) with
    | none => exact hidentity
    | some e => exact BinaryOperator.foldInt_evalIn hf hx
  next => exact hidentity

/-! ### Decided operations -/

theorem Value.bool?_eq_some {x : Value} {b : Bool} : x.bool? = some b ↔ x = .bool b := by
  cases x <;> simp [Value.bool?]

/-- `and` is decided by `false`, and `or` by `true`. -/
theorem BinaryOperator.absorbing?_eq_some {op : BinaryOperator} {c : Bool} :
    op.absorbing? = some c ↔ (op = .and ∧ c = false) ∨ (op = .or ∧ c = true) := by
  cases op <;> cases c <;> simp [absorbing?]

/-- An `and` or `or` is decided by an absorbing left operand, and otherwise by the right one. -/
theorem Reading.combine_of_absorbing {I : Reading} {op : BinaryOperator} {c : Bool}
    (hop : op.absorbing? = some c) {left right : Option Value} {x : Value} :
    I.combine op left right = some x ↔
      ∃ b, left = some (.bool b) ∧
        ((b = c ∧ x = .bool c) ∨ (b ≠ c ∧ right = some x ∧ ∃ d, x = .bool d)) := by
  have hleft : ∀ b, left.bind Value.bool? = some b ↔ left = some (.bool b) := by
    intro b
    simp [Option.bind_eq_some_iff, Value.bool?_eq_some]
  have hright : (right.bind Value.bool?).map Value.bool = some x ↔
      right = some x ∧ ∃ d, x = .bool d := by
    simp only [Option.map_eq_some_iff, Option.bind_eq_some_iff, Value.bool?_eq_some]
    constructor
    · rintro ⟨d, ⟨y, hy, rfl⟩, rfl⟩
      exact ⟨hy, d, rfl⟩
    · rintro ⟨hx, d, rfl⟩
      exact ⟨d, ⟨_, hx, rfl⟩, rfl⟩
  cases hl : left.bind Value.bool? with
  | none =>
    have hno : ∀ b, left ≠ some (.bool b) := fun b hb => by
      rw [← hleft, hl] at hb
      exact absurd hb (by simp)
    rcases BinaryOperator.absorbing?_eq_some.mp hop with ⟨rfl, rfl⟩ | ⟨rfl, rfl⟩ <;>
      simp only [combine, BinaryOperator.combine, hl] <;> simp [hno]
  | some b =>
    rw [hleft] at hl
    rcases BinaryOperator.absorbing?_eq_some.mp hop with ⟨rfl, rfl⟩ | ⟨rfl, rfl⟩ <;> cases b <;>
      simp only [combine, BinaryOperator.combine, (hleft _).mpr hl, hright] <;> simp [hl, eq_comm]

/-- Operands that say more give the same result. -/
theorem Reading.combine_mono {I : Reading} {op : BinaryOperator}
    {left left' right right' : Option Value} {x : Value} (hl : ∀ y, left = some y → left' = some y)
    (hr : ∀ y, right = some y → right' = some y) (h : I.combine op left right = some x) :
    I.combine op left' right' = some x := by
  cases hop : op.absorbing? with
  | none =>
    have hclass : op.opClass ≠ .logical := by
      cases op <;> simp_all [BinaryOperator.absorbing?, BinaryOperator.opClass]
    obtain ⟨a, b, ha, hb, hx⟩ := (combine_eq_some hclass).mp h
    exact (combine_eq_some hclass).mpr ⟨a, b, hl a ha, hr b hb, hx⟩
  | some c =>
    obtain ⟨b, hb, hx⟩ := (combine_of_absorbing hop).mp h
    refine (combine_of_absorbing hop).mpr ⟨b, hl _ hb, ?_⟩
    rcases hx with hx | ⟨hne, hx, hd⟩
    · exact Or.inl hx
    · exact Or.inr ⟨hne, hr x hx, hd⟩

/-- Which operand a short circuit has seen, and what it has made of it. -/
theorem shortCircuit?_eq_some {op : BinaryOperator} {left right : Expr} {s : ShortCircuit}
    (h : shortCircuit? op left right = some s) :
    ∃ c, op.absorbing? = some c ∧
      ((s = .decided c ∧ (left = .bool c ∨ right = .bool c)) ∨
        (s = .right ∧ left = .bool (!c)) ∨ (s = .left ∧ right = .bool (!c))) := by
  unfold shortCircuit? at h
  split at h
  next => exact absurd h (by simp)
  next c hop =>
    refine ⟨c, hop, ?_⟩
    split at h
    next a b =>
      split at h
      next hab =>
        cases h
        exact Or.inl ⟨rfl, hab.imp (congrArg _) (congrArg _)⟩
      next hab =>
        cases h
        have ha : a = !c := Bool.eq_not_of_ne fun ha => hab (Or.inl ha)
        exact Or.inr (Or.inl ⟨rfl, congrArg _ ha⟩)
    next a _ =>
      split at h
      next ha =>
        cases h
        exact Or.inl ⟨rfl, Or.inl (congrArg _ ha)⟩
      next ha =>
        cases h
        exact Or.inr (Or.inl ⟨rfl, congrArg _ (Bool.eq_not_of_ne ha)⟩)
    next b _ =>
      split at h
      next hb =>
        cases h
        exact Or.inl ⟨rfl, Or.inr (congrArg _ hb)⟩
      next hb =>
        cases h
        exact Or.inr (Or.inr ⟨rfl, congrArg _ (Bool.eq_not_of_ne hb)⟩)
    next => exact absurd h (by simp)

/-- The operand, or the literal, that a short circuit leaves. -/
def ShortCircuit.chosen (left right : Expr) : ShortCircuit → Expr
  | .decided value => .bool value
  | .left => left
  | .right => right

/-- What a short circuit leaves has the value of the whole. -/
theorem shortCircuit?_evalIn {op : BinaryOperator} {left right : Expr} {s : ShortCircuit}
    {I : Reading} {σ : Store} {x : Value} (h : shortCircuit? op left right = some s)
    (hx : I.combine op (left.evalIn I σ) (right.evalIn I σ) = some x) :
    (s.chosen left right).evalIn I σ = some x := by
  obtain ⟨c, hop, hs⟩ := shortCircuit?_eq_some h
  rw [Reading.combine_of_absorbing hop] at hx
  obtain ⟨b, hb, hx⟩ := hx
  rcases hs with ⟨rfl, hlit⟩ | ⟨rfl, rfl⟩ | ⟨rfl, rfl⟩
  · -- One of the operands is the absorbing literal, and so is the result.
    rcases hx with ⟨-, rfl⟩ | ⟨hne, hr, -⟩
    · rfl
    · rcases hlit with rfl | rfl
      · rw [Expr.evalIn] at hb
        exact absurd (by simpa using hb) (Ne.symm hne)
      · exact hr
  · rcases hx with ⟨rfl, -⟩ | ⟨-, hr, -⟩
    · rw [Expr.evalIn] at hb
      exact absurd hb (by simp)
    · exact hr
  · rcases hx with ⟨rfl, rfl⟩ | ⟨hne, hr, -⟩
    · exact hb
    · rw [Expr.evalIn] at hr
      rw [ShortCircuit.chosen, hb, ← hr, Bool.eq_not_of_ne hne]

/-- An `and` or `or` on simplified operands stays as it is. -/
theorem simplifyOperation_logical (returns : Returns) {op : BinaryOperator} (left right : Expr)
    (ty : Ty) (hop : op.opClass = .logical) :
    simplifyOperation returns op left right ty = .binary (.operator op) left right ty := by
  have hfold : ∀ m n, op.fold m n = none := by
    intro m n
    cases op <;> simp_all [BinaryOperator.opClass] <;> cases m <;> cases n <;>
      simp [BinaryOperator.fold, BinaryOperator.foldInt, BinaryOperator.foldFloat,
        BinaryOperator.holds?]
  have hkept : simplifyIdentity returns op left right ty =
      .binary (.operator op) left right ty := by
    cases op <;> simp_all [BinaryOperator.opClass] <;> rfl
  unfold simplifyOperation
  split
  next => rw [hfold, hkept]; rfl
  next => exact hkept

/-! ### Whole expressions -/

/-- A variable that is not called like a truth value is simplified to itself. -/
theorem Expr.simplify_var (returns : Returns) {v : Var} (h : v.name ≠ "true" ∧ v.name ≠ "false") :
    (Expr.var v).simplify returns = .var v := by
  rw [Expr.simplify, if_neg (by simpa using h.1), if_neg (by simpa using h.2)]

mutual

/-- A simplified expression has the value that the expression has. -/
theorem Expr.evalIn_simplify (returns : Returns) {I : Reading} {σ : Store} (e : Expr)
    (hnames : NoTruthNames e.nodes) {x : Value} (h : e.evalIn I σ = some x) :
    (e.simplify returns).evalIn I σ = some x := by
  match e with
  | .int _ | .string _ | .bool _ | .func _ | .emptyArray _ => exact h
  | .float _ | .call _ _ _ | .binary (.intrinsic _) _ _ _ | .unary (.intrinsic _) _ _ =>
    exact absurd h (by simp [Expr.evalIn])
  | .var v =>
    rw [Expr.simplify_var returns (hnames v (by simp [Expr.nodes]))]
    exact h
  | .array items _ =>
    rw [Expr.evalIn] at h
    obtain ⟨xs, hxs, rfl⟩ := Option.map_eq_some_iff.mp h
    rw [Expr.simplify, Expr.evalIn, Expr.evalListIn_simplify returns items hnames.tail hxs]
    rfl
  | .object members =>
    rw [Expr.evalIn] at h
    obtain ⟨xs, hxs, rfl⟩ := Option.map_eq_some_iff.mp h
    rw [Expr.simplify, Expr.evalIn, Expr.evalMembersIn_simplify returns members hnames.tail hxs]
    rfl
  | .binary (.operator op) left right ty =>
    have hleft : ∀ y, left.evalIn I σ = some y → (left.simplify returns).evalIn I σ = some y :=
      fun _ => Expr.evalIn_simplify returns left hnames.tail.left
    have hright : ∀ y, right.evalIn I σ = some y → (right.simplify returns).evalIn I σ = some y :=
      fun _ => Expr.evalIn_simplify returns right hnames.tail.right
    rw [Expr.evalIn] at h
    rw [Expr.simplify]
    -- The operands are looked at before they are simplified, and then the chosen one is.
    cases hs : shortCircuit? op left right with
    | some s =>
      have hchosen := shortCircuit?_evalIn hs h
      cases s with
      | decided value => exact hchosen
      | left => exact hleft x hchosen
      | right => exact hright x hchosen
    | none =>
      by_cases hop : op.opClass = .logical
      · show (simplifyOperation returns op _ _ ty).evalIn I σ = some x
        rw [simplifyOperation_logical returns _ _ ty hop, Expr.evalIn]
        exact Reading.combine_mono hleft hright h
      · obtain ⟨a, b, ha, hb, hx⟩ := (Reading.combine_eq_some hop).mp h
        exact simplifyOperation_evalIn hop (hleft a ha) (hright b hb) hx
  | .unary (.operator op) operand ty =>
    rw [Expr.evalIn] at h
    obtain ⟨a, ha, hx⟩ := Option.bind_eq_some_iff.mp h
    have hoperand := Expr.evalIn_simplify returns operand hnames.tail ha
    rw [Expr.simplify]
    unfold simplifyUnary
    split
    next n hop hn =>
      -- A negated literal is an integer.
      cases hop
      obtain ⟨i, -, rfl, rfl⟩ := Numeral.ofExpr?_evalIn hn hoperand
      exact hx
    next =>
      rw [Expr.evalIn, hoperand]
      exact hx
  | .subscript base index ty =>
    rw [Expr.evalIn] at h
    obtain ⟨array, harray, h⟩ := Option.bind_eq_some_iff.mp h
    obtain ⟨i, hi, hx⟩ := Option.bind_eq_some_iff.mp h
    rw [Expr.simplify, Expr.evalIn, Expr.evalIn_simplify returns base hnames.tail.left harray,
      Expr.evalIn_simplify returns index hnames.tail.right hi]
    exact hx
  | .member base field ty =>
    rw [Expr.evalIn] at h
    obtain ⟨object, hobject, hx⟩ := Option.bind_eq_some_iff.mp h
    rw [Expr.simplify, Expr.evalIn, Expr.evalIn_simplify returns base hnames.tail hobject]
    exact hx

theorem Expr.evalListIn_simplify (returns : Returns) {I : Reading} {σ : Store} (es : List Expr)
    (hnames : NoTruthNames (Expr.nodesList es)) {xs : List Value}
    (h : Expr.evalListIn I σ es = some xs) :
    Expr.evalListIn I σ (Expr.simplifyList returns es) = some xs := by
  match es with
  | [] => exact h
  | e :: es =>
    rw [Expr.evalListIn] at h
    obtain ⟨x, hx, h⟩ := Option.bind_eq_some_iff.mp h
    obtain ⟨rest, hrest, rfl⟩ := Option.map_eq_some_iff.mp h
    rw [Expr.simplifyList, Expr.evalListIn, Expr.evalIn_simplify returns e hnames.left hx,
      Expr.evalListIn_simplify returns es hnames.right hrest]
    rfl

theorem Expr.evalMembersIn_simplify (returns : Returns) {I : Reading} {σ : Store}
    (members : List (String × Expr)) (hnames : NoTruthNames (Expr.nodesMembers members))
    {xs : List (String × Value)}
    (h : Expr.evalMembersIn I σ members = some xs) :
    Expr.evalMembersIn I σ (Expr.simplifyMembers returns members) = some xs := by
  match members with
  | [] => exact h
  | (key, e) :: members =>
    rw [Expr.evalMembersIn] at h
    obtain ⟨x, hx, h⟩ := Option.bind_eq_some_iff.mp h
    obtain ⟨rest, hrest, rfl⟩ := Option.map_eq_some_iff.mp h
    rw [Expr.simplifyMembers, Expr.evalMembersIn, Expr.evalIn_simplify returns e hnames.left hx,
      Expr.evalMembersIn_simplify returns members hnames.right hrest]
    rfl

end

/-- A simplified expression has the value that the expression has. -/
theorem Expr.eval_simplify (returns : Returns) {σ : Store} (e : Expr)
    (hnames : NoTruthNames e.nodes) {x : Value} (h : e.eval σ = some x) :
    (e.simplify returns).eval σ = some x := by
  rw [← Expr.evalIn_usual] at h ⊢
  exact Expr.evalIn_simplify returns e hnames h

/-- Take an expression in which no variable is named `true` or `false`. By whatever reading it has
a value, and whatever its variables hold, its simplified form has the same value. -/
theorem Expr.value_simplify (I : Reading) (returns : Returns) (σ : Store) (e : Expr)
    (hnames : NoTruthNames e.nodes) (x : Value) (h : e.evalIn I σ = some x) :
    (e.simplify returns).evalIn I σ = some x :=
  Expr.evalIn_simplify returns e hnames h

namespace Detour

def x : Var := ⟨14, "x", .mutable, .int⟩

def y : Var := ⟨15, "y", .mutable, .int⟩

/-- `[sum, test]`. -/
def pair (sum test : Expr) : Expr := .array [sum, test] (.array .any)

/-- `[7, power][index]`. -/
def choice (power index : Expr) : Expr :=
  .subscript (.array [.int 7, power] (.array .int)) index .int

/-- `1 < x`. -/
def test : Expr := .binary (.operator .less) (.int 1) (.var x) .boolean

/-- `[0 / x + [7, y ** 1][0 + 1], true and 1 < x]`. -/
def detour : Expr :=
  pair
    (.binary (.operator .add) (.binary (.operator .divide) (.int 0) (.var x) .int)
      (choice (.binary (.operator .power) (.var y) (.int 1) .int)
        (.binary (.operator .add) (.int 0) (.int 1) .int)) .int)
    (.binary (.operator .and) (.bool true) test .boolean)

/-- `x` is `3` and `y` is `5`. -/
def held : Store
  | 14 => some (.int 3)
  | 15 => some (.int 5)
  | _ => none

/-- Without `==` on truth values and without functions as values, `[5, true]` is the value of both
`detour` and `[[7, y][1], 1 < x]`. -/
theorem value_simplify_detour :
    detour.evalIn .plain held = some (.array [.int 5, .bool true]) ∧
    (pair (choice (.var y) (.int 1)) test).evalIn .plain held =
      some (.array [.int 5, .bool true]) := by
  have hnames : NoTruthNames detour.nodes := by
    intro v hv
    simp only [detour, pair, choice, test, Expr.nodes, Expr.nodesList, List.cons_append,
      List.nil_append, List.append_nil, List.mem_cons, reduceCtorEq, Node.expr.injEq,
      Expr.var.injEq, List.not_mem_nil, false_or, or_false] at hv
    rcases hv with rfl | rfl | rfl <;> decide
  have hsimplified : detour.simplify [] = pair (choice (.var y) (.int 1)) test := rfl
  have hvalue : detour.evalIn .plain held = some (.array [.int 5, .bool true]) := rfl
  have hkept := Expr.value_simplify .plain [] held detour hnames _ hvalue
  rw [hsimplified] at hkept
  exact ⟨hvalue, hkept⟩

end Detour

end Croupier
