import Croupier.Proofs.Simplified

/-!
# What a pass leaves nothing of

A pass goes over a program once, and a second one may still find something to do (see
`Croupier.Proofs.Idempotence`). Some things, however, are gone for good after the first: a branch
that is decided by a literal, a loop that never runs, an assignment of something to itself, a
variable named after a truth value, an operation on two integers that has a result. A node that is
none of these is tidy (`Node.Tidy`).

This holds for all programs, floats and `and` and `or` included. Whatever takes the place of
something else was tidy before it was put there, and being tidy does not depend on where a node
stands: an arm that replaces its `if`, or goes on behind another arm, needs no second look.

Two things are said without the functions that the pass uses for them. That a turn is over before
it starts is said in terms of the order of the numbers (`Numeral.Less`), and which operations on
integers are left undone is said case by case (`BinaryOperator.LeftUndone`).

> `Program.nodes_tidy`: every node of a simplified program is tidy.
-/

namespace Croupier

/-! ### The order of numbers -/

namespace Binary64

open Float.Model (UnpackedFloat)

/-- Seen from the other side, two floats compare the other way round. -/
theorem unpacked_compare_swap (x y : UnpackedFloat) :
    (x.compare y).map Ordering.swap = y.compare x := by
  have hparts : ∀ (e d : Int) (m n : Nat),
      ((compare e d).then (compare m n)).swap = (compare d e).then (compare n m) := by
    intro e d m n
    rw [Ordering.swap_then, Int.compare_swap, Nat.compare_swap]
  cases x with
  | notANumber => cases y <;> rfl
  | zero =>
    cases y with
    | infinity t | finite t => cases t <;> rfl
    | notANumber | zero => rfl
  | infinity s =>
    cases y with
    | infinity t => cases s <;> cases t <;> rfl
    | notANumber | zero | finite => cases s <;> rfl
  | finite s m e =>
    cases y with
    | notANumber => rfl
    | zero => cases s <;> rfl
    | infinity t => cases s <;> cases t <;> rfl
    | finite t n d =>
      -- Of two negative floats the one that is farther from zero is the smaller one.
      cases s <;> cases t
      · exact congrArg (fun o => some o.swap) (hparts e d m n)
      · rfl
      · rfl
      · exact congrArg some (hparts e d m n)

/-- Floats are ordered as what they stand for. -/
theorem lt_iff (a b : Float) :
    a < b ↔ a.toModel.unpack.compare b.toModel.unpack = some .lt := by
  show Float.lt a b = true ↔ _
  simp [Float.lt, Float.Model.lt, LT.lt, UnpackedFloat.lt]

/-- Floats are equal if what they stand for compares as equal. -/
theorem beq_iff (a b : Float) :
    (a == b) = true ↔ a.toModel.unpack.compare b.toModel.unpack = some .eq := by
  show (a.toModel.unpack.compare b.toModel.unpack == some .eq) = true ↔ _
  exact beq_iff_eq

/-- Comparing floats compares what they stand for. There is no order with what is not a number. -/
theorem compare?_eq (a b : Float) :
    compare? a b = a.toModel.unpack.compare b.toModel.unpack := by
  have hlt := lt_iff a b
  have heq := beq_iff a b
  have hgt := lt_iff b a
  rw [← unpacked_compare_swap] at hgt
  unfold compare?
  cases h : a.toModel.unpack.compare b.toModel.unpack with
  | none => simp_all
  | some o => cases o <;> simp_all

theorem compare?_eq_lt {a b : Float} : compare? a b = some .lt ↔ a < b := by
  rw [compare?_eq, lt_iff]

theorem compare?_eq_gt {a b : Float} : compare? a b = some .gt ↔ b < a := by
  rw [compare?_eq, lt_iff, ← unpacked_compare_swap a.toModel.unpack]
  cases a.toModel.unpack.compare b.toModel.unpack with
  | none => simp
  | some o => cases o <;> simp

end Binary64

namespace Numeral

/-- The first number is less than the second. As soon as one of them is a float, both are taken as
floats. -/
def Less : Numeral → Numeral → Prop
  | int m, int n => m < n
  | m, n => m.toFloat < n.toFloat

/-- Numbers compare as less exactly if the first is less than the second. -/
theorem compare?_eq_lt {m n : Numeral} : m.compare? n = some .lt ↔ m.Less n := by
  cases m <;> cases n <;>
    simp [compare?, Less, Int.compare_eq_lt, Binary64.compare?_eq_lt]

theorem compare?_eq_gt {m n : Numeral} : m.compare? n = some .gt ↔ n.Less m := by
  cases m <;> cases n <;>
    simp [compare?, Less, Int.compare_eq_gt, Binary64.compare?_eq_gt]

end Numeral

/-- The bounds of a turn have passed each other before it starts. -/
def Direction.Passed (low high : Numeral) : Direction → Prop
  | .ascending => high.Less low
  | .descending => low.Less high

/-- If a turn with known bounds is not over, they have not passed each other. -/
theorem turnIsOver_eq_false {direction : Direction} {low high : Expr} {l h : Numeral}
    (hopen : turnIsOver direction low high = false) (hlow : Numeral.ofExpr? low = some l)
    (hhigh : Numeral.ofExpr? high = some h) : ¬ direction.Passed l h := by
  intro hpassed
  rw [turnIsOver, hlow, hhigh] at hopen
  cases direction with
  | ascending =>
    rw [Direction.Passed, ← Numeral.compare?_eq_gt] at hpassed
    simp [hpassed] at hopen
  | descending =>
    rw [Direction.Passed, ← Numeral.compare?_eq_lt] at hpassed
    simp [hpassed] at hopen

/-! ### Operations that are left undone -/

namespace BinaryOperator

/-- An operation on two integers that is not carried out: it has no result, or its result might be
too large to write down. -/
def LeftUndone (a b : Int) : BinaryOperator → Prop
  | divide | remainder | floorDivide => b = 0
  | power => b < 0 ∨ 4294967295 < b ∨ 4096 < bitLength a.natAbs * b.toNat
  | _ => False

/-- A power is not computed exactly if it is left undone. -/
theorem intPower?_eq_none_iff {a b : Int} : intPower? a b = none ↔ power.LeftUndone a b := by
  have hlimit : exponentLimit = 4294967296 := rfl
  unfold intPower? LeftUndone
  simp only [powerLimit_lt_powerDigits]
  unfold powerLimit
  rw [hlimit]
  by_cases hneg : b < 0
  · simp [hneg]
  · have hlarge : 4294967296 ≤ b.toNat ↔ 4294967295 < b := by omega
    by_cases hmax : 4294967295 < b
    · simp [hlarge, hmax]
    · simp [hneg, hlarge, hmax]

/-- These and no others are the arithmetic operations and comparisons that folding leaves. -/
theorem foldInt_eq_none_iff {op : BinaryOperator} {a b : Int} (hop : op.opClass ≠ .logical) :
    op.foldInt a b = none ↔ op.LeftUndone a b := by
  cases op with
  | add | subtract | multiply => simp [foldInt, LeftUndone]
  | divide | remainder | floorDivide => simp [foldInt, LeftUndone]
  | power => rw [foldInt, Option.map_eq_none_iff, intPower?_eq_none_iff]
  | equal | notEqual | less | lessOrEqual | greater | greaterOrEqual =>
    simp [foldInt, holds?, LeftUndone]
  | and | or => exact absurd rfl hop

end BinaryOperator

/-! ### Tidy nodes -/

/-- Nothing has to be done about a node. -/
def Node.Tidy : Node → Prop
  -- No arm is chosen by a literal; further arms are nodes of their own.
  | .stmt (.branch test _ _) | .stmt (.shortBranch test _) => ∀ b, test ≠ .bool b
  -- No loop is known never to run.
  | .stmt (.whileLoop test _) => test ≠ .bool false
  | .stmt (.forEach _ collection _) => ∀ element, collection ≠ .emptyArray element
  | .stmt (.forTurn _ low high _ direction _) =>
    ∀ l h, Numeral.ofExpr? low = some l → Numeral.ofExpr? high = some h → ¬ direction.Passed l h
  -- Nothing is assigned to itself.
  | .stmt (.assign target source) =>
    (∀ v w, target = .var v → source = .var w → v.id ≠ w.id) ∧
      ∀ f g, target = .func f → source = .func g → f.id ≠ g.id
  | .expr (.var v) => v.name ≠ "true" ∧ v.name ≠ "false"
  -- No arithmetic and no comparison of two integers could be carried out.
  | .expr (.binary (.operator op) left right _) =>
    ∀ a b, left = .int a → right = .int b → op.opClass ≠ .logical → op.LeftUndone a b
  | .stmt _ | .expr _ => True

/-- There is nothing to do about a literal. -/
theorem Expr.Literal.tidy {e : Expr} (h : e.Literal) : ∀ x ∈ e.nodes, x.Tidy := by
  cases h <;> simp [Expr.nodes, Node.Tidy]

/-! ### Expressions -/

/-- An operation on tidy operands leaves something tidy. If it stays, it could not be carried
out. -/
theorem simplifyOperation_tidy {op : BinaryOperator} {left right : Expr}
    (hleft : ∀ x ∈ left.nodes, x.Tidy) (hright : ∀ x ∈ right.nodes, x.Tidy) (returns : Returns)
    (ty : Ty) : ∀ x ∈ (simplifyOperation returns op left right ty).nodes, x.Tidy := by
  rcases simplifyOperation_cases returns op left right ty with ⟨_, _, _, _, hfold⟩ | ⟨hopen, heq⟩
  · exact (BinaryOperator.fold_literal hfold).tidy
  · rw [heq]
    generalize he : simplifyIdentity returns op left right ty = e
    have hcases := he ▸ identityLeft returns op left right ty
    cases hcases with
    | kept =>
      refine List.forall_mem_cons.mpr ⟨?_, List.forall_mem_append.mpr ⟨hleft, hright⟩⟩
      rintro a b rfl rfl hop
      exact (BinaryOperator.foldInt_eq_none_iff hop).mp (hopen _ _ rfl rfl)
    | left => exact hleft
    | right => exact hright
    | negation => exact List.forall_mem_cons.mpr ⟨trivial, hright⟩
    | int n => exact (Expr.Literal.int n).tidy

/-- Nothing has to be done about an operation with a simplified operand. -/
theorem simplifyUnary_tidy {head : UnaryHead} {operand : Expr}
    (h : ∀ x ∈ operand.nodes, x.Tidy) (ty : Ty) :
    ∀ x ∈ (simplifyUnary head operand ty).nodes, x.Tidy := by
  unfold simplifyUnary
  split
  next n _ => exact n.negate.expr_literal.tidy
  next => exact List.forall_mem_cons.mpr ⟨trivial, h⟩

mutual

/-- Nothing is left to do about any node of a simplified expression. -/
theorem Expr.tidy_simplify (returns : Returns) (e : Expr) :
    ∀ x ∈ (e.simplify returns).nodes, x.Tidy := by
  match e with
  | .int n => exact (Expr.Literal.int n).tidy
  | .float y => exact (Expr.Literal.float y).tidy
  | .bool b => exact (Expr.Literal.bool b).tidy
  | .string _ | .func _ | .emptyArray _ => simp [Expr.simplify, Expr.nodes, Node.Tidy]
  | .var v =>
    rw [Expr.simplify]
    split
    next => exact (Expr.Literal.bool true).tidy
    next htrue =>
      split
      next => exact (Expr.Literal.bool false).tidy
      next hfalse =>
        have hname : v.name ≠ "true" ∧ v.name ≠ "false" := by
          constructor
          · simpa using htrue
          · simpa using hfalse
        exact List.forall_mem_cons.mpr ⟨hname, List.forall_mem_nil _⟩
  | .binary (.intrinsic i) left right ty =>
    rw [Expr.simplify]
    exact List.forall_mem_cons.mpr ⟨trivial,
      List.forall_mem_append.mpr ⟨left.tidy_simplify returns, right.tidy_simplify returns⟩⟩
  | .binary (.operator op) left right ty =>
    have hleft := left.tidy_simplify returns
    have hright := right.tidy_simplify returns
    rw [Expr.simplify]
    split
    next b _ => exact (Expr.Literal.bool b).tidy
    next => exact hleft
    next => exact hright
    next => exact simplifyOperation_tidy hleft hright returns ty
  | .unary head operand ty =>
    rw [Expr.simplify]
    exact simplifyUnary_tidy (operand.tidy_simplify returns) ty
  | .subscript base index ty =>
    rw [Expr.simplify]
    exact List.forall_mem_cons.mpr ⟨trivial,
      List.forall_mem_append.mpr ⟨base.tidy_simplify returns, index.tidy_simplify returns⟩⟩
  | .member base field ty =>
    rw [Expr.simplify]
    exact List.forall_mem_cons.mpr ⟨trivial, base.tidy_simplify returns⟩
  | .call callee args ty =>
    rw [Expr.simplify]
    exact List.forall_mem_cons.mpr ⟨trivial, Expr.tidy_simplifyList returns args⟩
  | .array items ty =>
    rw [Expr.simplify]
    exact List.forall_mem_cons.mpr ⟨trivial, Expr.tidy_simplifyList returns items⟩
  | .object members =>
    rw [Expr.simplify]
    exact List.forall_mem_cons.mpr ⟨trivial, Expr.tidy_simplifyMembers returns members⟩

theorem Expr.tidy_simplifyList (returns : Returns) (es : List Expr) :
    ∀ x ∈ Expr.nodesList (Expr.simplifyList returns es), x.Tidy := by
  match es with
  | [] => exact List.forall_mem_nil _
  | e :: es =>
    rw [Expr.simplifyList]
    exact List.forall_mem_append.mpr ⟨e.tidy_simplify returns, Expr.tidy_simplifyList returns es⟩

theorem Expr.tidy_simplifyMembers (returns : Returns) (ms : List (String × Expr)) :
    ∀ x ∈ Expr.nodesMembers (Expr.simplifyMembers returns ms), x.Tidy := by
  match ms with
  | [] => exact List.forall_mem_nil _
  | (_, e) :: ms =>
    rw [Expr.simplifyMembers]
    exact List.forall_mem_append.mpr
      ⟨e.tidy_simplify returns, Expr.tidy_simplifyMembers returns ms⟩

end

/-! ### Statements -/

/-- Occurrences of different entities are not of one entity. -/
theorem Node.tidy_assign {target source : Expr} (h : source.sameReference target = false) :
    (Node.stmt (.assign target source)).Tidy := by
  constructor
  · rintro v w rfl rfl heq
    simp [Expr.sameReference, heq] at h
  · rintro f g rfl rfl heq
    simp [Expr.sameReference, heq] at h

/-- What a pass leaves of a passage is tidy. -/
theorem PassageSimplified.tidy {returns : Returns} {d d' : Passage}
    (h : PassageSimplified returns d d') : ∀ x ∈ d'.nodes, x.Tidy := by
  have hexpr := Expr.tidy_simplify returns
  -- A statement that stays is looked at together with its parts.
  have hsingle : ∀ {s : Stmt}, (∀ x ∈ s.nodes, x.Tidy) →
      ∀ x ∈ (Passage.block [s]).nodes, x.Tidy := by
    intro s hs
    rw [Passage.nodes, Stmt.nodesList_singleton]
    exact hs
  induction h with
  | breakLoop | returnNone =>
    exact hsingle (List.forall_mem_cons.mpr ⟨trivial, List.forall_mem_nil _⟩)
  | assignSelf | shortPassed | whileNever | forEachNever | forTurnNever | nil =>
    exact List.forall_mem_nil _
  | declareVar | bump | call | returnValue =>
    exact hsingle (List.forall_mem_cons.mpr ⟨trivial, hexpr _⟩)
  | declareFunc _ ih => exact hsingle (List.forall_mem_cons.mpr ⟨trivial, ih⟩)
  | assign hother =>
    exact hsingle (List.forall_mem_cons.mpr ⟨Node.tidy_assign hother,
      List.forall_mem_append.mpr ⟨hexpr _, hexpr _⟩⟩)
  | branch hopen _ _ ihbody ihelse =>
    exact hsingle (List.forall_mem_cons.mpr ⟨hopen, List.forall_mem_append.mpr
      ⟨List.forall_mem_append.mpr ⟨hexpr _, ihbody⟩, ihelse⟩⟩)
  | shortBranch hopen _ ih | whileLoop hopen _ ih | forEach hopen _ ih =>
    exact hsingle (List.forall_mem_cons.mpr ⟨hopen, List.forall_mem_append.mpr ⟨hexpr _, ih⟩⟩)
  | forTurn hopen _ ih =>
    refine hsingle (List.forall_mem_cons.mpr ⟨?_, List.forall_mem_append.mpr ⟨?_, ih⟩⟩)
    · intro l h hlow hhigh
      exact turnIsOver_eq_false hopen hlow hhigh
    · exact List.forall_mem_append.mpr ⟨List.forall_mem_append.mpr ⟨hexpr _, hexpr _⟩, hexpr _⟩
  | branchTaken _ _ ih | shortTaken _ _ ih | block _ ih => exact ih
  | branchPassed _ _ ih =>
    rw [Passage.nodes, Else.nodesList_statements]
    exact ih
  | elseIf _ ih =>
    rw [Passage.nodes, Else.nodes_ofList]
    exact ih
  | cons _ _ ihfirst ihrest =>
    rw [Passage.nodes, Stmt.nodesList_append]
    exact List.forall_mem_append.mpr ⟨ihfirst, ihrest⟩

/-- Every node of a simplified program is tidy: no `if` is decided by a literal, no loop is known
never to run, nothing is assigned to itself, no variable is named after a truth value, and no
arithmetic or comparison of two integers has a result that could be written down. -/
theorem Program.nodes_tidy (p : Program) : ∀ x ∈ p.simplify.nodes, x.Tidy :=
  (passageSimplified_list p.returns p.body).tidy

namespace Leftover

def x : Var := ⟨14, "x", .mutable, .int⟩

/-- `for i in turn(low, 1, 1) { .. hand y = 1 / divisor }`. -/
def turn (low divisor : Expr) (before : List Stmt) : Stmt :=
  .forTurn ⟨15, "i", .mutable, .int⟩ low (.int 1) (.int 1) .ascending
    (before ++ [.declareVar ⟨16, "y", .mutable, .int⟩
      (.binary (.operator .divide) (.int 1) divisor .int)])

/-- `if false { } else if 1 < 2 { for i in turn(3 - 2, 1, 1) { x = x  hand y = 1 / (0 * x) } }`. -/
def program : Program :=
  ⟨[.branch (.bool false) []
      (.elseIf (.binary (.operator .less) (.int 1) (.int 2) .boolean)
        [turn (.binary (.operator .subtract) (.int 3) (.int 2) .int)
          (.binary (.operator .multiply) (.int 0) (.var x) .int)
          [.assign (.var x) (.var x)]]
        (.block []))], []⟩

/-- The turn starts where it ends, and the division is left: neither is something to be done. -/
theorem nodes_tidy_program : program.simplify.body = [turn (.int 1) (.int 0) []] ∧
    (Node.stmt (turn (.int 1) (.int 0) [])).Tidy ∧
    (Node.expr (.binary (.operator .divide) (.int 1) (.int 0) .int)).Tidy := by
  have hbody : program.simplify.body = [turn (.int 1) (.int 0) []] := rfl
  refine ⟨hbody, Program.nodes_tidy program _ ?_, Program.nodes_tidy program _ ?_⟩
  · rw [Program.nodes, hbody]
    simp [Stmt.nodesList, turn, Stmt.nodes]
  · rw [Program.nodes, hbody]
    simp [Stmt.nodesList, turn, Stmt.nodes, Expr.nodes]

end Leftover

end Croupier
