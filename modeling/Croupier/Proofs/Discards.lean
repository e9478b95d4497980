import Croupier.Proofs.Simplified
import Croupier.Proofs.SimplifyEval

/-!
# What simplifying drops

A simplified expression has the value of the expression. But an expression can do more than have a
value: it makes calls on the way, and it can fail. Simplifying does not always keep either. A
literal that decides an operation on its own takes the other operand with it, whatever that is: the
`0` in `x * 0`, the `false` in `x and false`. So `f() * 0` becomes `0` and `f` is not called
(`Unheard.call_dropped`), and `0 * (1 / 0)` becomes `0` and does not fail (`Unheard.trap_dropped`).

`BinaryOperator.decidedAlone` says of which operations this is true, and nothing is lost outside of
them. Where no operand decides alone, an operation keeps both operands, or is carried out on
literals, or drops a literal (`simplifyOperation_open`), and there is neither a call nor a failure
in a literal.

> `Expr.calls_kept`: outside operations that one operand decides, every call that an expression
> makes in any case is still made in any case, with simplified arguments, as often and in the same
> order.
>
> `Expr.trap_kept`: outside operations that one operand decides, an expression over integers that
> divides by zero still does so when it is simplified, and is not a literal.
-/

namespace Croupier

/-! ### Operations that one operand decides -/

/-- The expression is this truth value, written out. -/
def Expr.isBool (b : Bool) : Expr → Bool
  | .bool a => a == b
  | _ => false

/-- One operand makes the operation a literal, whatever the other one is. An `and` or `or` looks
at its operands as they are written, and the other operators look at what they become. -/
def BinaryOperator.decidedAlone (returns : Returns) (op : BinaryOperator) (left right : Expr) :
    Bool :=
  match op.absorbing? with
  | some c => left.isBool c || right.isBool c
  | none => op.absorbs (left.simplify returns) (right.simplify returns)

/-- Only `and` and `or` look at the truth of an operand; any other operation is decided by what its
operator absorbs. -/
theorem BinaryOperator.decidedAlone_of_not_logical {op : BinaryOperator}
    (hop : op.opClass ≠ .logical) (returns : Returns) (left right : Expr) :
    op.decidedAlone returns left right =
      op.absorbs (left.simplify returns) (right.simplify returns) := by
  cases op with
  | and | or => exact absurd rfl hop
  | _ => rfl

/-- A short circuit is decided by one operand. -/
theorem decidedAlone_of_shortCircuit? {op : BinaryOperator} {left right : Expr} {b : Bool}
    (h : shortCircuit? op left right = some (.decided b)) (returns : Returns) :
    op.decidedAlone returns left right = true := by
  obtain ⟨c, hop, ⟨_, hliteral⟩ | ⟨hno, _⟩ | ⟨hno, _⟩⟩ := shortCircuit?_eq_some h
  · unfold BinaryOperator.decidedAlone
    rw [hop]
    rcases hliteral with rfl | rfl <;> simp [Expr.isBool]
  · cases hno
  · cases hno

/-- What is left of an operation that no operand decides alone. Only literals are dropped. -/
theorem simplifyOperation_open {op : BinaryOperator} {left right : Expr}
    (hopen : op.absorbs left right = false) (returns : Returns) (ty : Ty) :
    simplifyOperation returns op left right ty = .binary (.operator op) left right ty ∨
    (right.isNumericLiteral = true ∧ simplifyOperation returns op left right ty = left) ∨
    (left.isNumericLiteral = true ∧ (simplifyOperation returns op left right ty = right ∨
      simplifyOperation returns op left right ty = .negation returns right)) ∨
    (left.isNumericLiteral = true ∧ right.isNumericLiteral = true ∧
      (simplifyOperation returns op left right ty).Literal) := by
  rcases simplifyOperation_cases returns op left right ty with ⟨a, b, ha, hb, hfold⟩ | ⟨_, heq⟩
  · refine Or.inr (Or.inr (Or.inr ⟨?_, ?_, BinaryOperator.fold_literal hfold⟩))
    · exact Expr.isNumericLiteral_of_ofExpr? ha
    · exact Expr.isNumericLiteral_of_ofExpr? hb
  · rw [heq]
    have hidentity := identityLeft returns op left right ty
    generalize simplifyIdentity returns op left right ty = e at hidentity ⊢
    cases hidentity with
    | kept => exact Or.inl rfl
    | left _ hright => exact Or.inr (Or.inl ⟨hright, rfl⟩)
    | right _ hleft => exact Or.inr (Or.inr (Or.inl ⟨hleft, Or.inl rfl⟩))
    | negation _ hleft => exact Or.inr (Or.inr (Or.inl ⟨hleft, Or.inr rfl⟩))
    | int _ _ _ habsorbs => exact absurd (hopen.symm.trans habsorbs) (by decide)

/-! ### Calls -/

/-- What can be called: a function, or an intrinsic whose calls are operations of their own. -/
inductive Callee where
  | func (f : Func)
  | intrinsic (i : Intrinsic)

/-- A call as it is written, with the type of its result. -/
structure Call where
  callee : Callee
  args : List Expr
  ty : Ty

/-- The call of the same function with simplified arguments. -/
def Call.simplify (returns : Returns) (c : Call) : Call :=
  { c with args := Expr.simplifyList returns c.args }

section Outside

variable (skips : BinaryOperator → Expr → Expr → Bool)

mutual

/-- The calls that are made whenever an expression is evaluated, in the order in which they are
made, apart from those in operations that are to be skipped. The right operand of an `and` or `or`
is not always looked at. -/
def Expr.callsOutside : Expr → List Call
  | .int _ | .float _ | .string _ | .bool _ | .var _ | .func _ | .emptyArray _ => []
  | .array items _ => Expr.callsOutsideList items
  | .object members => Expr.callsOutsideMembers members
  | .binary (.operator op) left right _ =>
    if skips op left right then []
    else if op.opClass = .logical then left.callsOutside
    else left.callsOutside ++ right.callsOutside
  | .binary (.intrinsic i) left right ty =>
    left.callsOutside ++ right.callsOutside ++ [⟨.intrinsic i, [left, right], ty⟩]
  | .unary (.operator _) operand _ => operand.callsOutside
  | .unary (.intrinsic i) operand ty => operand.callsOutside ++ [⟨.intrinsic i, [operand], ty⟩]
  | .subscript base index _ => base.callsOutside ++ index.callsOutside
  | .member base _ _ => base.callsOutside
  | .call callee args ty => Expr.callsOutsideList args ++ [⟨.func callee, args, ty⟩]

/-- The calls in several expressions that are evaluated one after the other. -/
def Expr.callsOutsideList : List Expr → List Call
  | [] => []
  | e :: es => e.callsOutside ++ Expr.callsOutsideList es

/-- The calls in the members of an object. -/
def Expr.callsOutsideMembers : List (String × Expr) → List Call
  | [] => []
  | (_, e) :: members => e.callsOutside ++ Expr.callsOutsideMembers members

end

end Outside

namespace Expr

/-- The calls that are made whenever an expression is evaluated. -/
def calls (e : Expr) : List Call := e.callsOutside fun _ _ _ => false

/-- A number makes no call. -/
theorem calls_eq_nil_of_isNumericLiteral {e : Expr} (h : e.isNumericLiteral = true) :
    e.calls = [] := by
  cases e with
  | int | float => rfl
  | _ => cases h

/-- A literal makes no call. -/
theorem Literal.calls {e : Expr} (h : e.Literal) : e.calls = [] := by
  cases h <;> rfl

/-- Of an `and` or `or` only the first operand is evaluated for certain. -/
theorem calls_logical {op : BinaryOperator} (hop : op.opClass = .logical) (left right : Expr)
    (ty : Ty) : (binary (.operator op) left right ty).calls = left.calls := by
  simp [calls, callsOutside, hop]

/-- Any other operation evaluates both operands, the first one first. -/
theorem calls_operation {op : BinaryOperator} (hop : op.opClass ≠ .logical) (left right : Expr)
    (ty : Ty) : (binary (.operator op) left right ty).calls = left.calls ++ right.calls := by
  simp [calls, callsOutside, hop]

end Expr

/-- An operation on simplified operands makes their calls. -/
theorem Expr.calls_simplifyOperation {op : BinaryOperator} (hop : op.opClass ≠ .logical)
    {left right : Expr} (hopen : op.absorbs left right = false) (returns : Returns) (ty : Ty) :
    (simplifyOperation returns op left right ty).calls = left.calls ++ right.calls := by
  rcases simplifyOperation_open hopen returns ty with
    heq | ⟨hright, heq⟩ | ⟨hleft, heq | heq⟩ | ⟨hleft, hright, hliteral⟩
  · rw [heq, calls_operation hop]
  · rw [heq, calls_eq_nil_of_isNumericLiteral hright, List.append_nil]
  · rw [heq, calls_eq_nil_of_isNumericLiteral hleft, List.nil_append]
  · rw [heq, calls_eq_nil_of_isNumericLiteral hleft, List.nil_append]
    rfl
  · rw [hliteral.calls, calls_eq_nil_of_isNumericLiteral hleft,
      calls_eq_nil_of_isNumericLiteral hright]
    rfl

/-- An operation with one operand makes the calls of its operand, folded or not. -/
theorem Expr.calls_simplifyUnary (op : UnaryOperator) (operand : Expr) (ty : Ty) :
    (simplifyUnary (.operator op) operand ty).calls = operand.calls := by
  unfold simplifyUnary
  split
  next n _ hnumeral =>
    rw [n.negate.expr_literal.calls,
      calls_eq_nil_of_isNumericLiteral (isNumericLiteral_of_ofExpr? hnumeral)]
  next => rfl

section Left

variable (returns : Returns)

/-- The calls outside of operations that one operand decides, with their arguments simplified. -/
def Expr.callsLeft (e : Expr) : List Call :=
  (e.callsOutside (BinaryOperator.decidedAlone returns)).map (Call.simplify returns)

/-- The calls that are left in several expressions. -/
def Expr.callsLeftList (es : List Expr) : List Call :=
  (Expr.callsOutsideList (BinaryOperator.decidedAlone returns) es).map (Call.simplify returns)

/-- The calls that are left in the members of an object. -/
def Expr.callsLeftMembers (members : List (String × Expr)) : List Call :=
  (Expr.callsOutsideMembers (BinaryOperator.decidedAlone returns) members).map
    (Call.simplify returns)

mutual

/-- The calls that no decided operation swallows are all made by the simplified expression, in the
same order. There may be others, since an `and` that is simplified to its second operand now makes
the calls of that one for certain. -/
theorem Expr.callsLeft_sublist (e : Expr) :
    (e.callsLeft returns).Sublist (e.simplify returns).calls := by
  match e with
  | .int _ | .float _ | .string _ | .bool _ | .var _ | .func _ | .emptyArray _ =>
    exact List.nil_sublist _
  | .array items _ => exact Expr.callsLeftList_sublist items
  | .object members => exact Expr.callsLeftMembers_sublist members
  | .binary (.operator op) left right ty =>
    have hleft := left.callsLeft_sublist
    have hright := right.callsLeft_sublist
    rw [Expr.callsLeft, Expr.callsOutside]
    by_cases halone : op.decidedAlone returns left right = true
    · rw [if_pos halone]
      exact List.nil_sublist _
    rw [if_neg halone]
    by_cases hop : op.opClass = .logical
    · rw [if_pos hop, Expr.simplify]
      cases hshort : shortCircuit? op left right with
      | none =>
        show List.Sublist _ (simplifyOperation returns op _ _ ty).calls
        rw [simplifyOperation_logical returns _ _ ty hop, Expr.calls_logical hop]
        exact hleft
      | some s =>
        cases s with
        | decided b => exact absurd (decidedAlone_of_shortCircuit? hshort returns) halone
        | left => exact hleft
        | right =>
          -- The operand that is dropped is a literal.
          obtain ⟨c, _, ⟨hno, _⟩ | ⟨_, rfl⟩ | ⟨hno, _⟩⟩ := shortCircuit?_eq_some hshort
          · cases hno
          · exact List.nil_sublist _
          · cases hno
    · rw [BinaryOperator.decidedAlone_of_not_logical hop, Bool.not_eq_true] at halone
      rw [if_neg hop, Expr.simplify_operation hop, Expr.calls_simplifyOperation hop halone,
        List.map_append]
      exact hleft.append hright
  | .binary (.intrinsic i) left right ty =>
    have hargs := left.callsLeft_sublist.append right.callsLeft_sublist
    rw [Expr.callsLeft, Expr.callsOutside, List.map_append, List.map_append]
    exact hargs.append (List.Sublist.refl _)
  | .unary (.operator op) operand ty =>
    rw [Expr.simplify, Expr.calls_simplifyUnary]
    exact operand.callsLeft_sublist
  | .unary (.intrinsic i) operand ty =>
    rw [Expr.callsLeft, Expr.callsOutside, List.map_append]
    exact operand.callsLeft_sublist.append (List.Sublist.refl _)
  | .subscript base index ty =>
    rw [Expr.callsLeft, Expr.callsOutside, List.map_append]
    exact base.callsLeft_sublist.append index.callsLeft_sublist
  | .member base field ty => exact base.callsLeft_sublist
  | .call callee args ty =>
    rw [Expr.callsLeft, Expr.callsOutside, List.map_append]
    exact (Expr.callsLeftList_sublist args).append (List.Sublist.refl _)

theorem Expr.callsLeftList_sublist (es : List Expr) :
    (Expr.callsLeftList returns es).Sublist
      (Expr.callsOutsideList (fun _ _ _ => false) (Expr.simplifyList returns es)) := by
  match es with
  | [] => exact List.nil_sublist _
  | e :: es =>
    rw [Expr.callsLeftList, Expr.callsOutsideList, List.map_append]
    exact e.callsLeft_sublist.append (Expr.callsLeftList_sublist es)

theorem Expr.callsLeftMembers_sublist (members : List (String × Expr)) :
    (Expr.callsLeftMembers returns members).Sublist
      (Expr.callsOutsideMembers (fun _ _ _ => false) (Expr.simplifyMembers returns members)) := by
  match members with
  | [] => exact List.nil_sublist _
  | (_, e) :: members =>
    rw [Expr.callsLeftMembers, Expr.callsOutsideMembers, List.map_append]
    exact e.callsLeft_sublist.append (Expr.callsLeftMembers_sublist members)

end

end Left

/-- Simplifying drops no call but those in operations that one operand decides. -/
theorem Expr.calls_kept (returns : Returns) (e : Expr) :
    ((e.callsOutside (BinaryOperator.decidedAlone returns)).map (Call.simplify returns)).Sublist
      (e.simplify returns).calls :=
  e.callsLeft_sublist returns

namespace Unheard

open Source (label mention number declare)

/-- `deal f() { return 1 }  hand x = f() * 0`. -/
def source : List Source.Stmt :=
  [.declareFunc .none (label "f") [] .none none [.returnValue .none (number 1)],
    declare "x" (.binary .none .multiply (.call .none (mention "f") []) (number 0))]

def f : Func := ⟨14, "f", .declared [] none⟩

def product : Expr := .binary (.operator .multiply) (.call f [] .int) (.int 0) .int

def typed : Program :=
  ⟨[.declareFunc f [.returnValue (.int 1)], .declareVar ⟨15, "x", .mutable, .int⟩ product],
    [(14, .int)]⟩

/-- The product makes a call, and there is none in the literal that it is simplified to. -/
theorem call_dropped : Source.lower .strict source = .ok typed ∧ .expr product ∈ typed.nodes ∧
    product.calls = [⟨.func f, [], .int⟩] ∧ product.simplify typed.returns = .int 0 := by
  refine ⟨rfl, ?_, rfl, rfl⟩
  simp [typed, Program.nodes, Stmt.nodesList, Stmt.nodes, product, Expr.nodes]

end Unheard

/-! ### Divisions by zero -/

/-- An expression over integers without variables. -/
inductive Expr.Arithmetic : Expr → Prop where
  | int (n : Int) : Arithmetic (.int n)
  | negation {operand : Expr} {ty : Ty} (hoperand : Arithmetic operand) :
    Arithmetic (.unary (.operator .negate) operand ty)
  | operation {op : BinaryOperator} {left right : Expr} {ty : Ty} (hop : op.opClass = .arithmetic)
      (hleft : Arithmetic left) (hright : Arithmetic right) :
    Arithmetic (.binary (.operator op) left right ty)

theorem BinaryOperator.not_logical_of_arithmetic {op : BinaryOperator}
    (h : op.opClass = .arithmetic) : op.opClass ≠ .logical := by
  rw [h]
  decide

/-- The operators that fail for a second operand that is zero. -/
def BinaryOperator.divides : BinaryOperator → Bool
  | .divide | .remainder | .floorDivide => true
  | _ => false

/-- Somewhere in an expression over integers a division by zero comes up, outside of operations
that are to be skipped. -/
inductive Expr.DividesByZero (skips : BinaryOperator → Expr → Expr → Bool) : Expr → Prop where
  | here {op : BinaryOperator} {left right : Expr} {ty : Ty} (hdivides : op.divides = true)
      (hskips : skips op left right = false) (hzero : right.eval (fun _ => none) = some (.int 0)) :
    DividesByZero skips (.binary (.operator op) left right ty)
  | left {op : BinaryOperator} {left right : Expr} {ty : Ty} (hop : op.opClass = .arithmetic)
      (hskips : skips op left right = false) (hleft : DividesByZero skips left) :
    DividesByZero skips (.binary (.operator op) left right ty)
  | right {op : BinaryOperator} {left right : Expr} {ty : Ty} (hop : op.opClass = .arithmetic)
      (hskips : skips op left right = false) (hright : DividesByZero skips right) :
    DividesByZero skips (.binary (.operator op) left right ty)
  | negation {operand : Expr} {ty : Ty} (hoperand : DividesByZero skips operand) :
    DividesByZero skips (.unary (.operator .negate) operand ty)

namespace Expr.Arithmetic

/-- Expressions over integers have no variables, so none with the name of a truth value. -/
theorem noTruthNames {e : Expr} (h : e.Arithmetic) : NoTruthNames e.nodes := by
  intro v hv
  induction h with
  | int n => simp [nodes] at hv
  | negation _ ih => exact ih (by simpa [nodes] using hv)
  | operation _ _ _ ihleft ihright =>
    simp only [nodes, List.mem_cons, Node.expr.injEq, reduceCtorEq, List.mem_append,
      false_or] at hv
    exact hv.elim ihleft ihright

/-- The only literals among these expressions are integers. -/
theorem numeral {e : Expr} (h : e.Arithmetic) {n : Numeral} (hn : Numeral.ofExpr? e = some n) :
    ∃ i, n = .int i := by
  cases h with
  | int i => exact ⟨i, (Option.some.inj hn).symm⟩
  | negation | operation => cases hn

/-- What is left of an operation over integers is an expression over integers. -/
theorem simplifyOperation {op : BinaryOperator} {left right : Expr}
    (hop : op.opClass = .arithmetic) (hleft : left.Arithmetic) (hright : right.Arithmetic)
    (returns : Returns) (ty : Ty) :
    (simplifyOperation returns op left right ty).Arithmetic := by
  rcases simplifyOperation_cases returns op left right ty with ⟨a, b, ha, hb, hfold⟩ | ⟨_, heq⟩
  · obtain ⟨i, rfl⟩ := hleft.numeral ha
    obtain ⟨j, rfl⟩ := hright.numeral hb
    rcases BinaryOperator.foldInt_cases hfold with ⟨_, n, heq⟩ | ⟨hcomparison, _⟩
    · rw [heq]
      exact .int n
    · rw [hop] at hcomparison
      cases hcomparison
  · rw [heq]
    have hidentity := identityLeft returns op left right ty
    generalize simplifyIdentity returns op left right ty = e at hidentity ⊢
    cases hidentity with
    | kept => exact .operation hop hleft hright
    | left => exact hleft
    | right => exact hright
    | negation => exact .negation hright
    | int n => exact .int n

/-- A simplified expression over integers is one as well. -/
theorem simplify (returns : Returns) {e : Expr} (h : e.Arithmetic) :
    (e.simplify returns).Arithmetic := by
  induction h with
  | int n => exact .int n
  | negation _ ih =>
    rw [Expr.simplify]
    unfold simplifyUnary
    split
    next n _ hn =>
      obtain ⟨i, rfl⟩ := ih.numeral hn
      exact .int (-i)
    next => exact .negation ih
  | operation hop _ _ ihleft ihright =>
    rw [Expr.simplify_operation (BinaryOperator.not_logical_of_arithmetic hop)]
    exact simplifyOperation hop ihleft ihright returns _

end Expr.Arithmetic

namespace Expr.DividesByZero

variable {skips : BinaryOperator → Expr → Expr → Bool} {e : Expr}

/-- Where a division by zero comes up there is no literal. -/
theorem not_literal (h : e.DividesByZero skips) : ¬ e.Literal := by
  intro hliteral
  cases hliteral <;> cases h

theorem isNumericLiteral (h : e.DividesByZero skips) : e.isNumericLiteral = false := by
  cases h <;> rfl

end Expr.DividesByZero

/-- A division by zero is left as it is, unless its first operand decides it. -/
theorem simplifyOperation_of_zero {op : BinaryOperator} {left right : Expr}
    (hdivides : op.divides = true) (hleft : left.Arithmetic)
    (hzero : right.eval (fun _ => none) = some (.int 0)) (hopen : op.absorbs left right = false)
    (returns : Returns) (ty : Ty) :
    simplifyOperation returns op left right ty = .binary (.operator op) left right ty := by
  have hone : right.isOne = false := by
    rw [← Expr.evalIn_usual] at hzero
    refine Bool.eq_false_iff.mpr fun hone => ?_
    cases Expr.isOne_evalIn hone hzero
  refine simplifyOperation_of_stays (fun a b ha hb => ?_) ?_ returns ty
  · -- Folding has nothing to offer for a zero.
    obtain ⟨i, rfl⟩ := hleft.numeral ha
    obtain ⟨j, _, rfl, hj⟩ := Numeral.ofExpr?_eval hb hzero
    cases hj
    cases op with
    | divide | remainder | floorDivide => rfl
    | _ => cases hdivides
  · cases op with
    | divide => exact ⟨hopen, hone⟩
    | remainder | floorDivide => trivial
    | _ => cases hdivides

/-- An operation on simplified operands still divides by zero if one of them does. -/
theorem Expr.DividesByZero.simplifyOperation {op : BinaryOperator} {left right : Expr}
    (hop : op.opClass = .arithmetic) (hopen : op.absorbs left right = false)
    (h : left.DividesByZero (fun _ _ _ => false) ∨ right.DividesByZero fun _ _ _ => false)
    (returns : Returns) (ty : Ty) :
    (simplifyOperation returns op left right ty).DividesByZero fun _ _ _ => false := by
  rcases simplifyOperation_open hopen returns ty with
    heq | ⟨hright, heq⟩ | ⟨hleft, heq⟩ | ⟨hleft, hright, _⟩
  · rw [heq]
    exact h.elim (.left hop rfl) (.right hop rfl)
  · -- The literal that is dropped cannot be the one that divides.
    rw [heq]
    exact h.resolve_right fun h => by simp [h.isNumericLiteral] at hright
  · have h := h.resolve_left fun h => by simp [h.isNumericLiteral] at hleft
    rcases heq with heq | heq
    · rw [heq]
      exact h
    · rw [heq]
      exact .negation h
  · rcases h with h | h
    · simp [h.isNumericLiteral] at hleft
    · simp [h.isNumericLiteral] at hright

/-- A division by zero outside of operations that one operand decides comes up in the simplified
expression too. -/
theorem Expr.DividesByZero.simplify {returns : Returns} {e : Expr} (harith : e.Arithmetic)
    (h : e.DividesByZero (BinaryOperator.decidedAlone returns)) :
    (e.simplify returns).DividesByZero fun _ _ _ => false := by
  induction harith with
  | int => cases h
  | negation hoperand ih =>
    cases h with
    | negation h =>
      have hkept := ih h
      rw [Expr.simplify]
      unfold simplifyUnary
      split
      next _ hn =>
        have hno := Expr.isNumericLiteral_of_ofExpr? hn
        simp [hkept.isNumericLiteral] at hno
      next => exact .negation hkept
  | operation hop hleft hright ihleft ihright =>
    have hlogical := BinaryOperator.not_logical_of_arithmetic hop
    rw [Expr.simplify_operation hlogical]
    cases h with
    | here hdivides hskips hzero =>
      rw [BinaryOperator.decidedAlone_of_not_logical hlogical] at hskips
      have hstill := Expr.eval_simplify returns _ hright.noTruthNames hzero
      rw [simplifyOperation_of_zero hdivides (hleft.simplify returns) hstill hskips]
      exact .here hdivides rfl hstill
    | left _ hskips h =>
      rw [BinaryOperator.decidedAlone_of_not_logical hlogical] at hskips
      exact simplifyOperation hop hskips (Or.inl (ihleft h)) returns _
    | right _ hskips h =>
      rw [BinaryOperator.decidedAlone_of_not_logical hlogical] at hskips
      exact simplifyOperation hop hskips (Or.inr (ihright h)) returns _

/-- Simplifying carries out no division by zero and drops none, but in operations that one operand
decides. -/
theorem Expr.trap_kept (returns : Returns) {e : Expr} (harith : e.Arithmetic)
    (h : e.DividesByZero (BinaryOperator.decidedAlone returns)) :
    (e.simplify returns).DividesByZero (fun _ _ _ => false) ∧ ¬ (e.simplify returns).Literal :=
  ⟨h.simplify harith, (h.simplify harith).not_literal⟩

namespace Unheard

def operation (op : BinaryOperator) (left right : Expr) : Expr :=
  .binary (.operator op) left right .int

/-- `0 * (1 / 0)`. -/
def zeroTimes : Expr :=
  operation .multiply (.int 0) (operation .divide (.int 1) (.int 0))

theorem zeroTimes_arithmetic : zeroTimes.Arithmetic :=
  .operation rfl (.int 0) (.operation rfl (.int 1) (.int 0))

/-- A division by zero comes up in `0 * (1 / 0)`, and none in what it is simplified to. -/
theorem trap_dropped : zeroTimes.Arithmetic ∧ zeroTimes.DividesByZero (fun _ _ _ => false) ∧
    (zeroTimes.simplify []).Literal :=
  ⟨zeroTimes_arithmetic, .right rfl rfl (.here rfl rfl rfl), .int 0⟩

/-- `0 * (1 / 0) + 3 %% (5 - 5)`. -/
def sum : Expr :=
  operation .add zeroTimes
    (operation .floorDivide (.int 3) (operation .subtract (.int 5) (.int 5)))

/-- One of the two divisions by zero is dropped, and the other one is left. -/
theorem trap_kept_sum : sum.Arithmetic ∧ sum.DividesByZero (BinaryOperator.decidedAlone []) ∧
    sum.simplify [] = operation .floorDivide (.int 3) (.int 0) ∧
    (sum.simplify []).DividesByZero (fun _ _ _ => false) ∧ ¬ (sum.simplify []).Literal := by
  have harith : sum.Arithmetic :=
    .operation rfl zeroTimes_arithmetic
      (.operation rfl (.int 3) (.operation rfl (.int 5) (.int 5)))
  have hdivides : sum.DividesByZero (BinaryOperator.decidedAlone []) :=
    .right rfl rfl (.here rfl rfl rfl)
  exact ⟨harith, hdivides, rfl, Expr.trap_kept [] harith hdivides⟩

end Unheard

end Croupier
