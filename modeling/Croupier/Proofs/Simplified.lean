import Croupier.Compile
import Croupier.Proofs.Lowered

/-!
# What simplifying does

The counterpart of `Croupier.Proofs.Lowered` for the pass over a typed program. There are few
things that can become of an expression or a statement, and this module lists them once and for
all. `PhraseSimplified` has one rule for each thing that can become of an expression. What is left
of an operation, after it has been carried out on literals or dropped, is summed up in
`OperationLeft`.

Every statement leaves a list of statements behind. It stays, with its parts simplified; or it
disappears; or, if it is an `if` whose test turned out to be a literal, one of its arms stands in
its place. `PassageSimplified` has one rule for each of these, with the reason for which it
applies. A law about every simplified program is then an induction over these rules, and none has
to look into the pass.

Further arms are simplified as an `if` of their own and then put back behind the arm before them.
`Else.statements` undoes the putting back, so a law about statements need not treat the two apart.

> `phraseSimplified_expr`, `passageSimplified_list`: what becomes of an expression and of a block
> is described by the rules.
>
> `Program.of_mem_simplify`: every statement of a simplified program is a statement of the program
> before, with its parts simplified.
-/

namespace Croupier

/-! ### Operations -/

/-- A number or a truth value that is written out. -/
inductive Expr.Literal : Expr → Prop where
  | int (n : Int) : Literal (.int n)
  | float (x : Float) : Literal (.float x)
  | bool (b : Bool) : Literal (.bool b)

namespace BinaryOperator

/-- A finite float is written as itself. -/
theorem finite?_eq_some {x : Float} {e : Expr} (h : finite? x = some e) : e = .float x := by
  unfold finite? at h
  split at h
  next =>
    cases h
    rfl
  next => cases h

/-- Arithmetic on integers gives an integer, and a comparison of integers a truth value. -/
theorem foldInt_cases {op : BinaryOperator} {a b : Int} {e : Expr} (h : op.foldInt a b = some e) :
    (op.opClass = .arithmetic ∧ ∃ n, e = .int n) ∨
      (op.opClass = .comparison ∧ ∃ c, e = .bool c) := by
  cases op with
  | add | subtract | multiply =>
    cases h
    exact Or.inl ⟨rfl, _, rfl⟩
  | divide | remainder | floorDivide =>
    simp only [foldInt] at h
    split at h
    next => cases h
    next =>
      cases h
      exact Or.inl ⟨rfl, _, rfl⟩
  | power =>
    obtain ⟨n, _, rfl⟩ := Option.map_eq_some_iff.mp h
    exact Or.inl ⟨rfl, n, rfl⟩
  | equal | notEqual | less | lessOrEqual | greater | greaterOrEqual =>
    simp only [foldInt, Option.map_eq_some_iff] at h
    obtain ⟨c, _, rfl⟩ := h
    exact Or.inr ⟨rfl, c, rfl⟩
  | and | or => cases h

/-- Arithmetic on floats gives a float, and a comparison of floats a truth value. -/
theorem foldFloat_cases {op : BinaryOperator} {a b : Float} {e : Expr}
    (h : op.foldFloat a b = some e) :
    (op.opClass = .arithmetic ∧ ∃ x, e = .float x) ∨
      (op.opClass = .comparison ∧ ∃ c, e = .bool c) := by
  cases op with
  | add | subtract | multiply | power => exact Or.inl ⟨rfl, _, finite?_eq_some h⟩
  | divide | remainder | floorDivide =>
    simp only [foldFloat] at h
    split at h
    next => cases h
    next => exact Or.inl ⟨rfl, _, finite?_eq_some h⟩
  | equal | notEqual | less | lessOrEqual | greater | greaterOrEqual =>
    obtain ⟨c, _, rfl⟩ := Option.map_eq_some_iff.mp h
    exact Or.inr ⟨rfl, c, rfl⟩
  | and | or =>
    obtain ⟨_, hholds, _⟩ := Option.map_eq_some_iff.mp h
    obtain ⟨_, _, hno⟩ := Option.bind_eq_some_iff.mp hholds
    cases hno

/-- An operation that is carried out gives a literal. -/
theorem fold_literal {op : BinaryOperator} {a b : Numeral} {e : Expr}
    (h : op.fold a b = some e) : e.Literal := by
  unfold fold at h
  split at h
  next =>
    rcases foldInt_cases h with ⟨_, n, rfl⟩ | ⟨_, c, rfl⟩
    · exact .int n
    · exact .bool c
  next =>
    rcases foldFloat_cases h with ⟨_, x, rfl⟩ | ⟨_, c, rfl⟩
    · exact .float x
    · exact .bool c

end BinaryOperator

/-- Numbers are written as literals. -/
theorem Numeral.expr_literal (n : Numeral) : n.expr.Literal := by
  cases n with
  | int n => exact .int n
  | float x => exact .float x

/-- None of the rules for a literal `0` or `1` applies to an operation. -/
def BinaryOperator.Stays (op : BinaryOperator) (left right : Expr) : Prop :=
  match op with
  | .add | .subtract => left.isZero = false ∧ right.isZero = false
  | .multiply =>
    (left.isZero = false ∧ right.isZero = false) ∧ left.isOne = false ∧ right.isOne = false
  | .divide => left.isZero = false ∧ right.isOne = false
  | .power => left.isOne = false ∧ right.isZero = false ∧ right.isOne = false
  | _ => True

/-- One operand alone makes the operation a literal, whatever the other one is: `x * 0`, `0 / x`,
`x ** 0` and `1 ** x`. -/
def BinaryOperator.absorbs (left right : Expr) : BinaryOperator → Bool
  | .multiply => left.isZero || right.isZero
  | .divide => left.isZero
  | .power => right.isZero || left.isOne
  | _ => false

/-- An operation to which none of the rules for `0` and `1` applies is left as it is. -/
theorem simplifyIdentity_of_stays {op : BinaryOperator} {left right : Expr}
    (h : op.Stays left right) (returns : Returns) (ty : Ty) :
    simplifyIdentity returns op left right ty = .binary (.operator op) left right ty := by
  unfold BinaryOperator.Stays at h
  unfold simplifyIdentity
  cases op <;> simp [h]

/-- What is left of an operation by the rules for a literal `0` or `1`, and beside which literal. -/
inductive IdentityLeft (returns : Returns) (op : BinaryOperator) (left right : Expr) (ty : Ty) :
    Expr → Prop where
  | kept (hstays : op.Stays left right) :
    IdentityLeft returns op left right ty (.binary (.operator op) left right ty)
  | left (hop : op.opClass = .arithmetic) (hright : right.isNumericLiteral = true) :
    IdentityLeft returns op left right ty left
  | right (hop : op.opClass = .arithmetic) (hleft : left.isNumericLiteral = true) :
    IdentityLeft returns op left right ty right
  | negation (hop : op = .subtract) (hleft : left.isNumericLiteral = true) :
    IdentityLeft returns op left right ty (.negation returns right)
  | int (n : Int) (hop : op.opClass = .arithmetic)
      (hliteral : left.isNumericLiteral = true ∨ right.isNumericLiteral = true)
      (habsorbs : op.absorbs left right = true) : IdentityLeft returns op left right ty (.int n)

/-- What can be read as a number is written as one. -/
theorem Expr.isNumericLiteral_of_ofExpr? {e : Expr} {n : Numeral}
    (h : Numeral.ofExpr? e = some n) : e.isNumericLiteral = true := by
  cases e with
  | int | float => rfl
  | _ => cases h

theorem Expr.isNumericLiteral_of_isZero {e : Expr} (h : e.isZero = true) :
    e.isNumericLiteral = true := by
  cases e with
  | int | float => rfl
  | _ => cases h

theorem Expr.isNumericLiteral_of_isOne {e : Expr} (h : e.isOne = true) :
    e.isNumericLiteral = true := by
  cases e with
  | int | float => rfl
  | _ => cases h

open Croupier.Expr in
/-- The rules for `0` and `1` leave one of the things that are listed. -/
theorem identityLeft (returns : Returns) (op : BinaryOperator) (left right : Expr) (ty : Ty) :
    IdentityLeft returns op left right ty (simplifyIdentity returns op left right ty) := by
  unfold simplifyIdentity
  cases op with
  | add =>
    dsimp only
    split
    next hr => exact .left rfl (isNumericLiteral_of_isZero hr)
    next hr =>
      split
      next hl => exact .right rfl (isNumericLiteral_of_isZero hl)
      next hl => exact .kept ⟨by simpa using hl, by simpa using hr⟩
  | subtract =>
    dsimp only
    split
    next hr => exact .left rfl (isNumericLiteral_of_isZero hr)
    next hr =>
      split
      next hl => exact .negation rfl (isNumericLiteral_of_isZero hl)
      next hl => exact .kept ⟨by simpa using hl, by simpa using hr⟩
  | multiply =>
    dsimp only
    split
    next hr => exact .left rfl (isNumericLiteral_of_isOne hr)
    next hr =>
      split
      next hl => exact .right rfl (isNumericLiteral_of_isOne hl)
      next hl =>
        split
        next hzero =>
          refine .int 0 rfl ?_ hzero
          exact (Bool.or_eq_true_iff.mp hzero).imp isNumericLiteral_of_isZero
            isNumericLiteral_of_isZero
        next hzero => exact .kept ⟨by simpa using hzero, by simpa using hl, by simpa using hr⟩
  | divide =>
    dsimp only
    split
    next hr => exact .left rfl (isNumericLiteral_of_isOne hr)
    next hr =>
      split
      next hl => exact .int 0 rfl (Or.inl (isNumericLiteral_of_isZero hl)) hl
      next hl => exact .kept ⟨by simpa using hl, by simpa using hr⟩
  | power =>
    dsimp only
    split
    next hone =>
      refine .int 1 rfl ?_ hone
      rcases Bool.or_eq_true_iff.mp hone with hr | hl
      · exact Or.inr (isNumericLiteral_of_isZero hr)
      · exact Or.inl (isNumericLiteral_of_isOne hl)
    next hone =>
      obtain ⟨hzero, hl⟩ : right.isZero = false ∧ left.isOne = false := by simpa using hone
      split
      next hr => exact .left rfl (isNumericLiteral_of_isOne hr)
      next hr => exact .kept ⟨hl, hzero, by simpa using hr⟩
  | remainder | floorDivide | equal | notEqual | less | lessOrEqual | greater | greaterOrEqual
  | and | or => exact .kept trivial

/-- What can be left of an operation. -/
inductive OperationLeft (returns : Returns) (op : BinaryOperator) (left right : Expr) (ty : Ty) :
    Expr → Prop where
  | kept : OperationLeft returns op left right ty (.binary (.operator op) left right ty)
  | left : OperationLeft returns op left right ty left
  | right : OperationLeft returns op left right ty right
  | negation : OperationLeft returns op left right ty (.negation returns right)
  | literal {e : Expr} (h : e.Literal) : OperationLeft returns op left right ty e

/-- What the rules for `0` and `1` leave can be left of an operation. -/
theorem IdentityLeft.operationLeft {returns : Returns} {op : BinaryOperator} {left right e : Expr}
    {ty : Ty} (h : IdentityLeft returns op left right ty e) :
    OperationLeft returns op left right ty e := by
  cases h with
  | kept => exact .kept
  | left => exact .left
  | right => exact .right
  | negation => exact .negation
  | int n => exact .literal (.int n)

/-- An operation on two literals is carried out. Where that is not possible, or an operand is no
literal, the rules for a literal `0` or `1` say what is left. -/
theorem simplifyOperation_cases (returns : Returns) (op : BinaryOperator) (left right : Expr)
    (ty : Ty) :
    (∃ a b, Numeral.ofExpr? left = some a ∧ Numeral.ofExpr? right = some b ∧
      op.fold a b = some (simplifyOperation returns op left right ty)) ∨
    ((∀ a b, Numeral.ofExpr? left = some a → Numeral.ofExpr? right = some b →
        op.fold a b = none) ∧
      simplifyOperation returns op left right ty = simplifyIdentity returns op left right ty) := by
  unfold simplifyOperation
  split
  next a b ha hb =>
    cases hfold : op.fold a b with
    | some e => exact Or.inl ⟨a, b, ha, hb, hfold⟩
    | none =>
      refine Or.inr ⟨fun c d hc hd => ?_, rfl⟩
      rw [← Option.some.inj (ha.symm.trans hc), ← Option.some.inj (hb.symm.trans hd), hfold]
  next hopen => exact Or.inr ⟨fun a b ha hb => (hopen a b ha hb).elim, rfl⟩

/-- An operation is left as it is if it is neither folded nor touched by the rules for `0` and
`1`. -/
theorem simplifyOperation_of_stays {op : BinaryOperator} {left right : Expr}
    (hfold : ∀ a b, Numeral.ofExpr? left = some a → Numeral.ofExpr? right = some b →
      op.fold a b = none)
    (hstays : op.Stays left right) (returns : Returns) (ty : Ty) :
    simplifyOperation returns op left right ty = .binary (.operator op) left right ty := by
  rcases simplifyOperation_cases returns op left right ty with ⟨a, b, ha, hb, hsome⟩ | ⟨_, heq⟩
  · rw [hfold a b ha hb] at hsome
    cases hsome
  · rw [heq, simplifyIdentity_of_stays hstays]

/-- What is left of an operation on simplified operands. -/
theorem operationLeft (returns : Returns) (op : BinaryOperator) (left right : Expr) (ty : Ty) :
    OperationLeft returns op left right ty (simplifyOperation returns op left right ty) := by
  rcases simplifyOperation_cases returns op left right ty with ⟨_, _, _, _, hfold⟩ | ⟨_, heq⟩
  · exact .literal (BinaryOperator.fold_literal hfold)
  · rw [heq]
    exact (identityLeft returns op left right ty).operationLeft

/-! ### Expressions -/

/-- Only `and` and `or` are decided without looking at simplified operands. -/
theorem shortCircuit?_of_not_logical {op : BinaryOperator} (h : op.opClass ≠ .logical)
    (left right : Expr) : shortCircuit? op left right = none := by
  cases op with
  | and | or => exact absurd rfl h
  | _ => rfl

/-- An operation other than `and` and `or` is simplified through its operands. -/
theorem Expr.simplify_operation {op : BinaryOperator} (hop : op.opClass ≠ .logical)
    (returns : Returns) (left right : Expr) (ty : Ty) :
    (Expr.binary (.operator op) left right ty).simplify returns =
      simplifyOperation returns op (left.simplify returns) (right.simplify returns) ty := by
  rw [Expr.simplify, shortCircuit?_of_not_logical hop]

/-- The simplified form of a phrase. -/
def Phrase.simplify (returns : Returns) : Phrase → Phrase
  | .expr e => .expr (e.simplify returns)
  | .list es => .list (Expr.simplifyList returns es)
  | .members ms => .members (Expr.simplifyMembers returns ms)

/-- What becomes of a phrase. Each rule has what becomes of the parts that count as premises. -/
inductive PhraseSimplified (returns : Returns) : Phrase → Phrase → Prop where
  | int (n : Int) : PhraseSimplified returns (.expr (.int n)) (.expr (.int n))
  | float (x : Float) : PhraseSimplified returns (.expr (.float x)) (.expr (.float x))
  | string (s : String) : PhraseSimplified returns (.expr (.string s)) (.expr (.string s))
  | bool (b : Bool) : PhraseSimplified returns (.expr (.bool b)) (.expr (.bool b))
  | func (f : Func) : PhraseSimplified returns (.expr (.func f)) (.expr (.func f))
  | emptyArray (element : Ty) :
    PhraseSimplified returns (.expr (.emptyArray element)) (.expr (.emptyArray element))
  | var {v : Var} (hname : v.name ≠ "true" ∧ v.name ≠ "false") :
    PhraseSimplified returns (.expr (.var v)) (.expr (.var v))
  | truth {v : Var} {b : Bool} (hname : v.name = if b then "true" else "false") :
    PhraseSimplified returns (.expr (.var v)) (.expr (.bool b))
  | decided {op : BinaryOperator} {left right : Expr} {ty : Ty} {b : Bool}
      (hshort : shortCircuit? op left right = some (.decided b)) :
    PhraseSimplified returns (.expr (.binary (.operator op) left right ty)) (.expr (.bool b))
  | shortLeft {op : BinaryOperator} {left right : Expr} {ty : Ty}
      (hshort : shortCircuit? op left right = some .left)
      (hleft : PhraseSimplified returns (.expr left) (.expr (left.simplify returns))) :
    PhraseSimplified returns (.expr (.binary (.operator op) left right ty))
      (.expr (left.simplify returns))
  | shortRight {op : BinaryOperator} {left right : Expr} {ty : Ty}
      (hshort : shortCircuit? op left right = some .right)
      (hright : PhraseSimplified returns (.expr right) (.expr (right.simplify returns))) :
    PhraseSimplified returns (.expr (.binary (.operator op) left right ty))
      (.expr (right.simplify returns))
  | operation {op : BinaryOperator} {left right e : Expr} {ty : Ty}
      (hopen : shortCircuit? op left right = none)
      (hleft : PhraseSimplified returns (.expr left) (.expr (left.simplify returns)))
      (hright : PhraseSimplified returns (.expr right) (.expr (right.simplify returns)))
      (he : OperationLeft returns op (left.simplify returns) (right.simplify returns) ty e) :
    PhraseSimplified returns (.expr (.binary (.operator op) left right ty)) (.expr e)
  | intrinsicBinary {i : Intrinsic} {left right : Expr} {ty : Ty}
      (hleft : PhraseSimplified returns (.expr left) (.expr (left.simplify returns)))
      (hright : PhraseSimplified returns (.expr right) (.expr (right.simplify returns))) :
    PhraseSimplified returns (.expr (.binary (.intrinsic i) left right ty))
      (.expr (.binary (.intrinsic i) (left.simplify returns) (right.simplify returns) ty))
  | unary {head : UnaryHead} {operand : Expr} {ty : Ty}
      (hoperand : PhraseSimplified returns (.expr operand) (.expr (operand.simplify returns))) :
    PhraseSimplified returns (.expr (.unary head operand ty))
      (.expr (.unary head (operand.simplify returns) ty))
  | negative {operand : Expr} {ty : Ty} {n : Numeral}
      (hnumeral : Numeral.ofExpr? (operand.simplify returns) = some n) :
    PhraseSimplified returns (.expr (.unary (.operator .negate) operand ty)) (.expr n.negate.expr)
  | subscript {base index : Expr} {ty : Ty}
      (hbase : PhraseSimplified returns (.expr base) (.expr (base.simplify returns)))
      (hindex : PhraseSimplified returns (.expr index) (.expr (index.simplify returns))) :
    PhraseSimplified returns (.expr (.subscript base index ty))
      (.expr (.subscript (base.simplify returns) (index.simplify returns) ty))
  | member {base : Expr} {field : String} {ty : Ty}
      (hbase : PhraseSimplified returns (.expr base) (.expr (base.simplify returns))) :
    PhraseSimplified returns (.expr (.member base field ty))
      (.expr (.member (base.simplify returns) field ty))
  | call {callee : Func} {args : List Expr} {ty : Ty}
      (hargs : PhraseSimplified returns (.list args) (.list (Expr.simplifyList returns args))) :
    PhraseSimplified returns (.expr (.call callee args ty))
      (.expr (.call callee (Expr.simplifyList returns args) ty))
  | array {items : List Expr} {ty : Ty}
      (hitems : PhraseSimplified returns (.list items) (.list (Expr.simplifyList returns items))) :
    PhraseSimplified returns (.expr (.array items ty))
      (.expr (.array (Expr.simplifyList returns items) ty))
  | object {ms : List (String × Expr)}
      (hmembers :
        PhraseSimplified returns (.members ms) (.members (Expr.simplifyMembers returns ms))) :
    PhraseSimplified returns (.expr (.object ms))
      (.expr (.object (Expr.simplifyMembers returns ms)))
  | listNil : PhraseSimplified returns (.list []) (.list [])
  | listCons {e : Expr} {es : List Expr}
      (hfirst : PhraseSimplified returns (.expr e) (.expr (e.simplify returns)))
      (hrest : PhraseSimplified returns (.list es) (.list (Expr.simplifyList returns es))) :
    PhraseSimplified returns (.list (e :: es))
      (.list (e.simplify returns :: Expr.simplifyList returns es))
  | membersNil : PhraseSimplified returns (.members []) (.members [])
  | membersCons {key : String} {e : Expr} {ms : List (String × Expr)}
      (hfirst : PhraseSimplified returns (.expr e) (.expr (e.simplify returns)))
      (hrest :
        PhraseSimplified returns (.members ms) (.members (Expr.simplifyMembers returns ms))) :
    PhraseSimplified returns (.members ((key, e) :: ms))
      (.members ((key, e.simplify returns) :: Expr.simplifyMembers returns ms))

mutual

/-- Every expression is simplified by one of the rules. -/
theorem phraseSimplified_expr (returns : Returns) (e : Expr) :
    PhraseSimplified returns (.expr e) (.expr (e.simplify returns)) := by
  match e with
  | .int n => exact .int n
  | .float x => exact .float x
  | .string s => exact .string s
  | .bool b => exact .bool b
  | .func f => exact .func f
  | .emptyArray element => exact .emptyArray element
  | .var v =>
    rw [Expr.simplify]
    split
    next htrue => exact .truth (by simpa using htrue)
    next htrue =>
      split
      next hfalse => exact .truth (by simpa using hfalse)
      next hfalse => exact .var ⟨by simpa using htrue, by simpa using hfalse⟩
  | .binary (.intrinsic i) left right ty =>
    rw [Expr.simplify]
    exact .intrinsicBinary (phraseSimplified_expr returns left)
      (phraseSimplified_expr returns right)
  | .binary (.operator op) left right ty =>
    have hleft := phraseSimplified_expr returns left
    have hright := phraseSimplified_expr returns right
    rw [Expr.simplify]
    split
    next hshort => exact .decided hshort
    next hshort => exact .shortLeft hshort hleft
    next hshort => exact .shortRight hshort hright
    next hopen => exact .operation hopen hleft hright (operationLeft ..)
  | .unary head operand ty =>
    have hoperand := phraseSimplified_expr returns operand
    rw [Expr.simplify]
    unfold simplifyUnary
    split
    next hnumeral => exact .negative hnumeral
    next => exact .unary hoperand
  | .subscript base index ty =>
    rw [Expr.simplify]
    exact .subscript (phraseSimplified_expr returns base) (phraseSimplified_expr returns index)
  | .member base field ty =>
    rw [Expr.simplify]
    exact .member (phraseSimplified_expr returns base)
  | .call callee args ty =>
    rw [Expr.simplify]
    exact .call (phraseSimplified_list returns args)
  | .array items ty =>
    rw [Expr.simplify]
    exact .array (phraseSimplified_list returns items)
  | .object members =>
    rw [Expr.simplify]
    exact .object (phraseSimplified_members returns members)

/-- What becomes of several expressions. -/
theorem phraseSimplified_list (returns : Returns) (es : List Expr) :
    PhraseSimplified returns (.list es) (.list (Expr.simplifyList returns es)) := by
  match es with
  | [] => exact .listNil
  | e :: es =>
    rw [Expr.simplifyList]
    exact .listCons (phraseSimplified_expr returns e) (phraseSimplified_list returns es)

theorem phraseSimplified_members (returns : Returns) (ms : List (String × Expr)) :
    PhraseSimplified returns (.members ms) (.members (Expr.simplifyMembers returns ms)) := by
  match ms with
  | [] => exact .membersNil
  | (key, e) :: ms =>
    rw [Expr.simplifyMembers]
    exact .membersCons (phraseSimplified_expr returns e) (phraseSimplified_members returns ms)

end

/-! ### Arms as statements -/

/-- The statements that further arms amount to. -/
def Else.statements : Else → List Stmt
  | .elseIf test body orElse => [.branch test body orElse]
  | .block body => body

/-- Statements that are read as arms amount to themselves. -/
theorem Else.statements_ofList (body : List Stmt) : (Else.ofList body).statements = body := by
  unfold Else.ofList
  split <;> rfl

/-- Arms have the nodes of the statements they amount to. -/
theorem Else.nodesList_statements (e : Else) : Stmt.nodesList e.statements = e.nodes := by
  cases e with
  | elseIf test body orElse => exact List.append_nil _
  | block body => rfl

/-- Reading statements as arms keeps their nodes. -/
theorem Else.nodes_ofList (body : List Stmt) : (Else.ofList body).nodes = Stmt.nodesList body := by
  rw [← Else.nodesList_statements, Else.statements_ofList]

theorem Stmt.nodesList_append (ss ts : List Stmt) :
    Stmt.nodesList (ss ++ ts) = Stmt.nodesList ss ++ Stmt.nodesList ts := by
  induction ss with
  | nil => rfl
  | cons s ss ih => rw [List.cons_append, Stmt.nodesList, Stmt.nodesList, ih, List.append_assoc]

theorem Stmt.nodesList_singleton (s : Stmt) : Stmt.nodesList [s] = s.nodes := List.append_nil _

/-! ### Statements -/

/-- A statement with its parts simplified, whatever becomes of it as a whole. -/
def Stmt.simplifyParts (returns : Returns) : Stmt → Stmt
  | .declareVar v init => .declareVar v (init.simplify returns)
  | .declareFunc f body => .declareFunc f (Stmt.simplifyList returns body)
  | .assign target source => .assign (target.simplify returns) (source.simplify returns)
  | .bump op target => .bump op (target.simplify returns)
  | .call value => .call (value.simplify returns)
  | .breakLoop => .breakLoop
  | .returnValue value => .returnValue (value.simplify returns)
  | .returnNone => .returnNone
  | .branch test body orElse =>
    .branch (test.simplify returns) (Stmt.simplifyList returns body) (orElse.simplify returns)
  | .shortBranch test body => .shortBranch (test.simplify returns) (Stmt.simplifyList returns body)
  | .whileLoop test body => .whileLoop (test.simplify returns) (Stmt.simplifyList returns body)
  | .forEach iterator collection body =>
    .forEach iterator (collection.simplify returns) (Stmt.simplifyList returns body)
  | .forTurn iterator low high step direction body =>
    .forTurn iterator (low.simplify returns) (high.simplify returns) (step.simplify returns)
      direction (Stmt.simplifyList returns body)

/-- What becomes of a passage: of a statement a block, of arms arms, of a block a block. Each rule
has what becomes of the parts that are left as premises. -/
inductive PassageSimplified (returns : Returns) : Passage → Passage → Prop where
  | declareVar {v init} :
    PassageSimplified returns (.stmt (.declareVar v init))
      (.block [(Stmt.declareVar v init).simplifyParts returns])
  | declareFunc {f body}
      (hbody : PassageSimplified returns (.block body) (.block (Stmt.simplifyList returns body))) :
    PassageSimplified returns (.stmt (.declareFunc f body))
      (.block [(Stmt.declareFunc f body).simplifyParts returns])
  | assign {target source}
      (hother : (source.simplify returns).sameReference (target.simplify returns) = false) :
    PassageSimplified returns (.stmt (.assign target source))
      (.block [(Stmt.assign target source).simplifyParts returns])
  | assignSelf {target source}
      (hself : (source.simplify returns).sameReference (target.simplify returns) = true) :
    PassageSimplified returns (.stmt (.assign target source)) (.block [])
  | bump {op target} :
    PassageSimplified returns (.stmt (.bump op target))
      (.block [(Stmt.bump op target).simplifyParts returns])
  | call {value} :
    PassageSimplified returns (.stmt (.call value))
      (.block [(Stmt.call value).simplifyParts returns])
  | breakLoop : PassageSimplified returns (.stmt .breakLoop) (.block [.breakLoop])
  | returnValue {value} :
    PassageSimplified returns (.stmt (.returnValue value))
      (.block [(Stmt.returnValue value).simplifyParts returns])
  | returnNone : PassageSimplified returns (.stmt .returnNone) (.block [.returnNone])
  | branch {test body orElse} (hopen : ∀ b, test.simplify returns ≠ .bool b)
      (hbody : PassageSimplified returns (.block body) (.block (Stmt.simplifyList returns body)))
      (helse : PassageSimplified returns (.arms orElse) (.arms (orElse.simplify returns))) :
    PassageSimplified returns (.stmt (.branch test body orElse))
      (.block [(Stmt.branch test body orElse).simplifyParts returns])
  | branchTaken {test body orElse} (htest : test.simplify returns = .bool true)
      (hbody : PassageSimplified returns (.block body) (.block (Stmt.simplifyList returns body))) :
    PassageSimplified returns (.stmt (.branch test body orElse))
      (.block (Stmt.simplifyList returns body))
  | branchPassed {test body orElse} (htest : test.simplify returns = .bool false)
      (helse : PassageSimplified returns (.arms orElse) (.arms (orElse.simplify returns))) :
    PassageSimplified returns (.stmt (.branch test body orElse))
      (.block (orElse.simplify returns).statements)
  | shortBranch {test body} (hopen : ∀ b, test.simplify returns ≠ .bool b)
      (hbody : PassageSimplified returns (.block body) (.block (Stmt.simplifyList returns body))) :
    PassageSimplified returns (.stmt (.shortBranch test body))
      (.block [(Stmt.shortBranch test body).simplifyParts returns])
  | shortTaken {test body} (htest : test.simplify returns = .bool true)
      (hbody : PassageSimplified returns (.block body) (.block (Stmt.simplifyList returns body))) :
    PassageSimplified returns (.stmt (.shortBranch test body))
      (.block (Stmt.simplifyList returns body))
  | shortPassed {test body} (htest : test.simplify returns = .bool false) :
    PassageSimplified returns (.stmt (.shortBranch test body)) (.block [])
  | whileLoop {test body} (hopen : test.simplify returns ≠ .bool false)
      (hbody : PassageSimplified returns (.block body) (.block (Stmt.simplifyList returns body))) :
    PassageSimplified returns (.stmt (.whileLoop test body))
      (.block [(Stmt.whileLoop test body).simplifyParts returns])
  | whileNever {test body} (htest : test.simplify returns = .bool false) :
    PassageSimplified returns (.stmt (.whileLoop test body)) (.block [])
  | forEach {iterator collection body}
      (hopen : ∀ element, collection.simplify returns ≠ .emptyArray element)
      (hbody : PassageSimplified returns (.block body) (.block (Stmt.simplifyList returns body))) :
    PassageSimplified returns (.stmt (.forEach iterator collection body))
      (.block [(Stmt.forEach iterator collection body).simplifyParts returns])
  | forEachNever {iterator collection body element}
      (hempty : collection.simplify returns = .emptyArray element) :
    PassageSimplified returns (.stmt (.forEach iterator collection body)) (.block [])
  | forTurn {iterator low high step direction body}
      (hopen : turnIsOver direction (low.simplify returns) (high.simplify returns) = false)
      (hbody : PassageSimplified returns (.block body) (.block (Stmt.simplifyList returns body))) :
    PassageSimplified returns (.stmt (.forTurn iterator low high step direction body))
      (.block [(Stmt.forTurn iterator low high step direction body).simplifyParts returns])
  | forTurnNever {iterator low high step direction body}
      (hover : turnIsOver direction (low.simplify returns) (high.simplify returns) = true) :
    PassageSimplified returns (.stmt (.forTurn iterator low high step direction body)) (.block [])
  | elseIf {test body orElse ss}
      (hbranch : PassageSimplified returns (.stmt (.branch test body orElse)) (.block ss)) :
    PassageSimplified returns (.arms (.elseIf test body orElse)) (.arms (Else.ofList ss))
  | block {body}
      (hbody : PassageSimplified returns (.block body) (.block (Stmt.simplifyList returns body))) :
    PassageSimplified returns (.arms (.block body))
      (.arms (.block (Stmt.simplifyList returns body)))
  | nil : PassageSimplified returns (.block []) (.block [])
  | cons {s ss} (hfirst : PassageSimplified returns (.stmt s) (.block (s.simplify returns)))
      (hrest : PassageSimplified returns (.block ss) (.block (Stmt.simplifyList returns ss))) :
    PassageSimplified returns (.block (s :: ss))
      (.block (s.simplify returns ++ Stmt.simplifyList returns ss))

/-- An `if` stays, unless its test is a literal by now. -/
theorem PassageSimplified.of_branch {returns : Returns} {test : Expr} {body : List Stmt}
    {orElse : Else}
    (hbody : PassageSimplified returns (.block body) (.block (Stmt.simplifyList returns body)))
    (helse : PassageSimplified returns (.arms orElse) (.arms (orElse.simplify returns))) :
    PassageSimplified returns (.stmt (.branch test body orElse))
      (.block (simplifyBranch (test.simplify returns) (Stmt.simplifyList returns body)
        (orElse.simplify returns))) := by
  unfold simplifyBranch
  split
  next htest => exact .branchTaken htest hbody
  next htest =>
    have hpassed := @PassageSimplified.branchPassed returns test body orElse htest helse
    split
    next harms =>
      rw [harms] at hpassed
      exact hpassed
    next harms =>
      rw [harms] at hpassed
      exact hpassed
  next htrue hfalse =>
    refine .branch (fun b hb => ?_) hbody helse
    cases b with
    | false => exact hfalse hb
    | true => exact htrue hb

mutual

/-- Every statement is simplified by one of the rules. -/
theorem passageSimplified_stmt (returns : Returns) (s : Stmt) :
    PassageSimplified returns (.stmt s) (.block (s.simplify returns)) := by
  match s with
  | .declareVar _ _ =>
    rw [Stmt.simplify]
    exact .declareVar
  | .declareFunc f body =>
    rw [Stmt.simplify]
    exact .declareFunc (passageSimplified_list returns body)
  | .assign target source =>
    rw [Stmt.simplify]
    unfold simplifyAssign
    split
    next hself => exact .assignSelf hself
    next hother => exact .assign (by simpa using hother)
  | .bump _ _ =>
    rw [Stmt.simplify]
    exact .bump
  | .call _ =>
    rw [Stmt.simplify]
    exact .call
  | .breakLoop => exact .breakLoop
  | .returnValue _ =>
    rw [Stmt.simplify]
    exact .returnValue
  | .returnNone => exact .returnNone
  | .branch test body orElse =>
    rw [Stmt.simplify]
    exact .of_branch (passageSimplified_list returns body) (passageSimplified_else returns orElse)
  | .shortBranch test body =>
    have hbody := passageSimplified_list returns body
    rw [Stmt.simplify]
    unfold simplifyShortBranch
    split
    next htest => exact .shortTaken htest hbody
    next htest => exact .shortPassed htest
    next htrue hfalse =>
      refine .shortBranch (fun b hb => ?_) hbody
      cases b with
      | false => exact hfalse hb
      | true => exact htrue hb
  | .whileLoop test body =>
    rw [Stmt.simplify]
    unfold simplifyWhile
    split
    next htest => exact .whileNever htest
    next hopen => exact .whileLoop hopen (passageSimplified_list returns body)
  | .forEach iterator collection body =>
    rw [Stmt.simplify]
    unfold simplifyForEach
    split
    next hempty => exact .forEachNever hempty
    next hopen => exact .forEach hopen (passageSimplified_list returns body)
  | .forTurn iterator low high step direction body =>
    rw [Stmt.simplify]
    unfold simplifyForTurn
    split
    next hover => exact .forTurnNever hover
    next hopen => exact .forTurn (by simpa using hopen) (passageSimplified_list returns body)

theorem passageSimplified_else (returns : Returns) (e : Else) :
    PassageSimplified returns (.arms e) (.arms (e.simplify returns)) := by
  match e with
  | .elseIf test body orElse =>
    rw [Else.simplify]
    exact .elseIf (.of_branch (passageSimplified_list returns body)
      (passageSimplified_else returns orElse))
  | .block body =>
    rw [Else.simplify]
    exact .block (passageSimplified_list returns body)

/-- What becomes of a block. -/
theorem passageSimplified_list (returns : Returns) (ss : List Stmt) :
    PassageSimplified returns (.block ss) (.block (Stmt.simplifyList returns ss)) := by
  match ss with
  | [] => exact .nil
  | s :: ss =>
    rw [Stmt.simplifyList]
    exact .cons (passageSimplified_stmt returns s) (passageSimplified_list returns ss)

end

/-! ### Where statements come from -/

/-- A statement that stays comes from itself, and the statements in its blocks from its blocks. -/
theorem Stmt.of_mem_simplifyParts {returns : Returns} {s s' : Stmt}
    (hs : .stmt s' ∈ Stmt.nodesList [s.simplifyParts returns])
    (hinside : .stmt s' ∈ (s.simplifyParts returns).inside →
      ∃ t, .stmt t ∈ s.inside ∧ s' = t.simplifyParts returns) :
    ∃ t, .stmt t ∈ s.nodes ∧ s' = t.simplifyParts returns := by
  rw [Stmt.nodesList_singleton, Stmt.stmt_mem_nodes] at hs
  rcases hs with rfl | hs
  · exact ⟨s, s.mem_nodes_self, rfl⟩
  · obtain ⟨t, ht, heq⟩ := hinside hs
    exact ⟨t, Stmt.mem_nodes_of_inside ht, heq⟩

/-- Every statement of a simplified passage is a statement of the passage before, with its parts
simplified. -/
theorem PassageSimplified.of_mem {returns : Returns} {d d' : Passage} {s' : Stmt}
    (h : PassageSimplified returns d d') (hs : .stmt s' ∈ d'.nodes) :
    ∃ s, .stmt s ∈ d.nodes ∧ s' = s.simplifyParts returns := by
  induction h with
  | declareVar | assign | bump | call | breakLoop | returnValue | returnNone =>
    exact Stmt.of_mem_simplifyParts hs (fun hno => by cases hno)
  | assignSelf | shortPassed | whileNever | forEachNever | forTurnNever | nil => cases hs
  | declareFunc _ ih | shortBranch _ _ ih | whileLoop _ _ ih | forEach _ _ ih
  | forTurn _ _ ih => exact Stmt.of_mem_simplifyParts hs ih
  | branch _ _ _ ihbody ihelse =>
    refine Stmt.of_mem_simplifyParts hs (fun hs => ?_)
    rcases List.mem_append.mp hs with hs | hs
    · obtain ⟨s, hmem, heq⟩ := ihbody hs
      exact ⟨s, List.mem_append_left _ hmem, heq⟩
    · obtain ⟨s, hmem, heq⟩ := ihelse hs
      exact ⟨s, List.mem_append_right _ hmem, heq⟩
  | branchTaken _ _ ih =>
    obtain ⟨s, hmem, heq⟩ := ih hs
    exact ⟨s, Stmt.mem_nodes_of_inside (List.mem_append_left _ hmem), heq⟩
  | branchPassed _ _ ih =>
    rw [Passage.nodes, Else.nodesList_statements] at hs
    obtain ⟨s, hmem, heq⟩ := ih hs
    exact ⟨s, Stmt.mem_nodes_of_inside (List.mem_append_right _ hmem), heq⟩
  | shortTaken _ _ ih =>
    obtain ⟨s, hmem, heq⟩ := ih hs
    exact ⟨s, Stmt.mem_nodes_of_inside hmem, heq⟩
  | elseIf _ ih =>
    rw [Passage.nodes, Else.nodes_ofList] at hs
    exact ih hs
  | block _ ih => exact ih hs
  | cons _ _ ihfirst ihrest =>
    rw [Passage.nodes, Stmt.nodesList_append] at hs
    rcases List.mem_append.mp hs with hs | hs
    · obtain ⟨s, hmem, heq⟩ := ihfirst hs
      exact ⟨s, List.mem_append_left _ hmem, heq⟩
    · obtain ⟨s, hmem, heq⟩ := ihrest hs
      exact ⟨s, List.mem_append_right _ hmem, heq⟩

/-- Compiling is lowering and then simplifying. -/
theorem compile_eq_ok {strictness : Strictness} {tree : List Source.Stmt} {q : Program}
    (h : compile strictness tree = .ok q) :
    ∃ p, Source.lower strictness tree = .ok p ∧ p.simplify = q := by
  unfold compile at h
  cases hp : Source.lower strictness tree with
  | error fault =>
    rw [hp] at h
    cases h
  | ok p =>
    rw [hp] at h
    cases h
    exact ⟨p, rfl, rfl⟩

/-- Every statement of a simplified program is a statement of the program before, with its parts
simplified. -/
theorem Program.of_mem_simplify {p : Program} {s' : Stmt} (hs : .stmt s' ∈ p.simplify.nodes) :
    ∃ s, .stmt s ∈ p.nodes ∧ s' = s.simplifyParts p.returns :=
  (passageSimplified_list p.returns p.body).of_mem hs

end Croupier
