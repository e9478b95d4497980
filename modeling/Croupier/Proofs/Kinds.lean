import Croupier.Proofs.Settling
import Croupier.Proofs.SimplifyEval
import Croupier.Proofs.Simplified
import Croupier.Proofs.Strictness

/-!
# Simplifying keeps kinds of types

A simplified expression need not have the type of the expression that it was made of. `x * 0` is a
float if `x` is one, but the `0` that is left of it is an integer, and what is left of `x + 0.0` is
an integer if `x` is one. Such changes stay among the numbers: an expression keeps its type, or it
has been a number and still is one (`Ty.SameKind`).

A rule beside a literal `0` or `1` applies only to arithmetic. One of the operands is a number then,
because a literal was made of it; the operands go together, so the other one is a number too; hence
so is the operation, and so is whatever the rule leaves. Where an `and` or `or` gives way to one of
its operands, the strict way of reading the program has seen to it that this is a truth value. All
of this is about operands as they were read, while a pass looks at simplified ones, and these are
related by the law itself.

None of this holds of a program in which something has the type `any`, which goes together with
everything.

> `Expr.sameKind_operation`: an operation on operands of the same kind leaves something of the same
> kind.
>
> `Program.ty_simplify`: in a program that was read strictly, a simplified expression has a type of
> the same kind as before.
-/

namespace Croupier

/-! ### Numbers -/

namespace Ty

/-- One of the two types of numbers. -/
def IsNumber (t : Ty) : Prop := t = int ∨ t = float

/-- Two types that are equal or both types of numbers. -/
def SameKind (s t : Ty) : Prop := s = t ∨ (s.IsNumber ∧ t.IsNumber)

theorem SameKind.refl (t : Ty) : t.SameKind t := Or.inl rfl

/-- Types of the same kind are both numbers or both not. -/
theorem SameKind.isNumber_iff {s t : Ty} (h : s.SameKind t) : s.IsNumber ↔ t.IsNumber := by
  rcases h with rfl | ⟨hs, ht⟩
  · exact Iff.rfl
  · exact ⟨fun _ => ht, fun _ => hs⟩

/-- A number goes together with numbers only, apart from `any`. -/
theorem Fits.isNumber_iff {s t : Ty} (h : s.Fits t) (hs : s ≠ any) (ht : t ≠ any) :
    s.IsNumber ↔ t.IsNumber := by
  rcases h with hsame | ⟨rfl, rfl⟩ | ⟨rfl, rfl⟩ | hany | hany
  · constructor
    · rintro (rfl | rfl)
      · exact Or.inl (eq_of_prim_same hsame)
      · exact Or.inr (eq_of_prim_same hsame)
    · rintro (rfl | rfl)
      · exact Or.inl (eq_prim_of_same hsame)
      · exact Or.inr (eq_prim_of_same hsame)
  · exact ⟨fun _ => Or.inr rfl, fun _ => Or.inl rfl⟩
  · exact ⟨fun _ => Or.inl rfl, fun _ => Or.inr rfl⟩
  · exact absurd hany hs
  · exact absurd hany ht

/-- Arithmetic on numbers gives a number. -/
theorem promote_isNumber {s t : Ty} (hs : s.IsNumber) (ht : t.IsNumber) :
    ((s.promote t).getD any).IsNumber := by
  rcases hs with rfl | rfl <;> rcases ht with rfl | rfl
  · exact Or.inl rfl
  · exact Or.inr rfl
  · exact Or.inr rfl
  · exact Or.inr rfl

end Ty

/-- A number that is written out has the type of a number. -/
theorem Expr.isNumber_of_literal {e : Expr} (h : e.isNumericLiteral = true) (returns : Returns) :
    (e.ty returns).IsNumber := by
  cases e with
  | int => exact Or.inl rfl
  | float => exact Or.inr rfl
  | _ => cases h

/-- The literal of a number has the type of a number. -/
theorem Numeral.expr_isNumber (n : Numeral) (returns : Returns) :
    (n.expr.ty returns).IsNumber := by
  cases n with
  | int => exact Or.inl rfl
  | float => exact Or.inr rfl

/-- Arithmetic that is carried out gives a number, and a comparison a truth value. -/
theorem BinaryOperator.fold_ty {op : BinaryOperator} {a b : Numeral} {e : Expr}
    (h : op.fold a b = some e) (returns : Returns) :
    (op.opClass = .arithmetic ∧ (e.ty returns).IsNumber) ∨
      (op.opClass = .comparison ∧ e.ty returns = .boolean) := by
  unfold fold at h
  split at h
  next =>
    rcases foldInt_cases h with ⟨hop, n, rfl⟩ | ⟨hop, c, rfl⟩
    · exact Or.inl ⟨hop, Or.inl rfl⟩
    · exact Or.inr ⟨hop, rfl⟩
  next =>
    rcases foldFloat_cases h with ⟨hop, x, rfl⟩ | ⟨hop, c, rfl⟩
    · exact Or.inl ⟨hop, Or.inr rfl⟩
    · exact Or.inr ⟨hop, rfl⟩

/-! ### Operations -/

section Operations

variable {returns : Returns} {op : BinaryOperator} {left right left' right' : Expr} {ty : Ty}

/-- If one operand of arithmetic is a number, then so are the other one and the operation. -/
theorem BinaryOperator.Coherent.isNumber (h : op.Coherent returns left right ty)
    (hop : op.opClass = .arithmetic) (hleft : left.ty returns ≠ .any)
    (hright : right.ty returns ≠ .any)
    (hnumber : (left.ty returns).IsNumber ∨ (right.ty returns).IsNumber) :
    ((left.ty returns).IsNumber ∧ (right.ty returns).IsNumber) ∧ ty.IsNumber := by
  unfold BinaryOperator.Coherent at h
  rw [hop] at h
  obtain ⟨⟨_, _, hfits⟩, rfl⟩ := h
  have hiff := hfits.isNumber_iff hleft hright
  have hboth : (left.ty returns).IsNumber ∧ (right.ty returns).IsNumber := by
    rcases hnumber with hl | hr
    · exact ⟨hl, hiff.mp hl⟩
    · exact ⟨hiff.mpr hr, hr⟩
  exact ⟨hboth, Ty.promote_isNumber hboth.1 hboth.2⟩

/-- An operation whose operands are replaced by ones of the same kind leaves something of the same
kind. -/
theorem Expr.sameKind_operation (h : op.Coherent returns left right ty)
    (hleft : left.ty returns ≠ .any) (hright : right.ty returns ≠ .any)
    (hleft' : (left'.ty returns).SameKind (left.ty returns))
    (hright' : (right'.ty returns).SameKind (right.ty returns)) :
    ((simplifyOperation returns op left' right' ty).ty returns).SameKind ty := by
  -- Once there is a literal on one side of arithmetic, everything is a number.
  have hnumbers : op.opClass = .arithmetic →
      left'.isNumericLiteral = true ∨ right'.isNumericLiteral = true →
      ((left'.ty returns).IsNumber ∧ (right'.ty returns).IsNumber) ∧ ty.IsNumber := by
    intro hop hliteral
    have hnumber : (left.ty returns).IsNumber ∨ (right.ty returns).IsNumber := by
      rcases hliteral with hl | hr
      · exact Or.inl (hleft'.isNumber_iff.mp (isNumber_of_literal hl returns))
      · exact Or.inr (hright'.isNumber_iff.mp (isNumber_of_literal hr returns))
    obtain ⟨⟨hl, hr⟩, hty⟩ := h.isNumber hop hleft hright hnumber
    exact ⟨⟨hleft'.isNumber_iff.mpr hl, hright'.isNumber_iff.mpr hr⟩, hty⟩
  have hidentity :
      ((simplifyIdentity returns op left' right' ty).ty returns).SameKind ty := by
    generalize he : simplifyIdentity returns op left' right' ty = e
    have hcases := he ▸ identityLeft returns op left' right' ty
    cases hcases with
    | kept => exact .refl ty
    | left hop hliteral =>
      obtain ⟨⟨hl, _⟩, hty⟩ := hnumbers hop (Or.inr hliteral)
      exact Or.inr ⟨hl, hty⟩
    | right hop hliteral =>
      obtain ⟨⟨_, hr⟩, hty⟩ := hnumbers hop (Or.inl hliteral)
      exact Or.inr ⟨hr, hty⟩
    | negation hop hliteral =>
      obtain ⟨⟨_, hr⟩, hty⟩ := hnumbers (by rw [hop]; rfl) (Or.inl hliteral)
      exact Or.inr ⟨hr, hty⟩
    | int n hop hliteral => exact Or.inr ⟨Or.inl rfl, (hnumbers hop hliteral).2⟩
  rcases simplifyOperation_cases returns op left' right' ty with ⟨a, b, ha, _, hfold⟩ | ⟨_, heq⟩
  · rcases BinaryOperator.fold_ty hfold returns with ⟨hop, he⟩ | ⟨hop, he⟩
    · have hliteral := isNumericLiteral_of_ofExpr? ha
      exact Or.inr ⟨he, (hnumbers hop (Or.inl hliteral)).2⟩
    · unfold BinaryOperator.Coherent at h
      rw [hop] at h
      exact Or.inl (he.trans h.2.symm)
  · rw [heq]
    exact hidentity

end Operations

/-! ### Expressions -/

/-- What the operations among the nodes of a program are known to do: their types are those that
belong to them, and the operands of `and` and `or` are truth values. -/
structure WellOperated (returns : Returns) (nodes : List Node) : Prop where
  closed : Node.ClosedUnderParts nodes
  binary : ∀ {op left right ty}, .expr (.binary (.operator op) left right ty) ∈ nodes →
    op.Coherent returns left right ty
  unary : ∀ {op operand ty}, .expr (.unary (.operator op) operand ty) ∈ nodes →
    operand.isFunc = false → ty = operand.ty returns
  truthful : Truthful returns nodes

/-- A simplified expression has a type of the same kind. Only operations have to be looked into: all
other expressions keep their types. -/
theorem Expr.sameKind_simplify {returns : Returns} {nodes : List Node}
    (hnodes : WellOperated returns nodes) (e : Expr) (he : .expr e ∈ nodes)
    (hany : ∀ sub, .expr sub ∈ e.nodes → sub.ty returns ≠ .any) (hnames : NoTruthNames e.nodes) :
    ((e.simplify returns).ty returns).SameKind (e.ty returns) := by
  match e with
  | .int _ | .float _ | .string _ | .bool _ | .func _ | .emptyArray _ => exact .refl _
  | .var v =>
    rw [Expr.simplify_var returns (hnames v List.mem_cons_self)]
    exact .refl _
  | .array _ _ | .object _ | .subscript _ _ _ | .member _ _ _ | .call _ _ _
  | .binary (.intrinsic _) _ _ _ =>
    rw [Expr.simplify]
    exact .refl _
  | .unary head operand ty =>
    have hoperand : .expr operand ∈ nodes := hnodes.closed _ he operand List.mem_cons_self
    have ih := Expr.sameKind_simplify hnodes operand hoperand
      (fun sub hsub => hany sub (List.mem_cons_of_mem _ hsub)) hnames.tail
    rw [Expr.simplify]
    unfold simplifyUnary
    split
    next n hn =>
      have hnumber : (operand.ty returns).IsNumber :=
        ih.isNumber_iff.mp (isNumber_of_literal (isNumericLiteral_of_ofExpr? hn) returns)
      -- No literal is made of a function.
      have hfunc : operand.isFunc = false := by
        cases operand with
        | func f => rcases hnumber with hno | hno <;> cases hno
        | _ => rfl
      have hty : ty = operand.ty returns := hnodes.unary he hfunc
      exact Or.inr ⟨n.negate.expr_isNumber returns, hty ▸ hnumber⟩
    next => exact .refl ty
  | .binary (.operator op) left right ty =>
    have hleft : .expr left ∈ nodes := hnodes.closed _ he left (by simp [Node.children])
    have hright : .expr right ∈ nodes := hnodes.closed _ he right (by simp [Node.children])
    have hleftAny : left.ty returns ≠ .any :=
      hany left (List.mem_cons_of_mem _ (List.mem_append_left _ left.mem_nodes_self))
    have hrightAny : right.ty returns ≠ .any :=
      hany right (List.mem_cons_of_mem _ (List.mem_append_right _ right.mem_nodes_self))
    have ihleft := Expr.sameKind_simplify hnodes left hleft
      (fun sub hsub => hany sub (List.mem_cons_of_mem _ (List.mem_append_left _ hsub)))
      hnames.tail.left
    have ihright := Expr.sameKind_simplify hnodes right hright
      (fun sub hsub => hany sub (List.mem_cons_of_mem _ (List.mem_append_right _ hsub)))
      hnames.tail.right
    have hcoherent := hnodes.binary he
    by_cases hop : op.opClass = .logical
    · -- Both operands and the whole are truth values, whichever of them is left.
      have hty : ty = .boolean := by
        unfold BinaryOperator.Coherent at hcoherent
        rw [hop] at hcoherent
        exact hcoherent
      obtain ⟨hl, hr⟩ := hnodes.truthful op left right ty he hop
      have hl : left.ty returns = .boolean := hl.resolve_right hleftAny
      have hr : right.ty returns = .boolean := hr.resolve_right hrightAny
      rw [Expr.simplify]
      show Ty.SameKind _ ty
      rw [hl] at ihleft
      rw [hr] at ihright
      rw [hty]
      split
      · exact .refl _
      · exact ihleft
      · exact ihright
      · exact hty ▸ Expr.sameKind_operation hcoherent hleftAny hrightAny (hl ▸ ihleft)
          (hr ▸ ihright)
    · rw [Expr.simplify_operation hop]
      exact Expr.sameKind_operation hcoherent hleftAny hrightAny ihleft ihright

/-! ### Programs -/

/-- What an operation has to do with its operands does not depend on the results of functions, since
no operand is a function. -/
theorem BinaryOperator.Coherent.of_returns {op : BinaryOperator} {R : Returns} {left right : Expr}
    {ty : Ty} (h : op.Coherent R left right ty) (S : Returns) : op.Coherent S left right ty := by
  have hty : ∀ {e : Expr}, e.isFunc = false → e.ty R = e.ty S := by
    intro e he
    refine Expr.ty_eq_of_func (fun f hf => ?_)
    rw [hf] at he
    cases he
  unfold BinaryOperator.Coherent at *
  cases hop : op.opClass with
  | arithmetic =>
    rw [hop] at h
    obtain ⟨⟨hl, hr, hfits⟩, hresult⟩ := h
    exact ⟨⟨hl, hr, hty hl ▸ hty hr ▸ hfits⟩, hty hl ▸ hty hr ▸ hresult⟩
  | comparison =>
    rw [hop] at h
    obtain ⟨⟨hl, hr, hfits⟩, hresult⟩ := h
    exact ⟨⟨hl, hr, hty hl ▸ hty hr ▸ hfits⟩, hresult⟩
  | logical =>
    rw [hop] at h
    exact h

/-- In a program that is accepted strictly operations have the types that belong to them, and `and`
and `or` are on truth values. -/
theorem Program.wellOperated {tree : List Source.Stmt} {p : Program}
    (h : Source.lower .strict tree = .ok p) : WellOperated p.returns p.nodes where
  closed := Stmt.nodesList_closed p.body
  binary hmem := by
    obtain ⟨R, hcoherent, _⟩ := Program.formed h _ hmem
    exact BinaryOperator.Coherent.of_returns hcoherent p.returns
  unary hmem hfunc := by
    obtain ⟨R, hcoherent, _⟩ := Program.formed h _ hmem
    have hty : _ = Expr.ty R _ := hcoherent
    rw [hty]
    refine Expr.ty_eq_of_func (fun f hf => ?_)
    rw [hf] at hfunc
    cases hfunc
  truthful := by
    obtain ⟨last, session, hlowered, _⟩ := passageLowered_of_program h
    exact hlowered.truthful p.returns

/-- In a program that was read strictly, a simplified expression has the type that it had before, or
it was a number and is one still. This is so of every expression in which nothing has the type `any`
and no variable has the name of a truth value. -/
theorem Program.ty_simplify {tree : List Source.Stmt} {p : Program}
    (h : Source.lower .strict tree = .ok p) {e : Expr} (he : .expr e ∈ p.nodes)
    (hany : ∀ sub, .expr sub ∈ e.nodes → sub.ty p.returns ≠ .any)
    (hnames : ∀ v : Var, .expr (.var v) ∈ e.nodes → v.name ≠ "true" ∧ v.name ≠ "false") :
    ((e.simplify p.returns).ty p.returns).SameKind (e.ty p.returns) :=
  Expr.sameKind_simplify (Program.wellOperated h) e he hany hnames

namespace Disc

open Source (mention number declare)

/-- `hand small = π * 0 < 1 and true`. -/
def source : List Source.Stmt :=
  [declare "small"
    (.binary .none .and
      (.binary .none .less (.binary .none .multiply (mention "π") (number 0)) (number 1))
      (.bool .none true))]

def pi : Var := ⟨0, "π", .readOnly, .float⟩

def product : Expr := .binary (.operator .multiply) (.var pi) (.int 0) .float

def test : Expr :=
  .binary (.operator .and) (.binary (.operator .less) product (.int 1) .boolean) (.bool true)
    .boolean

def typed : Program := ⟨[.declareVar ⟨14, "small", .mutable, .boolean⟩ test], []⟩

/-- The product is a float and leaves an integer, while the test around it remains a truth value. -/
theorem ty_simplify_disc : Source.lower .strict source = .ok typed ∧
    product.ty [] = .float ∧ (product.simplify []).ty [] = .int ∧
    ((product.simplify []).ty []).SameKind (product.ty []) ∧
    ((test.simplify []).ty []).SameKind (test.ty []) := by
  have hlower : Source.lower .strict source = .ok typed := rfl
  have hpart : ∀ x ∈ product.nodes, x ∈ test.nodes := by
    intro x hx
    simp [test, Expr.nodes, hx]
  have hany : ∀ sub, .expr sub ∈ test.nodes → sub.ty [] ≠ .any := by
    simp only [test, product, Expr.nodes, List.cons_append, List.nil_append, List.mem_cons,
      Node.expr.injEq, List.not_mem_nil, or_false]
    rintro sub (rfl | rfl | rfl | rfl | rfl | rfl | rfl) <;> intro h <;> cases h
  have hnames : ∀ v : Var, .expr (.var v) ∈ test.nodes → v.name ≠ "true" ∧ v.name ≠ "false" := by
    intro v hv
    simp only [test, product, Expr.nodes, List.cons_append, List.nil_append, List.mem_cons,
      Node.expr.injEq, reduceCtorEq, Expr.var.injEq, List.not_mem_nil, false_or, or_false] at hv
    rw [hv]
    decide
  have hmem : ∀ x ∈ test.nodes, x ∈ typed.nodes := by
    intro x hx
    simp [Program.nodes, typed, Stmt.nodesList, Stmt.nodes, hx]
  exact ⟨hlower, rfl, rfl,
    Program.ty_simplify hlower (hmem _ (hpart _ product.mem_nodes_self))
      (fun sub hsub => hany sub (hpart _ hsub)) (fun v hv => hnames v (hpart _ hv)),
    Program.ty_simplify hlower (hmem _ test.mem_nodes_self) hany hnames⟩

end Disc

end Croupier
