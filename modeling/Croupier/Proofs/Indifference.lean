import Croupier.Proofs.Rewording
import Croupier.Proofs.Simplified

/-!
# What names and places do not change

Compiling a program in other words. `Source.lower_matched` follows the two runs of lowering; here
the other half is added, which is that simplifying commutes with a change of names
(`Program.rename_simplify`). Simplifying looks at names in one place only, where it takes variables
called `true` and `false` for the truth values, and a `Renaming` leaves these alone. All else that
it asks of an expression is whether it is a literal, or which entity it denotes.

Two laws follow. In the one only names change, in the other only places.

> `compile_rename`: a program under other names compiles to the same program under other names, or
> is refused for the same reason at the same place.

> `compile_place_indifferent`: programs that differ in places only compile to one and the same
> program, or are refused for the same reason.
-/

namespace Croupier

/-! ### Simplifying expressions -/

section Parts

variable (r : String → String)

/-- Renaming does not change which expressions are numbers. -/
theorem Numeral.ofExpr?_rename (e : Expr) : ofExpr? (e.rename r) = ofExpr? e := by
  cases e <;> rfl

theorem Expr.isZero_rename (e : Expr) : (e.rename r).isZero = e.isZero := by
  rw [isZero, isZero, Numeral.ofExpr?_rename]

theorem Expr.isOne_rename (e : Expr) : (e.rename r).isOne = e.isOne := by
  rw [isOne, isOne, Numeral.ofExpr?_rename]

/-- There are no names in a literal. -/
theorem Expr.Literal.rename_eq {e : Expr} (h : e.Literal) : e.rename r = e := by
  cases h <;> rfl

theorem Numeral.rename_expr (n : Numeral) : n.expr.rename r = n.expr := by
  cases n <;> rfl

/-- Short circuits look at literals only, and these have no names. -/
theorem shortCircuit?_rename (op : BinaryOperator) (left right : Expr) :
    shortCircuit? op (left.rename r) (right.rename r) = shortCircuit? op left right := by
  unfold shortCircuit?
  cases op.absorbing? with
  | none => rfl
  | some absorbing => cases left <;> cases right <;> rfl

theorem Expr.rename_negation (returns : Returns) (operand : Expr) :
    (Expr.negation returns operand).rename r = Expr.negation returns (operand.rename r) := by
  rw [negation, rename, negation, ty_rename]

/-- Identities of operators are applied to renamed operands alike. -/
theorem rename_simplifyIdentity (returns : Returns) (op : BinaryOperator) (left right : Expr)
    (ty : Ty) :
    (simplifyIdentity returns op left right ty).rename r =
      simplifyIdentity returns op (left.rename r) (right.rename r) ty := by
  cases op <;>
    simp only [simplifyIdentity, Expr.isZero_rename, Expr.isOne_rename, apply_ite (Expr.rename r),
      Expr.rename_negation, Expr.rename]

/-- Simplifying an operation commutes with renaming. -/
theorem rename_simplifyOperation (returns : Returns) (op : BinaryOperator) (left right : Expr)
    (ty : Ty) :
    (simplifyOperation returns op left right ty).rename r =
      simplifyOperation returns op (left.rename r) (right.rename r) ty := by
  unfold simplifyOperation
  rw [Numeral.ofExpr?_rename, Numeral.ofExpr?_rename, ← rename_simplifyIdentity]
  split
  · next a b _ _ =>
    cases hfold : op.fold a b with
    | some e => exact (BinaryOperator.fold_literal hfold).rename_eq r
    | none => rfl
  · rfl

/-- The same for an operation with one operand. -/
theorem rename_simplifyUnary (head : UnaryHead) (operand : Expr) (ty : Ty) :
    (simplifyUnary head operand ty).rename r = simplifyUnary head (operand.rename r) ty := by
  unfold simplifyUnary
  rw [Numeral.ofExpr?_rename]
  split
  · exact Numeral.rename_expr r _
  · rfl

/-- References are compared by numbers, which renaming keeps. -/
theorem Expr.sameReference_rename (d e : Expr) :
    (d.rename r).sameReference (e.rename r) = d.sameReference e := by
  cases d <;> cases e <;> rfl

end Parts

section Simplify

variable (r : Renaming) (returns : Returns)

/-- Variables are taken for truth values exactly if they were before. -/
theorem Expr.rename_simplify_var (v : Var) :
    ((Expr.var v).simplify returns).rename r.name =
      (Expr.var (v.rename r.name)).simplify returns := by
  have htrue : (r.name v.name == "true") = (v.name == "true") := by
    rw [Bool.eq_iff_iff, beq_iff_eq, beq_iff_eq, r.eq_of_fixed r.truth]
  have hfalse : (r.name v.name == "false") = (v.name == "false") := by
    rw [Bool.eq_iff_iff, beq_iff_eq, beq_iff_eq, r.eq_of_fixed r.falsity]
  simp only [Expr.simplify, Var.rename, htrue, hfalse, apply_ite (Expr.rename r.name), Expr.rename]

mutual

/-- Renaming commutes with simplifying an expression. A mention is the one case in which names
count: a renaming keeps the names of truth values apart from all others. -/
theorem Expr.rename_simplify (e : Expr) :
    (e.simplify returns).rename r.name = (e.rename r.name).simplify returns := by
  match e with
  | .int _ | .float _ | .string _ | .bool _ | .func _ | .emptyArray _ =>
    simp only [Expr.simplify, Expr.rename]
  | .var v => exact Expr.rename_simplify_var r returns v
  | .array items ty =>
    simp only [Expr.simplify, Expr.rename, Expr.rename_simplifyList items]
  | .object members =>
    simp only [Expr.simplify, Expr.rename, Expr.rename_simplifyMembers members]
  | .binary (.intrinsic i) left right ty =>
    simp only [Expr.simplify, Expr.rename, Expr.rename_simplify left, Expr.rename_simplify right]
  | .binary (.operator op) left right ty =>
    have hleft := Expr.rename_simplify left
    have hright := Expr.rename_simplify right
    simp only [Expr.rename, Expr.simplify, shortCircuit?_rename]
    -- The operands decide before they are simplified, and so do the renamed ones.
    split
    · rfl
    · exact hleft
    · exact hright
    · rw [rename_simplifyOperation, hleft, hright]
  | .unary head operand ty =>
    simp only [Expr.simplify, Expr.rename, rename_simplifyUnary, Expr.rename_simplify operand]
  | .subscript base index ty =>
    simp only [Expr.simplify, Expr.rename, Expr.rename_simplify base, Expr.rename_simplify index]
  | .member base field ty =>
    simp only [Expr.simplify, Expr.rename, Expr.rename_simplify base]
  | .call callee args ty =>
    simp only [Expr.simplify, Expr.rename, Expr.rename_simplifyList args]

theorem Expr.rename_simplifyList (es : List Expr) :
    Expr.renameList r.name (Expr.simplifyList returns es) =
      Expr.simplifyList returns (Expr.renameList r.name es) := by
  match es with
  | [] => rfl
  | e :: es =>
    simp only [Expr.simplifyList, Expr.renameList, Expr.rename_simplify e,
      Expr.rename_simplifyList es]

theorem Expr.rename_simplifyMembers (ms : List (String × Expr)) :
    Expr.renameMembers r.name (Expr.simplifyMembers returns ms) =
      Expr.simplifyMembers returns (Expr.renameMembers r.name ms) := by
  match ms with
  | [] => rfl
  | (key, e) :: ms =>
    simp only [Expr.simplifyMembers, Expr.renameMembers, Expr.rename_simplify e,
      Expr.rename_simplifyMembers ms]

end

end Simplify

/-! ### Simplifying statements -/

section Parts

variable (r : String → String)

theorem Stmt.renameList_append (ss ts : List Stmt) :
    Stmt.renameList r (ss ++ ts) = Stmt.renameList r ss ++ Stmt.renameList r ts := by
  induction ss with
  | nil => rfl
  | cons s ss ih => rw [List.cons_append, renameList, ih, renameList, List.cons_append]

/-- An assignment of a variable to itself is one under any names. -/
theorem rename_simplifyAssign (target source : Expr) :
    Stmt.renameList r (simplifyAssign target source) =
      simplifyAssign (target.rename r) (source.rename r) := by
  unfold simplifyAssign
  rw [Expr.sameReference_rename]
  split <;> rfl

/-- Which arm of an `if` is taken does not depend on names. -/
theorem rename_simplifyBranch (test : Expr) (body : List Stmt) (orElse : Else) :
    Stmt.renameList r (simplifyBranch test body orElse) =
      simplifyBranch (test.rename r) (Stmt.renameList r body) (orElse.rename r) := by
  cases test with
  | bool value => cases value <;> cases orElse <;> rfl
  | _ => rfl

/-- The same for an `if` without further arms. -/
theorem rename_simplifyShortBranch (test : Expr) (body : List Stmt) :
    Stmt.renameList r (simplifyShortBranch test body) =
      simplifyShortBranch (test.rename r) (Stmt.renameList r body) := by
  cases test with
  | bool value => cases value <;> rfl
  | _ => rfl

/-- Whether statements are read as further arms does not depend on names. -/
theorem Else.rename_ofList (body : List Stmt) :
    (Else.ofList body).rename r = Else.ofList (Stmt.renameList r body) := by
  match body with
  | [] => rfl
  | [s] | s :: _ :: _ => cases s <;> rfl

/-- Whether a `while` disappears does not depend on names. -/
theorem rename_simplifyWhile (test : Expr) (body : List Stmt) :
    Stmt.renameList r (simplifyWhile test body) =
      simplifyWhile (test.rename r) (Stmt.renameList r body) := by
  cases test with
  | bool value => cases value <;> rfl
  | _ => rfl

/-- Nor whether a loop over a collection does. -/
theorem rename_simplifyForEach (iterator : Var) (collection : Expr) (body : List Stmt) :
    Stmt.renameList r (simplifyForEach iterator collection body) =
      simplifyForEach (iterator.rename r) (collection.rename r) (Stmt.renameList r body) := by
  cases collection <;> rfl

/-- Nor whether a turn does, whose bounds are compared as numbers. -/
theorem rename_simplifyForTurn (iterator : Var) (low high step : Expr) (direction : Direction)
    (body : List Stmt) :
    Stmt.renameList r (simplifyForTurn iterator low high step direction body) =
      simplifyForTurn (iterator.rename r) (low.rename r) (high.rename r) (step.rename r) direction
        (Stmt.renameList r body) := by
  have hover : turnIsOver direction (low.rename r) (high.rename r) =
      turnIsOver direction low high := by
    rw [turnIsOver, turnIsOver, Numeral.ofExpr?_rename, Numeral.ofExpr?_rename]
  unfold simplifyForTurn
  rw [hover]
  split <;> rfl

end Parts

section Simplify

variable (r : Renaming) (returns : Returns)

mutual

/-- Renaming commutes with simplifying a statement. -/
theorem Stmt.rename_simplify (s : Stmt) :
    Stmt.renameList r.name (s.simplify returns) = (s.rename r.name).simplify returns := by
  match s with
  | .breakLoop | .returnNone => rfl
  | .declareVar _ e | .bump _ e | .call e | .returnValue e =>
    simp only [Stmt.simplify, Stmt.rename, Stmt.renameList, e.rename_simplify r returns]
  | .declareFunc f body =>
    simp only [Stmt.simplify, Stmt.rename, Stmt.renameList, Stmt.rename_simplifyList body]
  | .assign target source =>
    simp only [Stmt.simplify, Stmt.rename, rename_simplifyAssign, Expr.rename_simplify]
  | .branch test body orElse =>
    simp only [Stmt.simplify, Stmt.rename, rename_simplifyBranch, Expr.rename_simplify,
      Stmt.rename_simplifyList body, Else.rename_simplify orElse]
  | .shortBranch test body =>
    simp only [Stmt.simplify, Stmt.rename, rename_simplifyShortBranch, Expr.rename_simplify,
      Stmt.rename_simplifyList body]
  | .whileLoop test body =>
    simp only [Stmt.simplify, Stmt.rename, rename_simplifyWhile, Expr.rename_simplify,
      Stmt.rename_simplifyList body]
  | .forEach iterator collection body =>
    simp only [Stmt.simplify, Stmt.rename, rename_simplifyForEach, Expr.rename_simplify,
      Stmt.rename_simplifyList body]
  | .forTurn iterator low high step direction body =>
    simp only [Stmt.simplify, Stmt.rename, rename_simplifyForTurn, Expr.rename_simplify,
      Stmt.rename_simplifyList body]

theorem Else.rename_simplify (orElse : Else) :
    (orElse.simplify returns).rename r.name = (orElse.rename r.name).simplify returns := by
  match orElse with
  | .elseIf test body rest =>
    simp only [Else.simplify, Else.rename, Else.rename_ofList, rename_simplifyBranch,
      Expr.rename_simplify, Stmt.rename_simplifyList body, Else.rename_simplify rest]
  | .block body => simp only [Else.simplify, Else.rename, Stmt.rename_simplifyList body]

theorem Stmt.rename_simplifyList (ss : List Stmt) :
    Stmt.renameList r.name (Stmt.simplifyList returns ss) =
      Stmt.simplifyList returns (Stmt.renameList r.name ss) := by
  match ss with
  | [] => rfl
  | s :: ss =>
    rw [Stmt.simplifyList, Stmt.renameList, Stmt.simplifyList, Stmt.renameList_append,
      Stmt.rename_simplify s, Stmt.rename_simplifyList ss]

end

/-- Simplifying commutes with a change of names. -/
theorem Program.rename_simplify (p : Program) :
    (p.simplify).rename r.name = (p.rename r.name).simplify :=
  congrArg (Program.mk · p.returns) (Stmt.rename_simplifyList r p.returns p.body)

end Simplify

/-- Compiling a program and the same program in other words. -/
theorem compile_matched (ρ : Rewording) (strictness : Strictness) (tree : List Source.Stmt) :
    Matched ρ (Program.rename ρ.name) (compile strictness tree)
      (compile strictness (Source.reword ρ tree)) :=
  (Source.lower_matched ρ strictness tree).map (fun p => (p.rename_simplify ρ.toRenaming).symm)

/-! ### Names -/

/-- A program under other names, every place staying as it is. -/
def Source.rename (r : Renaming) (tree : List Source.Stmt) : List Source.Stmt :=
  Source.reword ⟨r, id⟩ tree

/-- Names are no more than names. A program under other names compiles exactly if it did before,
and then to the same program under other names. Otherwise it is refused at the same place for the
same reason, which may mention names. -/
theorem compile_rename (r : Renaming) (strictness : Strictness) (tree : List Source.Stmt) :
    (∀ q', compile strictness (Source.rename r tree) = .ok q' ↔
      ∃ q, compile strictness tree = .ok q ∧ q' = q.rename r.name) ∧
    (∀ cause span, compile strictness tree = .error ⟨cause, span⟩ →
      ∃ cause', compile strictness (Source.rename r tree) = .error ⟨cause', span⟩ ∧
        (cause' = cause.rename r.name ∨ cause = .nameless ∧ cause' = .nameless)) := by
  have hruns := compile_matched ⟨r, id⟩ strictness tree
  rw [show Source.reword ⟨r, id⟩ tree = Source.rename r tree from rfl] at hruns
  generalize compile strictness tree = x at hruns ⊢
  generalize compile strictness (Source.rename r tree) = y at hruns ⊢
  cases hruns with
  | ok p =>
    refine ⟨fun q' => ⟨fun h => ?_, ?_⟩, fun cause span h => nomatch h⟩
    · exact ⟨p, rfl, (Except.ok.inj h).symm⟩
    · rintro ⟨q, hq, rfl⟩
      cases hq
      rfl
  | error h =>
    refine ⟨fun q' => ⟨nofun, fun ⟨q, hq, _⟩ => nomatch hq⟩, ?_⟩
    intro cause span hfault
    cases hfault
    cases h with
    | named => exact ⟨cause.rename r.name, by rw [Option.map_id, id], Or.inl rfl⟩
    | nameless => exact ⟨.nameless, by rw [Option.map_id, id], Or.inr ⟨rfl, rfl⟩⟩

namespace Swap

open Source (label mention number declare)

/-- Lets `x` and `y` change places. -/
def swap : Renaming where
  name n := if n = "x" then "y" else if n = "y" then "x" else n
  injective := by
    intro m n h
    grind
  library := by decide
  truth := rfl
  falsity := rfl

/-- `deal sqrt(x) { return x }  hand y = sqrt(4) + ln(1 + 1)`: the one intrinsic is hidden and the
other is not. -/
def hidden : List Source.Stmt :=
  [.declareFunc .none (label "sqrt") [⟨label "x", some [.int]⟩] .none none
      [.returnValue .none (mention "x")],
    declare "y" (.binary .none .add (.call .none (mention "sqrt") [number 4])
      (.call .none (mention "ln") [.binary .none .add (number 1) (number 1)]))]

def x : Var := ⟨15, "x", .readOnly, .int⟩

def sqrt : Func := ⟨14, "sqrt", .declared [x] none⟩

def compiled : Program :=
  ⟨[.declareFunc sqrt [.returnValue (.var x)],
    .declareVar ⟨16, "y", .mutable, .float⟩ (.binary (.operator .add) (.call sqrt [.int 4] .int)
      (.unary (.intrinsic .ln) (.int 2) .float) .float)], [(14, .int)]⟩

/-- `hand x = y`. -/
def dangling : List Source.Stmt := [declare "x" (.ident ⟨9, 10⟩ ⟨"y", ⟨9, 10⟩⟩)]

theorem compile_rename_swap :
    compile .lenient (Source.rename swap hidden) = .ok (compiled.rename swap.name) ∧
    compile .lenient dangling = .error ⟨.undeclared "y", some ⟨9, 10⟩⟩ ∧
    ∃ cause', compile .lenient (Source.rename swap dangling) = .error ⟨cause', some ⟨9, 10⟩⟩ ∧
      (cause' = .undeclared "x" ∨ .undeclared "y" = Cause.nameless ∧ cause' = .nameless) :=
  have hpasses : compile .lenient hidden = .ok compiled := rfl
  have hfails : compile .lenient dangling = .error ⟨.undeclared "y", some ⟨9, 10⟩⟩ := rfl
  ⟨((compile_rename swap .lenient hidden).1 _).mpr ⟨compiled, hpasses, rfl⟩, hfails,
    (compile_rename swap .lenient dangling).2 _ _ hfails⟩

end Swap

/-! ### Places -/

theorem Func.rename_identity (f : Func) : f.rename Renaming.identity.name = f := by
  obtain ⟨id, name, origin⟩ := f
  cases origin with
  | declared params ascribed =>
    exact congrArg (fun ps => Func.mk id name (.declared ps ascribed)) (List.map_id' params)
  | intrinsic | variadic => rfl

mutual

/-- The renaming that keeps all names changes no expression. -/
theorem Expr.rename_identity (e : Expr) : e.rename Renaming.identity.name = e := by
  match e with
  | .int _ | .float _ | .string _ | .bool _ | .var _ | .emptyArray _ => rfl
  | .func f => exact congrArg Expr.func f.rename_identity
  | .array items ty => rw [Expr.rename, Expr.renameList_identity items]
  | .object members => rw [Expr.rename, Expr.renameMembers_identity members]
  | .binary head left right ty =>
    rw [Expr.rename, Expr.rename_identity left, Expr.rename_identity right]
  | .unary head operand ty => rw [Expr.rename, Expr.rename_identity operand]
  | .subscript base index ty =>
    rw [Expr.rename, Expr.rename_identity base, Expr.rename_identity index]
  | .member base field ty => rw [Expr.rename, Expr.rename_identity base]
  | .call callee args ty => rw [Expr.rename, Expr.renameList_identity args, callee.rename_identity]

theorem Expr.renameList_identity (es : List Expr) :
    Expr.renameList Renaming.identity.name es = es := by
  match es with
  | [] => rfl
  | e :: es => rw [Expr.renameList, Expr.rename_identity e, Expr.renameList_identity es]

theorem Expr.renameMembers_identity (ms : List (String × Expr)) :
    Expr.renameMembers Renaming.identity.name ms = ms := by
  match ms with
  | [] => rfl
  | (key, e) :: ms =>
    rw [Expr.renameMembers, Expr.rename_identity e, Expr.renameMembers_identity ms]

end

theorem Var.rename_identity (v : Var) : v.rename Renaming.identity.name = v := rfl

mutual

/-- The renaming that keeps all names changes no statement. -/
theorem Stmt.rename_identity (s : Stmt) : s.rename Renaming.identity.name = s := by
  match s with
  | .breakLoop | .returnNone => rfl
  | .declareVar _ e | .bump _ e | .call e | .returnValue e =>
    simp only [Stmt.rename, Var.rename_identity, Expr.rename_identity]
  | .assign target source => simp only [Stmt.rename, Expr.rename_identity]
  | .declareFunc f body =>
    simp only [Stmt.rename, Func.rename_identity, Stmt.renameList_identity body]
  | .branch test body orElse =>
    simp only [Stmt.rename, Expr.rename_identity, Stmt.renameList_identity body,
      Else.rename_identity orElse]
  | .shortBranch _ body | .whileLoop _ body | .forEach _ _ body | .forTurn _ _ _ _ _ body =>
    simp only [Stmt.rename, Var.rename_identity, Expr.rename_identity,
      Stmt.renameList_identity body]

theorem Else.rename_identity (orElse : Else) : orElse.rename Renaming.identity.name = orElse := by
  match orElse with
  | .elseIf test body rest =>
    simp only [Else.rename, Expr.rename_identity, Stmt.renameList_identity body,
      Else.rename_identity rest]
  | .block body => simp only [Else.rename, Stmt.renameList_identity body]

theorem Stmt.renameList_identity (ss : List Stmt) :
    Stmt.renameList Renaming.identity.name ss = ss := by
  match ss with
  | [] => rfl
  | s :: ss => rw [Stmt.renameList, Stmt.rename_identity s, Stmt.renameList_identity ss]

end

/-- So it changes no program. -/
theorem Program.rename_identity (p : Program) : p.rename Renaming.identity.name = p :=
  congrArg (Program.mk · p.returns) (Stmt.renameList_identity p.body)

theorem Cause.rename_identity (cause : Cause) : cause.rename Renaming.identity.name = cause := by
  cases cause with
  | recursionNeedsParams function params =>
    exact congrArg (recursionNeedsParams function) (List.map_id params)
  | _ => rfl

/-- A program with every place wiped out. Programs differ in places only if this makes them
equal. -/
def Source.unplaced (tree : List Source.Stmt) : List Source.Stmt :=
  Source.reword ⟨.identity, fun _ => .none⟩ tree

/-- Places do not matter: without them a source compiles to the same program, or it is refused for
the same cause. -/
theorem compile_unplaced (strictness : Strictness) (tree : List Source.Stmt) :
    (compile strictness (Source.unplaced tree)).mapError Fault.cause =
      (compile strictness tree).mapError Fault.cause := by
  have hruns := compile_matched ⟨.identity, fun _ => .none⟩ strictness tree
  rw [show Source.reword _ tree = Source.unplaced tree from rfl] at hruns
  generalize compile strictness tree = x at hruns ⊢
  generalize compile strictness (Source.unplaced tree) = y at hruns ⊢
  cases hruns with
  | ok p => exact congrArg Except.ok p.rename_identity
  | error h =>
    cases h with
    | named cause => exact congrArg Except.error cause.rename_identity
    | nameless => rfl

/-- Places are never looked at. Programs that differ in places only compile to the same program, or
are refused for the same reason in all its details, whichever way `and` and `or` are taken. -/
theorem compile_place_indifferent (strictness : Strictness) {t u : List Source.Stmt}
    (h : Source.unplaced t = Source.unplaced u) :
    (compile strictness t).mapError Fault.cause = (compile strictness u).mapError Fault.cause := by
  rw [← compile_unplaced strictness t, h, compile_unplaced strictness u]

namespace Margin

/-- `deal f(n) -> Int { return f(n) }`, with `margin` bytes in front of it. -/
def source (margin : Nat) : List Source.Stmt :=
  let place (start stop : Nat) : Span := ⟨margin + start, margin + stop⟩
  [.declareFunc (place 0 32) ⟨"f", place 5 6⟩ [⟨⟨"n", place 7 8⟩, none⟩] (place 6 9) (some [.int])
    [.returnValue (place 19 30)
      (.call (place 26 30) (.ident (place 26 27) ⟨"f", place 26 27⟩)
        [.ident (place 28 29) ⟨"n", place 28 29⟩])]]

/-- The parameter list moves with the margin, and that it lacks a type does not. -/
theorem compile_place_indifferent_margin :
    compile .strict (source 0) = .error ⟨.recursionNeedsParams "f" ["n"], some ⟨6, 9⟩⟩ ∧
    compile .strict (source 70) = .error ⟨.recursionNeedsParams "f" ["n"], some ⟨76, 79⟩⟩ ∧
    Source.unplaced (source 0) = Source.unplaced (source 70) ∧
    (compile .strict (source 0)).mapError Fault.cause =
      (compile .strict (source 70)).mapError Fault.cause :=
  have hsame : Source.unplaced (source 0) = Source.unplaced (source 70) := rfl
  ⟨rfl, rfl, hsame, compile_place_indifferent .strict hsame⟩

end Margin

end Croupier
