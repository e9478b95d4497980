import Croupier.Proofs.Simplified

/-!
# When one pass is enough

A second pass over a simplified program may still find something to do. `and` and `or` are decided
by operands that are not simplified yet, so a truth value that comes out of an operand is seen by
the next pass only. And zero minus an infinite float is not carried out but becomes the negation of
it, which the next pass does on the spot. Without floats and without `and` and `or` there is no such
thing, and a second pass changes nothing.

The argument goes by what a pass leaves behind. In a reduced phrase or passage (`PhraseReduced`,
`PassageReduced`) no rule of the pass applies anywhere. So whatever takes the place of something
else, an operand that of an operation, an arm that of its `if`, was reduced before and is still
reduced where it stands now.

> `PhraseReduced.simplify_eq`, `PassageReduced.kept`: a pass leaves what is reduced as it is.
>
> `Expr.reduced_simplify`, `PassageSimplified.reduced`: what a pass leaves is reduced.
>
> `Program.simplify_simplify`: a second pass changes nothing.
-/

namespace Croupier

/-- No float is written out here, and no truth values are combined. -/
def Node.Plain : Node → Prop
  | .expr (.float _) => False
  | .expr (.binary (.operator op) _ _ _) => op.opClass ≠ .logical
  | .expr _ | .stmt _ => True

/-! ### Reduced expressions -/

/-- A phrase without floats, `and` and `or`, in which a pass finds nothing to do. -/
inductive PhraseReduced : Phrase → Prop where
  | int (n : Int) : PhraseReduced (.expr (.int n))
  | string (s : String) : PhraseReduced (.expr (.string s))
  | bool (b : Bool) : PhraseReduced (.expr (.bool b))
  | func (f : Func) : PhraseReduced (.expr (.func f))
  | emptyArray (element : Ty) : PhraseReduced (.expr (.emptyArray element))
  | var {v : Var} (hname : v.name ≠ "true" ∧ v.name ≠ "false") : PhraseReduced (.expr (.var v))
  | operation {op : BinaryOperator} {left right : Expr} {ty : Ty} (hop : op.opClass ≠ .logical)
      (hfold : ∀ a b, Numeral.ofExpr? left = some a → Numeral.ofExpr? right = some b →
        op.fold a b = none)
      (hstays : op.Stays left right) (hleft : PhraseReduced (.expr left))
      (hright : PhraseReduced (.expr right)) :
    PhraseReduced (.expr (.binary (.operator op) left right ty))
  | intrinsicBinary {i : Intrinsic} {left right : Expr} {ty : Ty}
      (hleft : PhraseReduced (.expr left)) (hright : PhraseReduced (.expr right)) :
    PhraseReduced (.expr (.binary (.intrinsic i) left right ty))
  | unary {head : UnaryHead} {operand : Expr} {ty : Ty}
      (hsign : head = .operator .negate → Numeral.ofExpr? operand = none)
      (hoperand : PhraseReduced (.expr operand)) : PhraseReduced (.expr (.unary head operand ty))
  | subscript {base index : Expr} {ty : Ty} (hbase : PhraseReduced (.expr base))
      (hindex : PhraseReduced (.expr index)) : PhraseReduced (.expr (.subscript base index ty))
  | member {base : Expr} {field : String} {ty : Ty} (hbase : PhraseReduced (.expr base)) :
    PhraseReduced (.expr (.member base field ty))
  | call {callee : Func} {args : List Expr} {ty : Ty} (hargs : PhraseReduced (.list args)) :
    PhraseReduced (.expr (.call callee args ty))
  | array {items : List Expr} {ty : Ty} (hitems : PhraseReduced (.list items)) :
    PhraseReduced (.expr (.array items ty))
  | object {ms : List (String × Expr)} (hmembers : PhraseReduced (.members ms)) :
    PhraseReduced (.expr (.object ms))
  | listNil : PhraseReduced (.list [])
  | listCons {e : Expr} {es : List Expr} (hfirst : PhraseReduced (.expr e))
      (hrest : PhraseReduced (.list es)) : PhraseReduced (.list (e :: es))
  | membersNil : PhraseReduced (.members [])
  | membersCons {key : String} {e : Expr} {ms : List (String × Expr)}
      (hfirst : PhraseReduced (.expr e)) (hrest : PhraseReduced (.members ms)) :
    PhraseReduced (.members ((key, e) :: ms))

/-- A sign in front of anything but a number is left as it is, and so is any other operator. -/
theorem simplifyUnary_of_sign {head : UnaryHead} {operand : Expr}
    (h : head = .operator .negate → Numeral.ofExpr? operand = none) (ty : Ty) :
    simplifyUnary head operand ty = .unary head operand ty := by
  unfold simplifyUnary
  split
  next hn =>
    rw [h rfl] at hn
    cases hn
  next => rfl

/-- A pass leaves a reduced phrase as it is. -/
theorem PhraseReduced.simplify_eq {d : Phrase} (h : PhraseReduced d) (returns : Returns) :
    d.simplify returns = d := by
  induction h with
  | int | string | bool | func | emptyArray | listNil | membersNil => rfl
  | var hname =>
    rw [Phrase.simplify, Expr.simplify]
    simp [hname]
  | operation hop hfold hstays _ _ ihleft ihright =>
    rw [Phrase.simplify, Phrase.expr.injEq] at ihleft ihright
    rw [Phrase.simplify, Expr.simplify_operation hop, ihleft, ihright,
      simplifyOperation_of_stays hfold hstays]
  | intrinsicBinary _ _ ihleft ihright =>
    rw [Phrase.simplify, Phrase.expr.injEq] at ihleft ihright
    rw [Phrase.simplify, Expr.simplify, ihleft, ihright]
  | unary hsign _ ih =>
    rw [Phrase.simplify, Phrase.expr.injEq] at ih
    rw [Phrase.simplify, Expr.simplify, ih, simplifyUnary_of_sign hsign]
  | subscript _ _ ihbase ihindex =>
    rw [Phrase.simplify, Phrase.expr.injEq] at ihbase ihindex
    rw [Phrase.simplify, Expr.simplify, ihbase, ihindex]
  | member _ ih =>
    rw [Phrase.simplify, Phrase.expr.injEq] at ih
    rw [Phrase.simplify, Expr.simplify, ih]
  | call _ ih | array _ ih =>
    rw [Phrase.simplify, Phrase.list.injEq] at ih
    rw [Phrase.simplify, Expr.simplify, ih]
  | object _ ih =>
    rw [Phrase.simplify, Phrase.members.injEq] at ih
    rw [Phrase.simplify, Expr.simplify, ih]
  | listCons _ _ ihfirst ihrest =>
    rw [Phrase.simplify, Phrase.expr.injEq] at ihfirst
    rw [Phrase.simplify, Phrase.list.injEq] at ihrest
    rw [Phrase.simplify, Expr.simplifyList, ihfirst, ihrest]
  | membersCons _ _ ihfirst ihrest =>
    rw [Phrase.simplify, Phrase.expr.injEq] at ihfirst
    rw [Phrase.simplify, Phrase.members.injEq] at ihrest
    rw [Phrase.simplify, Expr.simplifyMembers, ihfirst, ihrest]

/-- A reduced expression is simplified to itself. -/
theorem PhraseReduced.simplify_expr {e : Expr} (h : PhraseReduced (.expr e)) (returns : Returns) :
    e.simplify returns = e :=
  Phrase.expr.inj (h.simplify_eq returns)

/-! ### What a pass leaves of an expression -/

/-- The numbers that are written out in a reduced expression are integers. -/
theorem PhraseReduced.ofExpr?_int {e : Expr} {n : Numeral} (h : PhraseReduced (.expr e))
    (hn : Numeral.ofExpr? e = some n) : ∃ i, n = .int i := by
  cases h with
  | int i =>
    cases hn
    exact ⟨i, rfl⟩
  | _ => cases hn

/-- What is taken for a number can be read as one. -/
theorem Expr.ofExpr?_of_isNumericLiteral {e : Expr} (h : e.isNumericLiteral = true) :
    ∃ n, Numeral.ofExpr? e = some n := by
  cases e with
  | int i => exact ⟨.int i, rfl⟩
  | float x => exact ⟨.float x, rfl⟩
  | _ => cases h

section Operations

variable {op : BinaryOperator} {left right : Expr}

/-- An operation on reduced operands that was not carried out leaves something reduced. What it may
make anew is a negation, and of a literal this would only be if zero minus it were not carried
out. -/
theorem PhraseReduced.identity (hleft : PhraseReduced (.expr left))
    (hright : PhraseReduced (.expr right)) (hop : op.opClass ≠ .logical)
    (hfold : ∀ a b, Numeral.ofExpr? left = some a → Numeral.ofExpr? right = some b →
      op.fold a b = none) (returns : Returns) (ty : Ty) :
    PhraseReduced (.expr (simplifyIdentity returns op left right ty)) := by
  generalize he : simplifyIdentity returns op left right ty = e
  have hcases := he ▸ identityLeft returns op left right ty
  cases hcases with
  | kept hstays => exact .operation hop hfold hstays hleft hright
  | left => exact hleft
  | right => exact hright
  | int n => exact .int n
  | negation hsub hzero =>
    refine .unary (fun _ => ?_) hright
    obtain ⟨a, ha⟩ := Expr.ofExpr?_of_isNumericLiteral hzero
    obtain ⟨i, rfl⟩ := hleft.ofExpr?_int ha
    cases hb : Numeral.ofExpr? right with
    | none => rfl
    | some b =>
      obtain ⟨j, rfl⟩ := hright.ofExpr?_int hb
      have hopen := hfold _ _ ha hb
      rw [hsub] at hopen
      cases hopen

/-- What is left of an operation on reduced operands is reduced. -/
theorem PhraseReduced.operation_left (hleft : PhraseReduced (.expr left))
    (hright : PhraseReduced (.expr right)) (hop : op.opClass ≠ .logical) (returns : Returns)
    (ty : Ty) : PhraseReduced (.expr (simplifyOperation returns op left right ty)) := by
  rcases simplifyOperation_cases returns op left right ty with
    ⟨a, b, ha, hb, hfold⟩ | ⟨hopen, heq⟩
  · obtain ⟨i, rfl⟩ := hleft.ofExpr?_int ha
    obtain ⟨j, rfl⟩ := hright.ofExpr?_int hb
    rcases BinaryOperator.foldInt_cases hfold with ⟨_, n, he⟩ | ⟨_, c, he⟩
    · rw [he]
      exact .int n
    · rw [he]
      exact .bool c
  · rw [heq]
    exact hleft.identity hright hop hopen returns ty

/-- The same for an operation with one operand. -/
theorem PhraseReduced.unary_left {head : UnaryHead} {operand : Expr}
    (h : PhraseReduced (.expr operand)) (ty : Ty) :
    PhraseReduced (.expr (simplifyUnary head operand ty)) := by
  unfold simplifyUnary
  split
  next n hn =>
    obtain ⟨i, rfl⟩ := h.ofExpr?_int hn
    exact .int (-i)
  next hopen =>
    refine .unary (fun hhead => ?_) h
    cases hn : Numeral.ofExpr? operand with
    | none => rfl
    | some n => exact (hopen n hhead hn).elim

end Operations

mutual

/-- What a pass leaves of a plain expression is reduced. -/
theorem Expr.reduced_simplify (returns : Returns) (e : Expr) (hplain : ∀ x ∈ e.nodes, x.Plain) :
    PhraseReduced (.expr (e.simplify returns)) := by
  match e with
  | .int n => exact .int n
  | .float x => exact (hplain _ (Expr.float x).mem_nodes_self).elim
  | .string s => exact .string s
  | .bool b => exact .bool b
  | .func f => exact .func f
  | .emptyArray element => exact .emptyArray element
  | .var v =>
    rw [Expr.simplify]
    split
    next => exact .bool true
    next htrue =>
      split
      next => exact .bool false
      next hfalse => exact .var ⟨by simpa using htrue, by simpa using hfalse⟩
  | .binary head left right ty =>
    simp only [Expr.nodes, List.forall_mem_cons, List.forall_mem_append] at hplain
    obtain ⟨hself, hleft, hright⟩ := hplain
    have hleft := Expr.reduced_simplify returns left hleft
    have hright := Expr.reduced_simplify returns right hright
    cases head with
    | intrinsic i =>
      rw [Expr.simplify]
      exact .intrinsicBinary hleft hright
    | operator op =>
      rw [Expr.simplify_operation hself]
      exact hleft.operation_left hright hself returns ty
  | .unary head operand ty =>
    simp only [Expr.nodes, List.forall_mem_cons] at hplain
    rw [Expr.simplify]
    exact (Expr.reduced_simplify returns operand hplain.2).unary_left ty
  | .subscript base index ty =>
    simp only [Expr.nodes, List.forall_mem_cons, List.forall_mem_append] at hplain
    obtain ⟨-, hbase, hindex⟩ := hplain
    rw [Expr.simplify]
    exact .subscript (Expr.reduced_simplify returns base hbase)
      (Expr.reduced_simplify returns index hindex)
  | .member base field ty =>
    simp only [Expr.nodes, List.forall_mem_cons] at hplain
    rw [Expr.simplify]
    exact .member (Expr.reduced_simplify returns base hplain.2)
  | .call callee args ty =>
    simp only [Expr.nodes, List.forall_mem_cons] at hplain
    rw [Expr.simplify]
    exact .call (Expr.reduced_simplifyList returns args hplain.2)
  | .array items ty =>
    simp only [Expr.nodes, List.forall_mem_cons] at hplain
    rw [Expr.simplify]
    exact .array (Expr.reduced_simplifyList returns items hplain.2)
  | .object members =>
    simp only [Expr.nodes, List.forall_mem_cons] at hplain
    rw [Expr.simplify]
    exact .object (Expr.reduced_simplifyMembers returns members hplain.2)

theorem Expr.reduced_simplifyList (returns : Returns) (es : List Expr)
    (hplain : ∀ x ∈ Expr.nodesList es, x.Plain) :
    PhraseReduced (.list (Expr.simplifyList returns es)) := by
  match es with
  | [] => exact .listNil
  | e :: es =>
    simp only [Expr.nodesList, List.forall_mem_append] at hplain
    rw [Expr.simplifyList]
    exact .listCons (Expr.reduced_simplify returns e hplain.1)
      (Expr.reduced_simplifyList returns es hplain.2)

theorem Expr.reduced_simplifyMembers (returns : Returns) (ms : List (String × Expr))
    (hplain : ∀ x ∈ Expr.nodesMembers ms, x.Plain) :
    PhraseReduced (.members (Expr.simplifyMembers returns ms)) := by
  match ms with
  | [] => exact .membersNil
  | (key, e) :: ms =>
    simp only [Expr.nodesMembers, List.forall_mem_append] at hplain
    rw [Expr.simplifyMembers]
    exact .membersCons (Expr.reduced_simplify returns e hplain.1)
      (Expr.reduced_simplifyMembers returns ms hplain.2)

end

/-! ### Reduced statements -/

/-- A passage without floats, `and` and `or`, in which a pass finds nothing to do. -/
inductive PassageReduced : Passage → Prop where
  | declareVar {v : Var} {init : Expr} (hinit : PhraseReduced (.expr init)) :
    PassageReduced (.stmt (.declareVar v init))
  | declareFunc {f : Func} {body : List Stmt} (hbody : PassageReduced (.block body)) :
    PassageReduced (.stmt (.declareFunc f body))
  | assign {target source : Expr} (hother : source.sameReference target = false)
      (htarget : PhraseReduced (.expr target)) (hsource : PhraseReduced (.expr source)) :
    PassageReduced (.stmt (.assign target source))
  | bump {op : BumpOperator} {target : Expr} (htarget : PhraseReduced (.expr target)) :
    PassageReduced (.stmt (.bump op target))
  | call {value : Expr} (hvalue : PhraseReduced (.expr value)) :
    PassageReduced (.stmt (.call value))
  | breakLoop : PassageReduced (.stmt .breakLoop)
  | returnValue {value : Expr} (hvalue : PhraseReduced (.expr value)) :
    PassageReduced (.stmt (.returnValue value))
  | returnNone : PassageReduced (.stmt .returnNone)
  | branch {test : Expr} {body : List Stmt} {orElse : Else} (hopen : ∀ b, test ≠ .bool b)
      (htest : PhraseReduced (.expr test)) (hbody : PassageReduced (.block body))
      (helse : PassageReduced (.arms orElse)) : PassageReduced (.stmt (.branch test body orElse))
  | shortBranch {test : Expr} {body : List Stmt} (hopen : ∀ b, test ≠ .bool b)
      (htest : PhraseReduced (.expr test)) (hbody : PassageReduced (.block body)) :
    PassageReduced (.stmt (.shortBranch test body))
  | whileLoop {test : Expr} {body : List Stmt} (hopen : test ≠ .bool false)
      (htest : PhraseReduced (.expr test)) (hbody : PassageReduced (.block body)) :
    PassageReduced (.stmt (.whileLoop test body))
  | forEach {iterator : Var} {collection : Expr} {body : List Stmt}
      (hopen : ∀ element, collection ≠ .emptyArray element)
      (hcollection : PhraseReduced (.expr collection)) (hbody : PassageReduced (.block body)) :
    PassageReduced (.stmt (.forEach iterator collection body))
  | forTurn {iterator : Var} {low high step : Expr} {direction : Direction} {body : List Stmt}
      (hopen : turnIsOver direction low high = false) (hlow : PhraseReduced (.expr low))
      (hhigh : PhraseReduced (.expr high)) (hstep : PhraseReduced (.expr step))
      (hbody : PassageReduced (.block body)) :
    PassageReduced (.stmt (.forTurn iterator low high step direction body))
  | elseIf {test : Expr} {body : List Stmt} {orElse : Else}
      (hbranch : PassageReduced (.stmt (.branch test body orElse))) :
    PassageReduced (.arms (.elseIf test body orElse))
  | block {body : List Stmt} (hbody : PassageReduced (.block body)) :
    PassageReduced (.arms (.block body))
  | nil : PassageReduced (.block [])
  | cons {s : Stmt} {ss : List Stmt} (hfirst : PassageReduced (.stmt s))
      (hrest : PassageReduced (.block ss)) : PassageReduced (.block (s :: ss))

/-- A pass leaves a passage as it is. -/
def Passage.Kept (returns : Returns) : Passage → Prop
  | .stmt s => s.simplify returns = [s]
  | .arms e => e.simplify returns = e
  | .block ss => Stmt.simplifyList returns ss = ss

/-- An `if` stays as it is as long as its test is open. -/
theorem simplifyBranch_of_open {test : Expr} (h : ∀ b, test ≠ .bool b) (body : List Stmt)
    (orElse : Else) : simplifyBranch test body orElse = [.branch test body orElse] := by
  unfold simplifyBranch
  split
  next => exact absurd rfl (h true)
  next => exact absurd rfl (h false)
  next => rfl

/-- So does an `if` without further arms. -/
theorem simplifyShortBranch_of_open {test : Expr} (h : ∀ b, test ≠ .bool b) (body : List Stmt) :
    simplifyShortBranch test body = [.shortBranch test body] := by
  unfold simplifyShortBranch
  split
  next => exact absurd rfl (h true)
  next => exact absurd rfl (h false)
  next => rfl

/-- A `while` stays unless its test is the literal `false`. -/
theorem simplifyWhile_of_open {test : Expr} (h : test ≠ .bool false) (body : List Stmt) :
    simplifyWhile test body = [.whileLoop test body] := by
  unfold simplifyWhile
  split
  next => exact absurd rfl h
  next => rfl

/-- A loop over a collection stays unless there is nothing in it. -/
theorem simplifyForEach_of_open {collection : Expr}
    (h : ∀ element, collection ≠ .emptyArray element) (iterator : Var) (body : List Stmt) :
    simplifyForEach iterator collection body = [.forEach iterator collection body] := by
  unfold simplifyForEach
  split
  next element => exact absurd rfl (h element)
  next => rfl

/-- A pass leaves a reduced passage as it is. -/
theorem PassageReduced.kept {d : Passage} (h : PassageReduced d) (returns : Returns) :
    d.Kept returns := by
  induction h with
  | declareVar hpart | bump hpart | call hpart | returnValue hpart =>
    rw [Passage.Kept, Stmt.simplify, hpart.simplify_expr returns]
  | breakLoop | returnNone | nil => rfl
  | declareFunc _ ih => rw [Passage.Kept, Stmt.simplify, ih]
  | assign hother htarget hsource =>
    rw [Passage.Kept, Stmt.simplify, htarget.simplify_expr returns, hsource.simplify_expr returns,
      simplifyAssign, hother]
    rfl
  | branch hopen htest _ _ ihbody ihelse =>
    rw [Passage.Kept, Stmt.simplify, htest.simplify_expr returns, ihbody, ihelse,
      simplifyBranch_of_open hopen]
  | shortBranch hopen htest _ ih =>
    rw [Passage.Kept, Stmt.simplify, htest.simplify_expr returns, ih,
      simplifyShortBranch_of_open hopen]
  | whileLoop hopen htest _ ih =>
    rw [Passage.Kept, Stmt.simplify, htest.simplify_expr returns, ih, simplifyWhile_of_open hopen]
  | forEach hopen hcollection _ ih =>
    rw [Passage.Kept, Stmt.simplify, hcollection.simplify_expr returns, ih,
      simplifyForEach_of_open hopen]
  | forTurn hopen hlow hhigh hstep _ ih =>
    rw [Passage.Kept, Stmt.simplify, hlow.simplify_expr returns, hhigh.simplify_expr returns,
      hstep.simplify_expr returns, ih, simplifyForTurn, hopen]
    rfl
  | elseIf _ ih =>
    -- Further arms are simplified as an `if` of their own.
    rw [Passage.Kept, Stmt.simplify] at ih
    rw [Passage.Kept, Else.simplify, ih]
    rfl
  | block _ ih => rw [Passage.Kept, Else.simplify, ih]
  | cons _ _ ihfirst ihrest =>
    rw [Passage.Kept, Stmt.simplifyList, ihfirst, ihrest]
    rfl

/-! ### What a pass leaves of statements -/

namespace PassageReduced

theorem single {s : Stmt} (h : PassageReduced (.stmt s)) : PassageReduced (.block [s]) :=
  .cons h .nil

/-- Reduced statements that follow each other are reduced together. -/
theorem append {ss ts : List Stmt} (hs : PassageReduced (.block ss))
    (ht : PassageReduced (.block ts)) : PassageReduced (.block (ss ++ ts)) := by
  induction ss with
  | nil => exact ht
  | cons s ss ih =>
    cases hs with
    | cons hfirst hrest => exact .cons hfirst (ih hrest)

/-- Arms that stand in the place of their `if`. -/
theorem statements {e : Else} (h : PassageReduced (.arms e)) :
    PassageReduced (.block e.statements) := by
  cases h with
  | elseIf hbranch => exact hbranch.single
  | block hbody => exact hbody

/-- Statements that are put back behind an arm. -/
theorem ofList {ss : List Stmt} (h : PassageReduced (.block ss)) :
    PassageReduced (.arms (Else.ofList ss)) := by
  unfold Else.ofList
  split
  next =>
    cases h with
    | cons hfirst _ => exact .elseIf hfirst
  next => exact .block h

end PassageReduced

/-- What a pass leaves of a plain passage is reduced. -/
theorem PassageSimplified.reduced {returns : Returns} {d d' : Passage}
    (h : PassageSimplified returns d d') (hplain : ∀ x ∈ d.nodes, x.Plain) :
    PassageReduced d' := by
  have hexpr := Expr.reduced_simplify returns
  induction h with
  | breakLoop => exact .single .breakLoop
  | returnNone => exact .single .returnNone
  | assignSelf | shortPassed | whileNever | forEachNever | forTurnNever | nil => exact .nil
  | declareVar =>
    simp only [Passage.nodes, Stmt.nodes, List.forall_mem_cons] at hplain
    exact .single (.declareVar (hexpr _ hplain.2))
  | bump =>
    simp only [Passage.nodes, Stmt.nodes, List.forall_mem_cons] at hplain
    exact .single (.bump (hexpr _ hplain.2))
  | call =>
    simp only [Passage.nodes, Stmt.nodes, List.forall_mem_cons] at hplain
    exact .single (.call (hexpr _ hplain.2))
  | returnValue =>
    simp only [Passage.nodes, Stmt.nodes, List.forall_mem_cons] at hplain
    exact .single (.returnValue (hexpr _ hplain.2))
  | declareFunc _ ih =>
    simp only [Passage.nodes, Stmt.nodes, List.forall_mem_cons] at hplain
    exact .single (.declareFunc (ih hplain.2))
  | assign hother =>
    simp only [Passage.nodes, Stmt.nodes, List.forall_mem_cons, List.forall_mem_append] at hplain
    obtain ⟨-, htarget, hsource⟩ := hplain
    exact .single (.assign hother (hexpr _ htarget) (hexpr _ hsource))
  | branch hopen _ _ ihbody ihelse =>
    simp only [Passage.nodes, Stmt.nodes, List.forall_mem_cons, List.forall_mem_append] at hplain
    obtain ⟨-, ⟨htest, hbody⟩, helse⟩ := hplain
    exact .single (.branch hopen (hexpr _ htest) (ihbody hbody) (ihelse helse))
  | branchTaken _ _ ih =>
    simp only [Passage.nodes, Stmt.nodes, List.forall_mem_cons, List.forall_mem_append] at hplain
    obtain ⟨-, ⟨-, hbody⟩, -⟩ := hplain
    exact ih hbody
  | branchPassed _ _ ih =>
    simp only [Passage.nodes, Stmt.nodes, List.forall_mem_cons, List.forall_mem_append] at hplain
    obtain ⟨-, -, helse⟩ := hplain
    exact (ih helse).statements
  | shortBranch hopen _ ih =>
    simp only [Passage.nodes, Stmt.nodes, List.forall_mem_cons, List.forall_mem_append] at hplain
    obtain ⟨-, htest, hbody⟩ := hplain
    exact .single (.shortBranch hopen (hexpr _ htest) (ih hbody))
  | shortTaken _ _ ih =>
    simp only [Passage.nodes, Stmt.nodes, List.forall_mem_cons, List.forall_mem_append] at hplain
    obtain ⟨-, -, hbody⟩ := hplain
    exact ih hbody
  | whileLoop hopen _ ih =>
    simp only [Passage.nodes, Stmt.nodes, List.forall_mem_cons, List.forall_mem_append] at hplain
    obtain ⟨-, htest, hbody⟩ := hplain
    exact .single (.whileLoop hopen (hexpr _ htest) (ih hbody))
  | forEach hopen _ ih =>
    simp only [Passage.nodes, Stmt.nodes, List.forall_mem_cons, List.forall_mem_append] at hplain
    obtain ⟨-, hcollection, hbody⟩ := hplain
    exact .single (.forEach hopen (hexpr _ hcollection) (ih hbody))
  | forTurn hopen _ ih =>
    simp only [Passage.nodes, Stmt.nodes, List.forall_mem_cons, List.forall_mem_append] at hplain
    obtain ⟨-, ⟨⟨hlow, hhigh⟩, hstep⟩, hbody⟩ := hplain
    exact .single (.forTurn hopen (hexpr _ hlow) (hexpr _ hhigh) (hexpr _ hstep) (ih hbody))
  | elseIf _ ih => exact (ih hplain).ofList
  | block _ ih => exact .block (ih hplain)
  | cons _ _ ihfirst ihrest =>
    simp only [Passage.nodes, Stmt.nodesList, List.forall_mem_append] at hplain
    exact (ihfirst hplain.1).append (ihrest hplain.2)

/-! ### Whole programs -/

/-- Without floats and without `and` and `or`, a second pass changes nothing. -/
theorem Program.simplify_simplify (p : Program) (hfloat : ∀ x, .expr (.float x) ∉ p.nodes)
    (hlogical : ∀ op left right ty, .expr (.binary (.operator op) left right ty) ∈ p.nodes →
      op ≠ .and ∧ op ≠ .or) : p.simplify.simplify = p.simplify := by
  have hplain : ∀ x ∈ p.nodes, x.Plain := by
    intro x hx
    unfold Node.Plain
    split
    next y => exact absurd hx (hfloat y)
    next op left right ty =>
      obtain ⟨hand, hor⟩ := hlogical op left right ty hx
      cases op with
      | and => exact absurd rfl hand
      | or => exact absurd rfl hor
      | _ => decide
    all_goals trivial
  have hreduced : PassageReduced (.block p.simplify.body) :=
    (passageSimplified_list p.returns p.body).reduced hplain
  have hkept : Stmt.simplifyList p.returns p.simplify.body = p.simplify.body :=
    hreduced.kept p.returns
  show Program.mk (Stmt.simplifyList p.returns p.simplify.body) p.returns = p.simplify
  rw [hkept]
  rfl

/-- With `or` it may change something: here the operand that decides comes out of the first pass. -/
example :
    let e : Expr := .binary (.operator .or)
      (.binary (.operator .less) (.int 1) (.int 2) .boolean) (.string "") .boolean
    e.simplify [] = .binary (.operator .or) (.bool true) (.string "") .boolean ∧
      (e.simplify []).simplify [] = .bool true :=
  ⟨rfl, rfl⟩

namespace Unwinding

def n : Var := ⟨14, "n", .mutable, .int⟩

/-- A variable with the name of a truth value. -/
def yes : Var := ⟨15, "true", .mutable, .boolean⟩

/-- `if n < 1 + 2 { n = n + 0 } else if 2 < 1 { break } else if true { if n == 0 { n = 0 - n * 1 }
else { n++ } } else { }`. -/
def before : Program :=
  ⟨[.branch (.binary (.operator .less) (.var n)
        (.binary (.operator .add) (.int 1) (.int 2) .int) .boolean)
      [.assign (.var n) (.binary (.operator .add) (.var n) (.int 0) .int)]
      (.elseIf (.binary (.operator .less) (.int 2) (.int 1) .boolean) [.breakLoop]
        (.elseIf (.var yes)
          [.branch (.binary (.operator .equal) (.var n) (.int 0) .boolean)
            [.assign (.var n) (.binary (.operator .subtract) (.int 0)
              (.binary (.operator .multiply) (.var n) (.int 1) .int) .int)]
            (.block [.bump .increment (.var n)])]
          (.block [])))], []⟩

/-- `if n < 3 { } else if n == 0 { n = -n } else { n++ }`. -/
def after : Program :=
  ⟨[.branch (.binary (.operator .less) (.var n) (.int 3) .boolean) []
      (.elseIf (.binary (.operator .equal) (.var n) (.int 0) .boolean)
        [.assign (.var n) (.unary (.operator .negate) (.var n) .int)]
        (.block [.bump .increment (.var n)]))], []⟩

/-- An `if` within an arm that is always taken comes to stand behind another arm, a sum and a
difference are gone, and there is nothing more to do. -/
theorem simplify_simplify_once : before.simplify = after ∧ after.simplify = after := by
  have hpass : before.simplify = after := rfl
  have htwice : before.simplify.simplify = before.simplify := by
    refine Program.simplify_simplify before (fun x => ?_) (fun op left right ty hmem => ?_)
    · simp [Program.nodes, before, Stmt.nodesList, Stmt.nodes, Else.nodes, Expr.nodes]
    · simp only [Program.nodes, before, Stmt.nodesList, Stmt.nodes, Else.nodes, Expr.nodes,
        List.cons_append, List.nil_append, List.append_nil, List.mem_cons, Node.expr.injEq,
        Expr.binary.injEq, BinaryHead.operator.injEq, reduceCtorEq, List.not_mem_nil, false_or,
        or_false] at hmem
      rcases hmem with ⟨rfl, _⟩ | ⟨rfl, _⟩ | ⟨rfl, _⟩ | ⟨rfl, _⟩ | ⟨rfl, _⟩ | ⟨rfl, _⟩ |
        ⟨rfl, _⟩ <;> decide
  rw [hpass] at htwice
  exact ⟨hpass, htwice⟩

end Unwinding

end Croupier
