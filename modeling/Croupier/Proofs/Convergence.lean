import Mathlib.Logic.Function.Iterate
import Croupier.Proofs.Simplified

/-!
# Repeated passes come to an end

One pass may open the way for another: an operand that becomes a literal only in its course lets
the next one drop the operation. A pass that changes anything makes the program smaller, though,
so this cannot go on forever.

The size of a program is the number of its nodes. One change replaces a node by a single other
one: a mention of a variable with the name of a truth value becomes a literal. Such a mention
counts twice, so this makes the program smaller as well.

Each part of a program either stays as it is or shrinks, and what is put together from such parts
does the same. `Shrinks` says so of anything that has nodes, and the rules of
`Croupier.Proofs.Simplified` are gone through with it once.

> `Program.simplify_converges`: a pass changes nothing or makes a program smaller, and after at
> most as many passes as its size a program is reached that a pass does not change.
-/

namespace Croupier

/-! ### Size -/

/-- How much a node counts. -/
def Node.weight : Node → Nat
  | .expr (.var v) => if v.name = "true" ∨ v.name = "false" then 2 else 1
  | .expr _ | .stmt _ => 1

/-- How much nodes count together. -/
def weigh : List Node → Nat
  | [] => 0
  | x :: xs => x.weight + weigh xs

/-- The number of nodes of a program, mentions that stand for truth values counted twice. -/
def Program.size (p : Program) : Nat := weigh p.nodes

theorem Node.weight_pos (x : Node) : 0 < x.weight := by
  unfold Node.weight
  split
  · split <;> omega
  · omega
  · omega

/-- Nodes in two parts count together what the parts count. -/
theorem weigh_append (xs ys : List Node) : weigh (xs ++ ys) = weigh xs + weigh ys := by
  induction xs with
  | nil => exact (Nat.zero_add _).symm
  | cons x xs ih => rw [List.cons_append, weigh, weigh, ih, Nat.add_assoc]

theorem weigh_pos {x : Node} {xs : List Node} (h : x ∈ xs) : 0 < weigh xs := by
  obtain ⟨before, after, rfl⟩ := List.append_of_mem h
  have hpos := x.weight_pos
  rw [weigh_append, weigh]
  omega

/-! ### Shrinking -/

/-- Something with nodes stays as it is, or comes to have less of them. -/
def Shrinks {α : Type} (nodes : α → List Node) (a a' : α) : Prop :=
  a' = a ∨ weigh (nodes a') < weigh (nodes a)

namespace Shrinks

variable {α β : Type} {v : α → List Node} {w : β → List Node} {a a' : α} {b b' : β}

/-- What shrinks does not come to have more. -/
theorem le (h : Shrinks v a a') : weigh (v a') ≤ weigh (v a) := by
  rcases h with rfl | h
  · exact Nat.le_refl _
  · exact Nat.le_of_lt h

/-- Two things that follow each other. -/
theorem pair (ha : Shrinks v a a') (hb : Shrinks w b b') :
    Shrinks (fun p : α × β => v p.1 ++ w p.2) (a, b) (a', b') := by
  have hale := ha.le
  have hble := hb.le
  show (a', b') = (a, b) ∨ weigh (v a' ++ w b') < weigh (v a ++ w b)
  rw [weigh_append, weigh_append]
  rcases ha with rfl | ha
  · rcases hb with rfl | hb
    · exact Or.inl rfl
    · exact Or.inr (by omega)
  · exact Or.inr (by omega)

/-- Another form of the same nodes. -/
theorem along (w : β → List Node) (f : α → β) (h : Shrinks v a a')
    (hnodes : ∀ a, w (f a) = v a) : Shrinks w (f a) (f a') := by
  rcases h with rfl | h
  · exact Or.inl rfl
  · refine Or.inr ?_
    rw [hnodes, hnodes]
    exact h

/-- One more node above them. -/
theorem under (w : β → List Node) (f : α → β) (h : Shrinks v a a')
    (hnode : ∀ a, weigh (w (f a)) = 1 + weigh (v a)) : Shrinks w (f a) (f a') := by
  rcases h with rfl | h
  · exact Or.inl rfl
  · refine Or.inr ?_
    rw [hnode, hnode]
    omega

end Shrinks

/-! ### Expressions -/

theorem Expr.weigh_pos (e : Expr) : 0 < weigh e.nodes := Croupier.weigh_pos e.mem_nodes_self

/-- An operation counts one more than its operands. -/
theorem Expr.weigh_binary (head : BinaryHead) (left right : Expr) (ty : Ty) :
    weigh (Expr.binary head left right ty).nodes =
      1 + (weigh left.nodes + weigh right.nodes) := by
  rw [Expr.nodes, weigh, weigh_append]
  rfl

/-- The same for an operation with one operand. -/
theorem Expr.weigh_unary (head : UnaryHead) (operand : Expr) (ty : Ty) :
    weigh (Expr.unary head operand ty).nodes = 1 + weigh operand.nodes := by
  rw [Expr.nodes, weigh]
  rfl

theorem Expr.Literal.weigh_eq {e : Expr} (h : e.Literal) : weigh e.nodes = 1 := by
  cases h <;> rfl

/-- Whatever is left of an operation is smaller, unless it is the operation itself. -/
theorem OperationLeft.shrinks {returns : Returns} {op : BinaryOperator}
    {left right left' right' e : Expr} {ty : Ty} (h : OperationLeft returns op left' right' ty e)
    (hleft : Shrinks Expr.nodes left left') (hright : Shrinks Expr.nodes right right') :
    Shrinks Expr.nodes (.binary (.operator op) left right ty) e := by
  have hleftle := hleft.le
  have hrightle := hright.le
  have hleftpos := left.weigh_pos
  have hsize := Expr.weigh_binary (.operator op) left right ty
  cases h with
  | kept =>
    have hparts := hleft.pair hright
    exact hparts.under Expr.nodes (fun p => .binary (.operator op) p.1 p.2 ty) (fun _ => rfl)
  | left | right => exact Or.inr (by omega)
  | negation =>
    -- The negation is a new node, but the left operand is gone.
    have hnegation := Expr.weigh_unary (.operator .negate) right' (right'.ty returns)
    exact Or.inr (by rw [Expr.negation]; omega)
  | literal he =>
    have hliteral := he.weigh_eq
    exact Or.inr (by omega)

/-- A phrase stays as it is, or shrinks to another one of its kind. -/
def PhraseShrinks : Phrase → Phrase → Prop
  | .expr e, .expr e' => Shrinks Expr.nodes e e'
  | .list es, .list es' => Shrinks Expr.nodesList es es'
  | .members ms, .members ms' => Shrinks Expr.nodesMembers ms ms'
  | _, _ => False

/-- Simplified phrases shrink, or are what they were. The induction is over what becomes of the
parts. -/
theorem PhraseSimplified.shrinks {returns : Returns} {d d' : Phrase}
    (h : PhraseSimplified returns d d') : PhraseShrinks d d' := by
  induction h with
  | int | float | string | bool | func | emptyArray | var | listNil | membersNil =>
    exact Or.inl rfl
  | @truth v b hname =>
    have hnamed : v.name = "true" ∨ v.name = "false" := by
      cases b with
      | false => exact Or.inr hname
      | true => exact Or.inl hname
    have hmention : weigh (Expr.var v).nodes = 2 := by
      rw [Expr.nodes, weigh, Node.weight, if_pos hnamed]
      rfl
    have hliteral := (Expr.Literal.bool b).weigh_eq
    exact Or.inr (by omega)
  | @decided op left right ty b =>
    have hleft := left.weigh_pos
    have hsize := Expr.weigh_binary (.operator op) left right ty
    have hliteral := (Expr.Literal.bool b).weigh_eq
    exact Or.inr (by omega)
  | @shortLeft op left right ty _ _ ih | @shortRight op left right ty _ _ ih =>
    have hsize := Expr.weigh_binary (.operator op) left right ty
    have hle := Shrinks.le ih
    exact Or.inr (by omega)
  | operation _ _ _ he ihleft ihright => exact he.shrinks ihleft ihright
  | @intrinsicBinary i _ _ ty _ _ ihleft ihright =>
    have hparts := Shrinks.pair ihleft ihright
    exact hparts.under Expr.nodes (fun p => .binary (.intrinsic i) p.1 p.2 ty) (fun _ => rfl)
  | @unary head _ ty _ ih =>
    exact Shrinks.under Expr.nodes (fun e => .unary head e ty) ih (fun _ => rfl)
  | @negative operand ty n =>
    have hoperand := operand.weigh_pos
    have hsize := Expr.weigh_unary (.operator .negate) operand ty
    have hliteral := n.negate.expr_literal.weigh_eq
    exact Or.inr (by omega)
  | @subscript _ _ ty _ _ ihbase ihindex =>
    have hparts := Shrinks.pair ihbase ihindex
    exact hparts.under Expr.nodes (fun p => .subscript p.1 p.2 ty) (fun _ => rfl)
  | @member _ field ty _ ih =>
    exact Shrinks.under Expr.nodes (fun e => .member e field ty) ih (fun _ => rfl)
  | @call callee _ ty _ ih =>
    exact Shrinks.under Expr.nodes (fun es => .call callee es ty) ih (fun _ => rfl)
  | @array _ ty _ ih => exact Shrinks.under Expr.nodes (fun es => .array es ty) ih (fun _ => rfl)
  | object _ ih => exact Shrinks.under Expr.nodes .object ih (fun _ => rfl)
  | listCons _ _ ihfirst ihrest =>
    have hparts := Shrinks.pair ihfirst ihrest
    exact hparts.along Expr.nodesList (fun p => p.1 :: p.2) (fun _ => rfl)
  | @membersCons key _ _ _ _ ihfirst ihrest =>
    have hparts := Shrinks.pair ihfirst ihrest
    exact hparts.along Expr.nodesMembers (fun p => (key, p.1) :: p.2) (fun _ => rfl)

/-- Simplifying an expression leaves it as it is or makes it smaller. -/
theorem Expr.shrinks (returns : Returns) (e : Expr) :
    Shrinks Expr.nodes e (e.simplify returns) :=
  (phraseSimplified_expr returns e).shrinks

/-! ### Statements -/

/-- A passage stays as it is, or shrinks. A statement counts as a block with nothing else. -/
def PassageShrinks : Passage → Passage → Prop
  | .stmt s, .block ss => Shrinks Stmt.nodesList [s] ss
  | .arms e, .arms e' => Shrinks Else.nodes e e'
  | .block ss, .block ss' => Shrinks Stmt.nodesList ss ss'
  | _, _ => False

theorem Shrinks.single {s s' : Stmt} (h : Shrinks Stmt.nodes s s') :
    Shrinks Stmt.nodesList [s] [s'] :=
  h.along Stmt.nodesList (fun s => [s]) Stmt.nodesList_singleton

/-- Some of its parts take the place of a statement. -/
theorem Shrinks.parts {s : Stmt} {ss : List Stmt} {x : Node} {inside : List Node}
    (hnodes : s.nodes = x :: inside) (h : weigh (Stmt.nodesList ss) ≤ weigh inside) :
    Shrinks Stmt.nodesList [s] ss := by
  have hpos := x.weight_pos
  refine Or.inr ?_
  rw [Stmt.nodesList_singleton, hnodes, weigh]
  omega

/-- A statement disappears. -/
theorem Shrinks.gone (s : Stmt) : Shrinks Stmt.nodesList [s] [] := by
  refine Or.inr ?_
  rw [Stmt.nodesList_singleton]
  exact weigh_pos s.mem_nodes_self

/-- Simplified passages shrink, or are what they were. Where an arm moves up it leaves at least its
test behind. -/
theorem PassageSimplified.shrinks {returns : Returns} {d d' : Passage}
    (h : PassageSimplified returns d d') : PassageShrinks d d' := by
  induction h with
  | breakLoop | returnNone | nil => exact Or.inl rfl
  -- A statement stays, with its parts simplified.
  | @declareVar v init =>
    exact ((init.shrinks returns).under Stmt.nodes (.declareVar v) (fun _ => rfl)).single
  | @bump op target =>
    exact ((target.shrinks returns).under Stmt.nodes (.bump op) (fun _ => rfl)).single
  | @call value => exact ((value.shrinks returns).under Stmt.nodes .call (fun _ => rfl)).single
  | @returnValue value =>
    exact ((value.shrinks returns).under Stmt.nodes .returnValue (fun _ => rfl)).single
  | @assign target source =>
    have hparts := (target.shrinks returns).pair (source.shrinks returns)
    exact (hparts.under Stmt.nodes (fun p => .assign p.1 p.2) (fun _ => rfl)).single
  | @declareFunc f _ _ ih =>
    exact (Shrinks.under Stmt.nodes (.declareFunc f) ih (fun _ => rfl)).single
  | @shortBranch test _ _ _ ih =>
    have hparts := (test.shrinks returns).pair ih
    exact (hparts.under Stmt.nodes (fun p => .shortBranch p.1 p.2) (fun _ => rfl)).single
  | @whileLoop test _ _ _ ih =>
    have hparts := (test.shrinks returns).pair ih
    exact (hparts.under Stmt.nodes (fun p => .whileLoop p.1 p.2) (fun _ => rfl)).single
  | @forEach iterator collection _ _ _ ih =>
    have hparts := (collection.shrinks returns).pair ih
    exact (hparts.under Stmt.nodes (fun p => .forEach iterator p.1 p.2) (fun _ => rfl)).single
  | @forTurn iterator low high step direction _ _ _ ih =>
    have hbounds := (low.shrinks returns).pair (high.shrinks returns)
    have hparts := (hbounds.pair (step.shrinks returns)).pair ih
    exact (hparts.under Stmt.nodes
      (fun p => .forTurn iterator p.1.1.1 p.1.1.2 p.1.2 direction p.2) (fun _ => rfl)).single
  | @branch test _ _ _ _ _ ihbody ihelse =>
    have hparts := ((test.shrinks returns).pair ihbody).pair ihelse
    exact (hparts.under Stmt.nodes (fun p => .branch p.1.1 p.1.2 p.2) (fun _ => rfl)).single
  -- It disappears, or an arm takes its place.
  | assignSelf | shortPassed | whileNever | forEachNever | forTurnNever => exact Shrinks.gone _
  | branchTaken _ _ ih =>
    have hle := Shrinks.le ih
    refine Shrinks.parts rfl ?_
    rw [weigh_append, weigh_append]
    omega
  | branchPassed _ _ ih =>
    have hle := Shrinks.le ih
    refine Shrinks.parts rfl ?_
    rw [Else.nodesList_statements, weigh_append]
    omega
  | shortTaken _ _ ih =>
    have hle := Shrinks.le ih
    refine Shrinks.parts rfl ?_
    rw [weigh_append]
    omega
  -- Arms are put together from what the `if` that they amount to comes to.
  | elseIf _ ih => exact Shrinks.along Else.nodes Else.ofList ih Else.nodes_ofList
  | block _ ih => exact Shrinks.along Else.nodes Else.block ih (fun _ => rfl)
  | cons _ _ ihfirst ihrest =>
    exact (Shrinks.pair ihfirst ihrest).along Stmt.nodesList (fun p => p.1 ++ p.2)
      (fun p => Stmt.nodesList_append p.1 p.2)

/-! ### Whole programs -/

/-- Simplifying a program leaves it as it is or makes it smaller, so repeating it comes to an
end. -/
theorem Program.simplify_eq_or_size_lt (p : Program) :
    p.simplify = p ∨ p.simplify.size < p.size := by
  rcases (passageSimplified_list p.returns p.body).shrinks with hsame | hsmaller
  · exact Or.inl (by rw [Program.simplify, hsame])
  · exact Or.inr hsmaller

/-- A pass over a program changes nothing at all or makes it smaller. So there are no more passes
that change anything than the size of the program: after them a pass changes nothing. -/
theorem Program.simplify_converges (p : Program) :
    (p.simplify = p ∨ p.simplify.size < p.size) ∧
    ∃ n ≤ p.size, (Program.simplify^[n] p).simplify = Program.simplify^[n] p := by
  refine ⟨p.simplify_eq_or_size_lt, ?_⟩
  -- A pass that changes something leaves a smaller program, which needs one pass less.
  induction hsize : p.size using Nat.strongRecOn generalizing p with
  | ind size ih =>
    rcases p.simplify_eq_or_size_lt with hsame | hsmaller
    · exact ⟨0, Nat.zero_le _, hsame⟩
    · rw [hsize] at hsmaller
      obtain ⟨n, hn, hfixed⟩ := ih p.simplify.size hsmaller p.simplify rfl
      refine ⟨n + 1, by omega, ?_⟩
      rw [Function.iterate_succ_apply]
      exact hfixed

end Croupier
