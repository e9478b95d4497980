import Croupier.Proofs.Simplified

/-!
# Simplifying keeps references in order

Simplifying drops operands and statements, puts an arm in the place of its `if`, and puts further
arms back behind the arm before them. Nothing is ever said twice by this, nothing trades places,
and nothing is made up. The measure of it is the list of all occurrences of entities in a program,
in the order in which its nodes are met: what a pass leaves of this list is a part of it.

`Program.occurrences` is that list. An entity is compared with all that is known of it, its number
included, and an occurrence with what the entity is there for, so that a call cannot pass for a
mere mention.

> `Program.occurrences_simplify`: the occurrences that are left are a sublist of those before.
-/

namespace Croupier

/-! ### Occurrences -/

/-- An entity, or an operation of the machine, and what it is there for. -/
inductive Occurrence where
  | declared (x : Entity)
  | iterator (v : Var)
  | mentioned (x : Entity)
  | called (f : Func)
  /-- A call of the library that became an operation. -/
  | operation (i : Intrinsic)

/-- What occurs at a node itself, its parts left aside. -/
def Node.occurrence? : Node → Option Occurrence
  | .stmt (.declareVar v _) => some (.declared (.var v))
  | .stmt (.declareFunc f _) => some (.declared (.func f))
  | .stmt (.forEach v _ _) | .stmt (.forTurn v _ _ _ _ _) => some (.iterator v)
  | .expr (.var v) => some (.mentioned (.var v))
  | .expr (.func f) => some (.mentioned (.func f))
  | .expr (.call f _ _) => some (.called f)
  | .expr (.binary (.intrinsic i) _ _ _) | .expr (.unary (.intrinsic i) _ _) => some (.operation i)
  | .expr _ | .stmt _ => none

/-- All that occurs in a program, in the order in which its nodes are met. -/
def Program.occurrences (p : Program) : List Occurrence := p.nodes.filterMap Node.occurrence?

/-- What occurs in the first nodes occurs, in the same order, in the second ones. -/
def Fewer (xs ys : List Node) : Prop :=
  (xs.filterMap Node.occurrence?).Sublist (ys.filterMap Node.occurrence?)

namespace Fewer

variable {x y : Node} {xs xs' ys ys' : List Node}

theorem refl (xs : List Node) : Fewer xs xs := List.Sublist.refl _

theorem nil (ys : List Node) : Fewer [] ys := List.nil_sublist _

theorem trans {zs : List Node} (h : Fewer xs ys) (h' : Fewer ys zs) : Fewer xs zs :=
  List.Sublist.trans h h'

/-- What occurs in two parts occurs in the whole, in the same order. -/
theorem append (h : Fewer xs ys) (h' : Fewer xs' ys') : Fewer (xs ++ xs') (ys ++ ys') := by
  unfold Fewer
  rw [List.filterMap_append, List.filterMap_append]
  exact List.Sublist.append h h'

/-- A node stays, with fewer parts. -/
theorem kept (hnode : x.occurrence? = y.occurrence?) (h : Fewer xs ys) :
    Fewer (x :: xs) (y :: ys) := by
  have hsame : [x].filterMap Node.occurrence? = [y].filterMap Node.occurrence? := by
    rw [List.filterMap_cons, List.filterMap_cons, hnode]
  have hfirst : Fewer [x] [y] := by
    unfold Fewer
    exact hsame ▸ List.Sublist.refl _
  exact hfirst.append h

/-- A node is new, and nothing occurs at it. -/
theorem plain (hnode : x.occurrence? = none) (h : Fewer xs ys) : Fewer (x :: xs) ys := by
  unfold Fewer
  rw [List.filterMap_cons_none hnode]
  exact h

/-- A node gives way to some of its parts. -/
theorem within (h : Fewer xs ys) (y : Node) : Fewer xs (y :: ys) :=
  h.trans ((List.sublist_cons_self y ys).filterMap _)

theorem before (h : Fewer xs ys) (zs : List Node) : Fewer xs (ys ++ zs) :=
  h.trans ((List.sublist_append_left ys zs).filterMap _)

theorem behind (h : Fewer xs ys) (zs : List Node) : Fewer xs (zs ++ ys) :=
  h.trans ((List.sublist_append_right zs ys).filterMap _)

end Fewer

/-! ### Expressions -/

/-- Nothing occurs in a literal. -/
theorem Expr.Literal.fewer {e : Expr} (h : e.Literal) (ys : List Node) : Fewer e.nodes ys := by
  cases h <;> exact (Fewer.nil ys).plain rfl

/-- What occurs in what is left of an operation occurred in its operands. -/
theorem OperationLeft.fewer {returns : Returns} {op : BinaryOperator} {left right e : Expr}
    {ty : Ty} (h : OperationLeft returns op left right ty e) :
    Fewer e.nodes (left.nodes ++ right.nodes) := by
  cases h with
  | kept => exact (Fewer.refl _).plain rfl
  | left => exact (Fewer.refl _).before _
  | right => exact (Fewer.refl _).behind _
  | negation => exact ((Fewer.refl right.nodes).behind _).plain rfl
  | literal he => exact he.fewer _

/-- Nothing occurs in a simplified phrase that did not occur before, nor in another order. -/
theorem PhraseSimplified.fewer {returns : Returns} {d d' : Phrase}
    (h : PhraseSimplified returns d d') : Fewer d'.nodes d.nodes := by
  induction h with
  | int | float | string | bool | func | emptyArray | var | listNil | membersNil =>
    exact Fewer.refl _
  | truth | decided => exact (Expr.Literal.bool _).fewer _
  | shortLeft _ _ ih => exact (ih.before _).within _
  | shortRight _ _ ih => exact (ih.behind _).within _
  | operation _ _ _ he ihleft ihright => exact (he.fewer.trans (ihleft.append ihright)).within _
  | intrinsicBinary _ _ ihleft ihright => exact (ihleft.append ihright).kept rfl
  | @unary head _ _ _ ih =>
    refine ih.kept ?_
    cases head <;> rfl
  | negative => exact (Numeral.expr_literal _).fewer _
  | member _ ih | call _ ih | array _ ih | object _ ih => exact ih.kept rfl
  | subscript _ _ ihbase ihindex => exact (ihbase.append ihindex).kept rfl
  | listCons _ _ ihfirst ihrest | membersCons _ _ ihfirst ihrest => exact ihfirst.append ihrest

theorem Expr.fewer_simplify (returns : Returns) (e : Expr) :
    Fewer (e.simplify returns).nodes e.nodes :=
  (phraseSimplified_expr returns e).fewer

/-! ### Statements -/

/-- A relation between the nodes that are left and those that there were, which holds of parts put
side by side if it holds of the parts. Nodes may always be dropped, and a statement may be replaced
by one at which the same occurs. -/
structure Composes (R : List Node → List Node → Prop) : Prop where
  nil : R [] []
  append {xs xs' ys ys' : List Node} : R xs ys → R xs' ys' → R (xs ++ xs') (ys ++ ys')
  widen {xs ys zs : List Node} : R xs ys → ys.Sublist zs → R xs zs
  stmt {s s' : Stmt} :
    Node.occurrence? (.stmt s) = Node.occurrence? (.stmt s') → R [.stmt s] [.stmt s']

namespace Composes

variable {R : List Node → List Node → Prop} {xs ys : List Node}

/-- Everything may be dropped. -/
theorem gone (hR : Composes R) (ys : List Node) : R [] ys := hR.widen hR.nil (List.nil_sublist ys)

theorem within (hR : Composes R) (h : R xs ys) (y : Node) : R xs (y :: ys) :=
  hR.widen h (List.sublist_cons_self y ys)

theorem before (hR : Composes R) (h : R xs ys) (zs : List Node) : R xs (ys ++ zs) :=
  hR.widen h (List.sublist_append_left ys zs)

theorem behind (hR : Composes R) (h : R xs ys) (zs : List Node) : R xs (zs ++ ys) :=
  hR.widen h (List.sublist_append_right zs ys)

/-- A statement stays, with other parts. -/
theorem single {s s' : Stmt} (hR : Composes R)
    (hnode : Node.occurrence? (.stmt s') = Node.occurrence? (.stmt s)) (h : R xs ys)
    (hnodes : s'.nodes = .stmt s' :: xs) :
    R (Passage.block [s']).nodes (.stmt s :: ys) := by
  rw [Passage.nodes, Stmt.nodesList_singleton, hnodes]
  exact hR.append (hR.stmt hnode) h

end Composes

/-- What holds of expressions and their simplified forms holds of statements as well. -/
theorem PassageSimplified.related {R : List Node → List Node → Prop} {returns : Returns}
    {d d' : Passage} (hR : Composes R) (hexpr : ∀ e : Expr, R (e.simplify returns).nodes e.nodes)
    (h : PassageSimplified returns d d') : R d'.nodes d.nodes := by
  induction h with
  | nil => exact hR.nil
  -- A statement stays, with its parts simplified.
  | breakLoop | returnNone => exact hR.single rfl hR.nil rfl
  | declareVar | bump | call | returnValue => exact hR.single rfl (hexpr _) rfl
  | @assign target source =>
    exact hR.single rfl (hR.append (hexpr target) (hexpr source)) rfl
  | declareFunc _ ih => exact hR.single rfl ih rfl
  | shortBranch _ _ ih | whileLoop _ _ ih | forEach _ _ ih =>
    exact hR.single rfl (hR.append (hexpr _) ih) rfl
  | @forTurn _ low high step _ _ _ _ ih =>
    have hbounds := hR.append (hexpr low) (hexpr high)
    have hturn := hR.append hbounds (hexpr step)
    exact hR.single rfl (hR.append hturn ih) rfl
  | @branch test _ _ _ _ _ ihbody ihelse =>
    have hfirst := hR.append (hexpr test) ihbody
    exact hR.single rfl (hR.append hfirst ihelse) rfl
  -- It disappears, or an arm takes its place.
  | assignSelf | shortPassed | whileNever | forEachNever | forTurnNever => exact hR.gone _
  | branchTaken _ _ ih => exact hR.within (hR.before (hR.behind ih _) _) _
  | branchPassed _ _ ih =>
    show R (Stmt.nodesList _) _
    rw [Else.nodesList_statements]
    exact hR.within (hR.behind ih _) _
  | shortTaken _ _ ih => exact hR.within (hR.behind ih _) _
  | elseIf _ ih =>
    -- Arms have the nodes of the `if` that they amount to.
    show R (Else.nodes _) _
    rw [Else.nodes_ofList]
    exact ih
  | block _ ih => exact ih
  | cons _ _ ihfirst ihrest =>
    show R (Stmt.nodesList _) _
    rw [Stmt.nodesList_append]
    exact hR.append ihfirst ihrest

/-- Occurring in the same order is a relation that composes. -/
theorem Fewer.composes : Composes Fewer where
  nil := Fewer.nil []
  append := Fewer.append
  widen h hsub := h.trans (hsub.filterMap _)
  stmt hnode := Fewer.kept hnode (Fewer.nil [])

/-- Nothing occurs in a simplified passage that did not occur before, nor in another order. -/
theorem PassageSimplified.fewer {returns : Returns} {d d' : Passage}
    (h : PassageSimplified returns d d') : Fewer d'.nodes d.nodes :=
  h.related Fewer.composes (Expr.fewer_simplify returns)

/-! ### Whole programs -/

/-- What occurs in a simplified program is a sublist of what occurs in the program: no reference
and no call is made up, none is there twice that was there once, none trades places with another,
and what is called is what was called before. -/
theorem Program.occurrences_simplify (p : Program) :
    p.simplify.occurrences.Sublist p.occurrences :=
  (passageSimplified_list p.returns p.body).fewer

end Croupier
