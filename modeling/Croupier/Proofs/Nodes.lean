import Croupier.Lowering.Func

/-!
# The nodes of a program

Many laws say something about every node of a program, wherever it stands: in the body of a
nested function, among the arguments of a call, in the bounds of a turn. `Program.nodes` is the
list that such a law ranges over. It holds every statement and every expression in the order in
which they are written, each before its parts.

An arm behind the first arm of an `if` counts as an `if` of its own, so that a law about tests
need not treat the two apart.

The list is defined by itself and not through the walk of `Croupier.Program.Visit`, because that
walk is something to prove things about. What is needed of it here is that it misses no call:

> `callsItself_iff`: a function is found to call itself exactly when a call of it is a node of
> its body.
-/

namespace Croupier

/-- An expression or a statement of a program. -/
inductive Node where
  | expr (e : Expr)
  | stmt (s : Stmt)

mutual

/-- An expression and all expressions within it. -/
def Expr.nodes : Expr → List Node
  | e@(.int _) | e@(.float _) | e@(.string _) | e@(.bool _) | e@(.var _) | e@(.func _)
  | e@(.emptyArray _) => [.expr e]
  | .array items ty => .expr (.array items ty) :: Expr.nodesList items
  | .object members => .expr (.object members) :: Expr.nodesMembers members
  | .binary head left right ty => .expr (.binary head left right ty) :: (left.nodes ++ right.nodes)
  | .unary head operand ty => .expr (.unary head operand ty) :: operand.nodes
  | .subscript base index ty => .expr (.subscript base index ty) :: (base.nodes ++ index.nodes)
  | .member base field ty => .expr (.member base field ty) :: base.nodes
  | .call callee args ty => .expr (.call callee args ty) :: Expr.nodesList args

/-- The nodes of several expressions. -/
def Expr.nodesList : List Expr → List Node
  | [] => []
  | e :: es => e.nodes ++ Expr.nodesList es

/-- The nodes of the members of an object. -/
def Expr.nodesMembers : List (String × Expr) → List Node
  | [] => []
  | (_, e) :: members => e.nodes ++ Expr.nodesMembers members

end

mutual

/-- A statement and everything within it. -/
def Stmt.nodes : Stmt → List Node
  | .declareVar v init => .stmt (.declareVar v init) :: init.nodes
  | .declareFunc f body => .stmt (.declareFunc f body) :: Stmt.nodesList body
  | .assign target source => .stmt (.assign target source) :: (target.nodes ++ source.nodes)
  | .bump op target => .stmt (.bump op target) :: target.nodes
  | .call value => .stmt (.call value) :: value.nodes
  | .breakLoop => [.stmt .breakLoop]
  | .returnValue value => .stmt (.returnValue value) :: value.nodes
  | .returnNone => [.stmt .returnNone]
  | .branch test body orElse =>
    .stmt (.branch test body orElse) :: (test.nodes ++ Stmt.nodesList body ++ orElse.nodes)
  | .shortBranch test body =>
    .stmt (.shortBranch test body) :: (test.nodes ++ Stmt.nodesList body)
  | .whileLoop test body => .stmt (.whileLoop test body) :: (test.nodes ++ Stmt.nodesList body)
  | .forEach iterator collection body =>
    .stmt (.forEach iterator collection body) :: (collection.nodes ++ Stmt.nodesList body)
  | .forTurn iterator low high step direction body =>
    .stmt (.forTurn iterator low high step direction body) ::
      (low.nodes ++ high.nodes ++ step.nodes ++ Stmt.nodesList body)

/-- The nodes of the further arms of an `if`, each arm an `if` of its own. -/
def Else.nodes : Else → List Node
  | .elseIf test body orElse =>
    .stmt (.branch test body orElse) :: (test.nodes ++ Stmt.nodesList body ++ orElse.nodes)
  | .block body => Stmt.nodesList body

/-- The nodes of statements that follow each other. -/
def Stmt.nodesList : List Stmt → List Node
  | [] => []
  | s :: ss => s.nodes ++ Stmt.nodesList ss

end

/-- All nodes of a program. -/
def Program.nodes (p : Program) : List Node := Stmt.nodesList p.body

/-! ### Parts -/

/-- The expressions that a node is directly made of. -/
def Node.children : Node → List Expr
  | .expr (.array items _) => items
  | .expr (.object members) => members.map Prod.snd
  | .expr (.binary _ left right _) => [left, right]
  | .expr (.unary _ operand _) => [operand]
  | .expr (.subscript base index _) => [base, index]
  | .expr (.member base _ _) => [base]
  | .expr (.call _ args _) => args
  | .expr _ => []
  | .stmt (.declareVar _ init) => [init]
  | .stmt (.assign target source) => [target, source]
  | .stmt (.bump _ e) | .stmt (.call e) | .stmt (.returnValue e) => [e]
  | .stmt (.branch test _ _) | .stmt (.shortBranch test _) | .stmt (.whileLoop test _) => [test]
  | .stmt (.forEach _ collection _) => [collection]
  | .stmt (.forTurn _ low high step _ _) => [low, high, step]
  | .stmt _ => []

/-- An expression is one of its own nodes. -/
theorem Expr.mem_nodes_self (e : Expr) : .expr e ∈ e.nodes := by
  cases e <;> simp [Expr.nodes]

/-- The nodes of a list of expressions are those of its members. -/
theorem Expr.mem_nodesList {x : Node} {es : List Expr} :
    x ∈ Expr.nodesList es ↔ ∃ e ∈ es, x ∈ e.nodes := by
  induction es with
  | nil => simp [Expr.nodesList]
  | cons e es ih => simp [Expr.nodesList, ih]

/-- The nodes of the members of an object are those of the expressions in it. -/
theorem Expr.mem_nodesMembers {x : Node} {members : List (String × Expr)} :
    x ∈ Expr.nodesMembers members ↔ ∃ e ∈ members.map Prod.snd, x ∈ e.nodes := by
  induction members with
  | nil => simp [Expr.nodesMembers]
  | cons member members ih => simp [Expr.nodesMembers, ih]

/-- What the nodes are closed under: with a node come the expressions that it is made of. -/
def Node.ClosedUnderParts (nodes : List Node) : Prop :=
  ∀ x ∈ nodes, ∀ e ∈ x.children, .expr e ∈ nodes

namespace Node.ClosedUnderParts

theorem nil : ClosedUnderParts [] := by
  intro x hx
  cases hx

theorem append {xs ys : List Node} (hx : ClosedUnderParts xs) (hy : ClosedUnderParts ys) :
    ClosedUnderParts (xs ++ ys) := by
  intro x hmem e he
  rcases List.mem_append.mp hmem with hmem | hmem
  · exact List.mem_append_left _ (hx x hmem e he)
  · exact List.mem_append_right _ (hy x hmem e he)

/-- A node may be put in front of nodes that have its parts. -/
theorem cons {x : Node} {xs : List Node} (hx : ∀ e ∈ x.children, .expr e ∈ xs)
    (hxs : ClosedUnderParts xs) : ClosedUnderParts (x :: xs) := by
  intro y hmem e he
  rcases List.mem_cons.mp hmem with rfl | hmem
  · exact List.mem_cons_of_mem _ (hx e he)
  · exact List.mem_cons_of_mem _ (hxs y hmem e he)

end Node.ClosedUnderParts

open Node.ClosedUnderParts (nil append cons) in
mutual

/-- The nodes of an expression have all their parts among them. -/
theorem Expr.nodes_closed (e : Expr) : Node.ClosedUnderParts e.nodes := by
  match e with
  | .int _ | .float _ | .string _ | .bool _ | .var _ | .func _ | .emptyArray _ =>
    exact cons (by simp [Node.children]) nil
  | .array items _ =>
    refine cons (fun e he => ?_) (Expr.nodesList_closed items)
    exact Expr.mem_nodesList.mpr ⟨e, he, e.mem_nodes_self⟩
  | .object members =>
    refine cons (fun e he => ?_) (Expr.nodesMembers_closed members)
    exact Expr.mem_nodesMembers.mpr ⟨e, he, e.mem_nodes_self⟩
  | .binary _ left right _ =>
    refine cons ?_ (append (Expr.nodes_closed left) (Expr.nodes_closed right))
    simp [Node.children, Expr.mem_nodes_self]
  | .unary _ operand _ =>
    refine cons ?_ (Expr.nodes_closed operand)
    simp [Node.children, Expr.mem_nodes_self]
  | .subscript base index _ =>
    refine cons ?_ (append (Expr.nodes_closed base) (Expr.nodes_closed index))
    simp [Node.children, Expr.mem_nodes_self]
  | .member base _ _ =>
    refine cons ?_ (Expr.nodes_closed base)
    simp [Node.children, Expr.mem_nodes_self]
  | .call _ args _ =>
    refine cons (fun e he => ?_) (Expr.nodesList_closed args)
    exact Expr.mem_nodesList.mpr ⟨e, he, e.mem_nodes_self⟩

theorem Expr.nodesList_closed (es : List Expr) :
    Node.ClosedUnderParts (Expr.nodesList es) := by
  match es with
  | [] => exact nil
  | e :: es => exact append (Expr.nodes_closed e) (Expr.nodesList_closed es)

theorem Expr.nodesMembers_closed (members : List (String × Expr)) :
    Node.ClosedUnderParts (Expr.nodesMembers members) := by
  match members with
  | [] => exact nil
  | (_, e) :: members => exact append (Expr.nodes_closed e) (Expr.nodesMembers_closed members)

end

open Node.ClosedUnderParts (nil append cons) in
mutual

/-- The nodes of a statement have all their parts among them. -/
theorem Stmt.nodes_closed (s : Stmt) : Node.ClosedUnderParts s.nodes := by
  match s with
  | .breakLoop | .returnNone => exact cons (by simp [Node.children]) nil
  | .declareFunc _ body => exact cons (by simp [Node.children]) (Stmt.nodesList_closed body)
  | .declareVar _ e | .bump _ e | .call e | .returnValue e =>
    refine cons ?_ e.nodes_closed
    simp [Node.children, Expr.mem_nodes_self]
  | .assign target source =>
    refine cons ?_ (append target.nodes_closed source.nodes_closed)
    simp [Node.children, Expr.mem_nodes_self]
  | .branch test body orElse =>
    refine cons ?_ (append (append test.nodes_closed (Stmt.nodesList_closed body))
      (Else.nodes_closed orElse))
    simp [Node.children, Expr.mem_nodes_self]
  | .shortBranch e body | .whileLoop e body | .forEach _ e body =>
    refine cons ?_ (append e.nodes_closed (Stmt.nodesList_closed body))
    simp [Node.children, Expr.mem_nodes_self]
  | .forTurn _ low high step _ body =>
    refine cons ?_ (append (append (append low.nodes_closed high.nodes_closed) step.nodes_closed)
      (Stmt.nodesList_closed body))
    simp [Node.children, Expr.mem_nodes_self]

theorem Else.nodes_closed (e : Else) : Node.ClosedUnderParts e.nodes := by
  match e with
  | .elseIf test body orElse =>
    refine cons ?_ (append (append test.nodes_closed (Stmt.nodesList_closed body))
      (Else.nodes_closed orElse))
    simp [Node.children, Expr.mem_nodes_self]
  | .block body => exact Stmt.nodesList_closed body

/-- The nodes of a block contain the parts of each of them. -/
theorem Stmt.nodesList_closed (ss : List Stmt) :
    Node.ClosedUnderParts (Stmt.nodesList ss) := by
  match ss with
  | [] => exact nil
  | s :: ss => exact append (Stmt.nodes_closed s) (Stmt.nodesList_closed ss)

end

/-! ### Statements within statements -/

mutual

/-- No statement stands within an expression. -/
theorem Expr.stmt_not_mem_nodes (s : Stmt) (e : Expr) : .stmt s ∉ e.nodes := by
  match e with
  | .int _ | .float _ | .string _ | .bool _ | .var _ | .func _ | .emptyArray _ =>
    simp [Expr.nodes]
  | .array items _ => simp [Expr.nodes, Expr.stmt_not_mem_nodesList s items]
  | .object members => simp [Expr.nodes, Expr.stmt_not_mem_nodesMembers s members]
  | .binary _ left right _ =>
    simp [Expr.nodes, Expr.stmt_not_mem_nodes s left, Expr.stmt_not_mem_nodes s right]
  | .unary _ operand _ => simp [Expr.nodes, Expr.stmt_not_mem_nodes s operand]
  | .subscript base index _ =>
    simp [Expr.nodes, Expr.stmt_not_mem_nodes s base, Expr.stmt_not_mem_nodes s index]
  | .member base _ _ => simp [Expr.nodes, Expr.stmt_not_mem_nodes s base]
  | .call _ args _ => simp [Expr.nodes, Expr.stmt_not_mem_nodesList s args]

theorem Expr.stmt_not_mem_nodesList (s : Stmt) (es : List Expr) :
    .stmt s ∉ Expr.nodesList es := by
  match es with
  | [] => simp [Expr.nodesList]
  | e :: es =>
    simp [Expr.nodesList, Expr.stmt_not_mem_nodes s e, Expr.stmt_not_mem_nodesList s es]

theorem Expr.stmt_not_mem_nodesMembers (s : Stmt) (members : List (String × Expr)) :
    .stmt s ∉ Expr.nodesMembers members := by
  match members with
  | [] => simp [Expr.nodesMembers]
  | (_, e) :: members =>
    simp [Expr.nodesMembers, Expr.stmt_not_mem_nodes s e,
      Expr.stmt_not_mem_nodesMembers s members]

end

/-- The nodes of the blocks of a statement. -/
def Stmt.inside : Stmt → List Node
  | .declareFunc _ body | .shortBranch _ body | .whileLoop _ body | .forEach _ _ body
  | .forTurn _ _ _ _ _ body => Stmt.nodesList body
  | .branch _ body orElse => Stmt.nodesList body ++ orElse.nodes
  | .declareVar _ _ | .assign _ _ | .bump _ _ | .call _ | .breakLoop | .returnValue _
  | .returnNone => []

/-- Besides a statement itself, its nodes have the statements in its blocks and no others. -/
theorem Stmt.stmt_mem_nodes {s t : Stmt} : .stmt t ∈ s.nodes ↔ t = s ∨ .stmt t ∈ s.inside := by
  cases s <;> simp [Stmt.nodes, Stmt.inside, Expr.stmt_not_mem_nodes]

/-- The same for an arm behind the first one. -/
theorem Else.stmt_mem_nodes {test : Expr} {body : List Stmt} {orElse : Else} {t : Stmt} :
    .stmt t ∈ (Else.elseIf test body orElse).nodes ↔
      t = .branch test body orElse ∨ .stmt t ∈ (Stmt.branch test body orElse).inside :=
  @Stmt.stmt_mem_nodes (.branch test body orElse) t

theorem Stmt.mem_nodes_self (s : Stmt) : .stmt s ∈ s.nodes :=
  Stmt.stmt_mem_nodes.mpr (Or.inl rfl)

theorem Stmt.mem_nodes_of_inside {s t : Stmt} (h : .stmt t ∈ s.inside) : .stmt t ∈ s.nodes :=
  Stmt.stmt_mem_nodes.mpr (Or.inr h)

/-! ### The walk misses no call -/

section Calls

variable (g : Func) (args : List Expr) (ty : Ty)

mutual

/-- A walk that follows everything meets the calls in an expression, and no others. -/
theorem Expr.call_mem_visits (e : Expr) :
    Visit.call g args ty ∈ e.visits (fun _ => true) ↔ Node.expr (.call g args ty) ∈ e.nodes := by
  cases e with
  | int | float | string | bool | var | func | emptyArray => simp [Expr.visits, Expr.nodes]
  | array items _ =>
    simp [Expr.visits, Expr.nodes, Visit.meet, Expr.call_mem_visitsList items]
  | object members =>
    simp [Expr.visits, Expr.nodes, Visit.meet, Expr.call_mem_visitsMembers members]
  | binary _ left right _ =>
    simp [Expr.visits, Expr.nodes, Visit.meet, Expr.call_mem_visits left,
      Expr.call_mem_visits right]
  | unary _ operand _ =>
    simp [Expr.visits, Expr.nodes, Visit.meet, Expr.call_mem_visits operand]
  | subscript base index _ =>
    simp [Expr.visits, Expr.nodes, Visit.meet, Expr.call_mem_visits base,
      Expr.call_mem_visits index]
  | member base _ _ => simp [Expr.visits, Expr.nodes, Visit.meet, Expr.call_mem_visits base]
  | call _ params _ =>
    simp [Expr.visits, Expr.nodes, Visit.meet, Expr.call_mem_visitsList params]

theorem Expr.call_mem_visitsList (es : List Expr) :
    Visit.call g args ty ∈ Expr.visitsList (fun _ => true) es ↔
      Node.expr (.call g args ty) ∈ Expr.nodesList es := by
  cases es with
  | nil => simp [Expr.visitsList, Expr.nodesList]
  | cons e es =>
    simp [Expr.visitsList, Expr.nodesList, Expr.call_mem_visits e, Expr.call_mem_visitsList es]

theorem Expr.call_mem_visitsMembers (members : List (String × Expr)) :
    Visit.call g args ty ∈ Expr.visitsMembers (fun _ => true) members ↔
      Node.expr (.call g args ty) ∈ Expr.nodesMembers members := by
  match members with
  | [] => simp [Expr.visitsMembers, Expr.nodesMembers]
  | (_, e) :: members =>
    simp [Expr.visitsMembers, Expr.nodesMembers, Expr.call_mem_visits e,
      Expr.call_mem_visitsMembers members]

end

mutual

/-- A walk that follows everything meets the calls in a statement, and no others. -/
theorem Stmt.call_mem_visits (s : Stmt) :
    Visit.call g args ty ∈ s.visits (fun _ => true) ↔ Node.expr (.call g args ty) ∈ s.nodes := by
  cases s with
  | breakLoop | returnNone => simp [Stmt.visits, Stmt.nodes]
  | declareVar _ init =>
    simp [Stmt.visits, Stmt.nodes, Visit.meet, Expr.call_mem_visits]
  | declareFunc _ body =>
    simp [Stmt.visits, Stmt.nodes, Visit.meet, Stmt.call_mem_visitsList body]
  | assign | bump | call | returnValue =>
    simp [Stmt.visits, Stmt.nodes, Visit.meet, Expr.call_mem_visits]
  | branch _ body orElse =>
    simp [Stmt.visits, Stmt.nodes, Visit.meet, Expr.call_mem_visits, Stmt.call_mem_visitsList body,
      Else.call_mem_visits orElse]
  | shortBranch _ body =>
    simp [Stmt.visits, Stmt.nodes, Visit.meet, Expr.call_mem_visits, Stmt.call_mem_visitsList body]
  | whileLoop _ body =>
    simp [Stmt.visits, Stmt.nodes, Visit.meet, Expr.call_mem_visits, Stmt.call_mem_visitsList body]
  | forEach _ _ body =>
    simp [Stmt.visits, Stmt.nodes, Visit.meet, Expr.call_mem_visits, Stmt.call_mem_visitsList body]
  | forTurn _ _ _ _ _ body =>
    simp [Stmt.visits, Stmt.nodes, Visit.meet, Expr.call_mem_visits, Stmt.call_mem_visitsList body]

theorem Else.call_mem_visits (e : Else) :
    Visit.call g args ty ∈ e.visits (fun _ => true) ↔ Node.expr (.call g args ty) ∈ e.nodes := by
  cases e with
  | elseIf _ body orElse =>
    simp [Else.visits, Else.nodes, Visit.meet, Expr.call_mem_visits, Stmt.call_mem_visitsList body,
      Else.call_mem_visits orElse]
  | block body => simp [Else.visits, Else.nodes, Visit.meet, Stmt.call_mem_visitsList body]

theorem Stmt.call_mem_visitsList (ss : List Stmt) :
    Visit.call g args ty ∈ Stmt.visitsList (fun _ => true) ss ↔
      Node.expr (.call g args ty) ∈ Stmt.nodesList ss := by
  cases ss with
  | nil => simp [Stmt.visitsList, Stmt.nodesList]
  | cons s ss =>
    simp [Stmt.visitsList, Stmt.nodesList, Stmt.call_mem_visits s, Stmt.call_mem_visitsList ss]

end

end Calls

/-- A function is found to call itself exactly when a call of it is a node of its body. -/
theorem callsItself_iff (f : Func) (body : List Stmt) :
    callsItself f body = true ↔
      ∃ g args ty, Node.expr (.call g args ty) ∈ Stmt.nodesList body ∧ g.id = f.id := by
  unfold callsItself
  rw [List.any_eq_true]
  constructor
  · rintro ⟨visit, hmem, hcall⟩
    split at hcall
    next g args ty =>
      refine ⟨g, args, ty, ?_, by simpa using hcall⟩
      rw [← Stmt.call_mem_visitsList]
      simpa [Stmt.visitsOf, Visit.meet] using hmem
    next => exact absurd hcall (by simp)
  · rintro ⟨g, args, ty, hmem, hid⟩
    refine ⟨.call g args ty, ?_, by simpa using hid⟩
    rw [← Stmt.call_mem_visitsList] at hmem
    simpa [Stmt.visitsOf, Visit.meet] using hmem

end Croupier
