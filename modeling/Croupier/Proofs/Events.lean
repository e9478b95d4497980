import Croupier.Proofs.Coherence
import Croupier.Proofs.Scoping

/-!
# What happens to names in a program

`Source.events` lists what happens to names in a program as written, and `Program.events` does so
for a typed program, with entities in place of names. Both lists spell out the language's rules
of visibility by the order of events:

* the library is declared before everything else, and the program has a frame of its own;
* a variable is declared behind its initial value, so that it is not visible in it;
* a function is declared before its body, so that it is visible in it; the body is framed, and
  the parameters come first in it;
* bounds, steps and collections of loops come before the frame of the body, and the iterator
  comes first in it;
* the arms of an `if` have no frames.

> `Stmt.used_mem_eventsList`: the events of a typed program use exactly the entities that its
> nodes refer to.
-/

namespace Croupier

open Event (framed)

/-! ### Events of a program -/

namespace Source

mutual

/-- What happens to names in an expression. -/
def Expr.events : Expr → List (Event String)
  | .int _ _ | .float _ _ | .string _ _ | .bool _ _ => []
  | .ident _ name => [.used name.name]
  | .binary _ _ left right => left.events ++ right.events
  | .unary _ _ operand => operand.events
  | .call _ callee args => callee.events ++ Expr.eventsList args
  | .subscript _ base index => base.events ++ index.events
  | .member _ base _ => base.events
  | .array _ items => Expr.eventsList items
  | .object _ members => Expr.eventsMembers members

/-- What happens to names in several expressions. -/
def Expr.eventsList : List Expr → List (Event String)
  | [] => []
  | e :: es => e.events ++ Expr.eventsList es

/-- What happens to names in the members of an object. -/
def Expr.eventsMembers : List (String × Expr) → List (Event String)
  | [] => []
  | (_, e) :: members => e.events ++ Expr.eventsMembers members

end

mutual

/-- What happens to names in a statement. -/
def Stmt.events : Stmt → List (Event String)
  | .declareVar _ _ name init => init.events ++ [.declared name.name]
  | .declareFunc _ name params _ _ body =>
    .declared name.name ::
      framed (params.map (fun p => .declared p.name.name) ++ Stmt.eventsList body)
  | .bump _ _ e | .call _ e | .returnValue _ e => e.events
  | .assign _ target source => target.events ++ source.events
  | .breakLoop _ | .returnNone _ => []
  | .branch _ test body orElse => test.events ++ (Stmt.eventsList body ++ orElse.events)
  | .whileLoop _ test body => test.events ++ framed (Stmt.eventsList body)
  | .forEach _ iterator collection body =>
    collection.events ++ framed (.declared iterator.name :: Stmt.eventsList body)
  | .forTurn _ iterator _ args body =>
    Expr.eventsList args ++ framed (.declared iterator.name :: Stmt.eventsList body)

/-- What happens to names in the further arms of an `if`. -/
def Else.events : Else → List (Event String)
  | .nothing => []
  | .elseIf test body orElse => test.events ++ (Stmt.eventsList body ++ orElse.events)
  | .block body => Stmt.eventsList body

/-- What happens to names in statements that follow each other. -/
def Stmt.eventsList : List Stmt → List (Event String)
  | [] => []
  | s :: ss => s.events ++ Stmt.eventsList ss

end

def Phrase.events : Phrase → List (Event String)
  | expr e => e.events
  | list es => Expr.eventsList es
  | members ms => Expr.eventsMembers ms

def Passage.events : Passage → List (Event String)
  | stmt s => s.events
  | arms e => e.events
  | block ss => Stmt.eventsList ss

end Source

mutual

/-- What happens to entities in an expression. An operation that computes an intrinsic uses the
function behind it. -/
def Expr.events : Expr → List (Event Entity)
  | .int _ | .float _ | .string _ | .bool _ | .emptyArray _ => []
  | .var v => [.used (.var v)]
  | .func f => [.used (.func f)]
  | .array items _ => Expr.eventsList items
  | .object members => Expr.eventsMembers members
  | .binary (.operator _) left right _ => left.events ++ right.events
  | .binary (.intrinsic i) left right _ => .used (.func i.func) :: (left.events ++ right.events)
  | .unary (.operator _) operand _ => operand.events
  | .unary (.intrinsic i) operand _ => .used (.func i.func) :: operand.events
  | .subscript base index _ => base.events ++ index.events
  | .member base _ _ => base.events
  | .call callee args _ => .used (.func callee) :: Expr.eventsList args

/-- What happens to entities in several expressions. -/
def Expr.eventsList : List Expr → List (Event Entity)
  | [] => []
  | e :: es => e.events ++ Expr.eventsList es

/-- What happens to entities in the members of an object. -/
def Expr.eventsMembers : List (String × Expr) → List (Event Entity)
  | [] => []
  | (_, e) :: members => e.events ++ Expr.eventsMembers members

end

mutual

/-- What happens to entities in a statement. -/
def Stmt.events : Stmt → List (Event Entity)
  | .declareVar v init => init.events ++ [.declared (.var v)]
  | .declareFunc f body =>
    .declared (.func f) ::
      framed (f.params.map (fun v => .declared (.var v)) ++ Stmt.eventsList body)
  | .bump _ e | .call e | .returnValue e => e.events
  | .assign target source => target.events ++ source.events
  | .breakLoop | .returnNone => []
  | .branch test body orElse => test.events ++ (Stmt.eventsList body ++ orElse.events)
  | .shortBranch test body => test.events ++ Stmt.eventsList body
  | .whileLoop test body => test.events ++ framed (Stmt.eventsList body)
  | .forEach iterator collection body =>
    collection.events ++ framed (.declared (.var iterator) :: Stmt.eventsList body)
  | .forTurn iterator low high step _ body =>
    Expr.eventsList [low, high, step] ++
      framed (.declared (.var iterator) :: Stmt.eventsList body)

/-- What happens to entities in the further arms of an `if`. -/
def Else.events : Else → List (Event Entity)
  | .elseIf test body orElse => test.events ++ (Stmt.eventsList body ++ orElse.events)
  | .block body => Stmt.eventsList body

/-- What happens to entities in statements that follow each other. -/
def Stmt.eventsList : List Stmt → List (Event Entity)
  | [] => []
  | s :: ss => s.events ++ Stmt.eventsList ss

end

def Phrase.events : Phrase → List (Event Entity)
  | expr e => e.events
  | list es => Expr.eventsList es
  | members ms => Expr.eventsMembers ms

def Passage.events : Passage → List (Event Entity)
  | stmt s => s.events
  | arms e => e.events
  | block ss => Stmt.eventsList ss

/-- The library is declared first of all, and then the frame of the program is opened. -/
def Library.events : List (Event Entity) :=
  Library.bindings.map (fun b => .declared b.2) ++ [.opened]

/-- What happens to entities in a program. -/
def Program.events (p : Program) : List (Event Entity) := Library.events ++ Stmt.eventsList p.body

/-- What happens to names in a program as written. -/
def Source.events (tree : List Source.Stmt) : List (Event String) :=
  Library.bindings.map (fun b => .declared b.1) ++ [.opened] ++ Source.Stmt.eventsList tree

/-! ### Uses are nodes -/

/-- The entity that an expression refers to by itself. -/
def Expr.entity? : Expr → Option Entity
  | .var v => some (.var v)
  | .func f => some (.func f)
  | .call callee _ _ => some (.func callee)
  | .binary (.intrinsic i) _ _ _ | .unary (.intrinsic i) _ _ => some (.func i.func)
  | _ => none

/-- The entity that a node refers to. Statements refer to none, their expressions do. -/
def Node.entity? : Node → Option Entity
  | .expr e => e.entity?
  | .stmt _ => none

@[simp]
theorem Node.entity?_expr (e : Expr) : (Node.expr e).entity? = e.entity? := rfl

@[simp]
theorem Node.entity?_stmt (s : Stmt) : (Node.stmt s).entity? = none := rfl

/-- A frame around events uses what they use. -/
theorem Event.used_mem_framed {α : Type} {a : α} {inner : List (Event α)} :
    .used a ∈ framed inner ↔ .used a ∈ inner := by
  simp [framed]

section Uses

variable (x : Entity)

mutual

/-- The entities in use are those that the nodes of an expression refer to. -/
theorem Expr.used_mem_events (e : Expr) :
    .used x ∈ e.events ↔ ∃ node ∈ e.nodes, node.entity? = some x := by
  match e with
  | .int _ | .float _ | .string _ | .bool _ | .emptyArray _ =>
    simp [Expr.events, Expr.nodes, Expr.entity?]
  | .var _ | .func _ => simp [Expr.events, Expr.nodes, Expr.entity?, eq_comm]
  | .array items _ =>
    simp [Expr.events, Expr.nodes, Expr.entity?, Expr.used_mem_eventsList items]
  | .object members =>
    simp [Expr.events, Expr.nodes, Expr.entity?, Expr.used_mem_eventsMembers members]
  | .binary (.operator _) left right _ | .subscript left right _ =>
    simp [Expr.events, Expr.nodes, Expr.entity?, Expr.used_mem_events left,
      Expr.used_mem_events right, or_and_right, exists_or]
  | .binary (.intrinsic _) left right _ =>
    simp [Expr.events, Expr.nodes, Expr.entity?, Expr.used_mem_events left,
      Expr.used_mem_events right, or_and_right, exists_or, eq_comm]
  | .unary (.operator _) operand _ | .member operand _ _ =>
    simp [Expr.events, Expr.nodes, Expr.entity?, Expr.used_mem_events operand]
  | .unary (.intrinsic _) operand _ =>
    simp [Expr.events, Expr.nodes, Expr.entity?, Expr.used_mem_events operand, eq_comm]
  | .call _ args _ =>
    simp [Expr.events, Expr.nodes, Expr.entity?, Expr.used_mem_eventsList args, eq_comm]

theorem Expr.used_mem_eventsList (es : List Expr) :
    .used x ∈ Expr.eventsList es ↔ ∃ node ∈ Expr.nodesList es, node.entity? = some x := by
  match es with
  | [] => simp [Expr.eventsList, Expr.nodesList]
  | e :: es =>
    simp [Expr.eventsList, Expr.nodesList, Expr.used_mem_events e, Expr.used_mem_eventsList es,
      or_and_right, exists_or]

theorem Expr.used_mem_eventsMembers (members : List (String × Expr)) :
    .used x ∈ Expr.eventsMembers members ↔
      ∃ node ∈ Expr.nodesMembers members, node.entity? = some x := by
  match members with
  | [] => simp [Expr.eventsMembers, Expr.nodesMembers]
  | (_, e) :: members =>
    simp [Expr.eventsMembers, Expr.nodesMembers, Expr.used_mem_events e,
      Expr.used_mem_eventsMembers members, or_and_right, exists_or]

end

mutual

/-- The events of a statement use exactly what is mentioned in its nodes. -/
theorem Stmt.used_mem_events (s : Stmt) :
    .used x ∈ s.events ↔ ∃ node ∈ s.nodes, node.entity? = some x := by
  match s with
  | .breakLoop | .returnNone => simp [Stmt.events, Stmt.nodes]
  | .declareVar _ e | .bump _ e | .call e | .returnValue e =>
    simp [Stmt.events, Stmt.nodes, Expr.used_mem_events x e]
  | .declareFunc _ body =>
    simp [Stmt.events, Stmt.nodes, Event.used_mem_framed,
      Stmt.used_mem_eventsList body]
  | .assign target source =>
    simp [Stmt.events, Stmt.nodes, Expr.used_mem_events x target,
      Expr.used_mem_events x source, or_and_right, exists_or]
  | .branch test body orElse =>
    simp [Stmt.events, Stmt.nodes, Expr.used_mem_events x test,
      Stmt.used_mem_eventsList body, Else.used_mem_events orElse, or_and_right, exists_or]
  | .shortBranch e body =>
    simp [Stmt.events, Stmt.nodes, Expr.used_mem_events x e,
      Stmt.used_mem_eventsList body, or_and_right, exists_or]
  | .whileLoop e body | .forEach _ e body =>
    simp [Stmt.events, Stmt.nodes, Event.used_mem_framed,
      Expr.used_mem_events x e, Stmt.used_mem_eventsList body, or_and_right, exists_or]
  | .forTurn _ low high step _ body =>
    simp [Stmt.events, Stmt.nodes, Event.used_mem_framed,
      Expr.used_mem_eventsList x [low, high, step], Expr.nodesList,
      Stmt.used_mem_eventsList body, or_and_right, exists_or, or_assoc]

theorem Else.used_mem_events (e : Else) :
    .used x ∈ e.events ↔ ∃ node ∈ e.nodes, node.entity? = some x := by
  match e with
  | .elseIf test body orElse =>
    simp [Else.events, Else.nodes, Expr.used_mem_events x test,
      Stmt.used_mem_eventsList body, Else.used_mem_events orElse, or_and_right, exists_or]
  | .block body => exact Stmt.used_mem_eventsList body

theorem Stmt.used_mem_eventsList (ss : List Stmt) :
    .used x ∈ Stmt.eventsList ss ↔ ∃ node ∈ Stmt.nodesList ss, node.entity? = some x := by
  match ss with
  | [] => simp [Stmt.eventsList, Stmt.nodesList]
  | s :: ss =>
    simp [Stmt.eventsList, Stmt.nodesList, Stmt.used_mem_events s, Stmt.used_mem_eventsList ss,
      or_and_right, exists_or]

end

end Uses

end Croupier
