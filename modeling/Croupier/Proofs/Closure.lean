import Croupier.Proofs.Pruning
import Croupier.Proofs.Resolution
import Croupier.Proofs.Simplified

/-!
# Compiled programs and their declarations

A typed program is closed: whatever it names, it declares before, in an enclosing frame, unless
the library does. Simplifying drops code, and declarations with it. Loops that never run do no
harm, because what is declared in their frames cannot be seen behind them. But the arms of an `if`
have no frames. A variable that is declared in an arm can be used behind the `if`, and when the
arm is dropped, the use stays. The program

> `if false { hand x = 1 }  raise(x)`

compiles to `raise(x)`, and nothing declares `x` (`Dangling.not_closed`).

That is all that can happen. In terms of events, simplifying is pruning (`Croupier.Proofs.Pruning`):
what it leaves out is balanced, and the only declarations that are lost are those in arms that are
skipped because of a literal test (`PassageSimplified.pruned`).

> `Program.compiled_closed`: whatever a compiled program names, it declares before, in an enclosing
> frame, or the library does, unless the declaration stood in a skipped arm.
-/

namespace Croupier

/-! ### Events of expressions -/

mutual

/-- Expressions do nothing but use entities. -/
theorem Expr.events_used (e : Expr) : ∀ event ∈ e.events, ∃ x, event = .used x := by
  match e with
  | .int _ | .float _ | .string _ | .bool _ | .emptyArray _ | .var _ | .func _ =>
    simp [Expr.events]
  | .array items _ => exact Expr.eventsList_used items
  | .object members => exact Expr.eventsMembers_used members
  | .binary (.operator _) left right _ | .subscript left right _ =>
    simp only [Expr.events, List.mem_append]
    rintro event (h | h)
    · exact Expr.events_used left event h
    · exact Expr.events_used right event h
  | .binary (.intrinsic _) left right _ =>
    simp only [Expr.events, List.mem_cons, List.mem_append]
    rintro event (rfl | h | h)
    · exact ⟨_, rfl⟩
    · exact Expr.events_used left event h
    · exact Expr.events_used right event h
  | .unary (.operator _) operand _ | .member operand _ _ => exact Expr.events_used operand
  | .unary (.intrinsic _) operand _ =>
    simp only [Expr.events, List.mem_cons]
    rintro event (rfl | h)
    · exact ⟨_, rfl⟩
    · exact Expr.events_used operand event h
  | .call _ args _ =>
    simp only [Expr.events, List.mem_cons]
    rintro event (rfl | h)
    · exact ⟨_, rfl⟩
    · exact Expr.eventsList_used args event h

theorem Expr.eventsList_used (es : List Expr) :
    ∀ event ∈ Expr.eventsList es, ∃ x, event = .used x := by
  match es with
  | [] => simp [Expr.eventsList]
  | e :: es =>
    simp only [Expr.eventsList, List.mem_append]
    rintro event (h | h)
    · exact Expr.events_used e event h
    · exact Expr.eventsList_used es event h

theorem Expr.eventsMembers_used (members : List (String × Expr)) :
    ∀ event ∈ Expr.eventsMembers members, ∃ x, event = .used x := by
  match members with
  | [] => simp [Expr.eventsMembers]
  | (_, e) :: members =>
    simp only [Expr.eventsMembers, List.mem_append]
    rintro event (h | h)
    · exact Expr.events_used e event h
    · exact Expr.eventsMembers_used members event h

end

/-- A literal uses nothing. -/
theorem Expr.Literal.events_eq {e : Expr} (h : e.Literal) : e.events = [] := by
  cases h <;> rfl

/-- What is left of an operation uses what its operands use, in the same order. -/
theorem OperationLeft.events_sublist {returns : Returns} {op : BinaryOperator} {left right e : Expr}
    {ty : Ty} (h : OperationLeft returns op left right ty e) :
    e.events.Sublist (left.events ++ right.events) := by
  cases h with
  | kept => exact List.Sublist.refl _
  | left => exact List.sublist_append_left _ _
  | right | negation => exact List.sublist_append_right _ _
  | literal he =>
    rw [he.events_eq]
    exact List.nil_sublist _

/-- A simplified expression uses, in the same order, some of the entities that were used before. -/
theorem PhraseSimplified.events_sublist {returns : Returns} {d d' : Phrase}
    (h : PhraseSimplified returns d d') : d'.events.Sublist d.events := by
  induction h with
  | int | float | string | bool | func | emptyArray | var | listNil | membersNil =>
    exact List.Sublist.refl _
  | truth | decided => exact List.nil_sublist _
  | shortLeft _ _ ih => exact ih.trans (List.sublist_append_left _ _)
  | shortRight _ _ ih => exact ih.trans (List.sublist_append_right _ _)
  | operation _ _ _ he ihleft ihright => exact he.events_sublist.trans (ihleft.append ihright)
  | intrinsicBinary _ _ ihleft ihright => exact (ihleft.append ihright).cons_cons _
  | @unary head _ _ _ ih =>
    cases head with
    | operator => exact ih
    | intrinsic => exact ih.cons_cons _
  | negative =>
    rw [Phrase.events, (Numeral.expr_literal _).events_eq]
    exact List.nil_sublist _
  | call _ ih => exact ih.cons_cons _
  | member _ ih | array _ ih | object _ ih => exact ih
  | subscript _ _ ihfirst ihrest | listCons _ _ ihfirst ihrest | membersCons _ _ ihfirst ihrest =>
    exact ihfirst.append ihrest

section Pruning

variable {lost : Entity → Prop}

/-- Simplifying an expression only takes uses away. -/
theorem Expr.pruned (returns : Returns) (e : Expr) :
    Pruned lost e.events (e.simplify returns).events :=
  .of_uses e.events_used (phraseSimplified_expr returns e).events_sublist

theorem Expr.prunedList (returns : Returns) (es : List Expr) :
    Pruned lost (Expr.eventsList es) (Expr.eventsList (Expr.simplifyList returns es)) :=
  .of_uses (Expr.eventsList_used es) (phraseSimplified_list returns es).events_sublist

/-- An expression may go altogether, since it only uses and never declares. -/
theorem Expr.pruned_nil (e : Expr) : Pruned lost e.events [] :=
  .of_uses e.events_used (List.nil_sublist _)

end Pruning

/-! ### Events of statements -/

/-- Declarations open nothing and close nothing. -/
theorem Event.balanced_declaredAll (vars : List Var) :
    Balanced (vars.map (fun v => Event.declared (Entity.var v))) := by
  induction vars with
  | nil => exact .nil
  | cons v vs ih => exact (Balanced.declared (.var v)).append ih

mutual

/-- A statement closes the frames that it opens. -/
theorem Stmt.events_balanced (s : Stmt) : Balanced s.events := by
  match s with
  | .declareVar v init => exact (Balanced.of_uses init.events_used).append (.declared (.var v))
  | .declareFunc f body =>
    exact (Balanced.declared (.func f)).append
      (((Event.balanced_declaredAll f.params).append (Stmt.eventsList_balanced body)).framed)
  | .bump _ e | .call e | .returnValue e => exact .of_uses e.events_used
  | .assign target source =>
    exact (Balanced.of_uses target.events_used).append (.of_uses source.events_used)
  | .breakLoop | .returnNone => exact .nil
  | .branch test body orElse =>
    exact (Balanced.of_uses test.events_used).append
      ((Stmt.eventsList_balanced body).append (Else.events_balanced orElse))
  | .shortBranch test body =>
    exact (Balanced.of_uses test.events_used).append (Stmt.eventsList_balanced body)
  | .whileLoop test body =>
    exact (Balanced.of_uses test.events_used).append (Stmt.eventsList_balanced body).framed
  | .forEach iterator collection body =>
    exact (Balanced.of_uses collection.events_used).append
      ((Balanced.declared (.var iterator)).append (Stmt.eventsList_balanced body)).framed
  | .forTurn iterator low high step _ body =>
    exact (Balanced.of_uses (Expr.eventsList_used [low, high, step])).append
      ((Balanced.declared (.var iterator)).append (Stmt.eventsList_balanced body)).framed

theorem Else.events_balanced (e : Else) : Balanced e.events := by
  match e with
  | .elseIf test body orElse =>
    exact (Balanced.of_uses test.events_used).append
      ((Stmt.eventsList_balanced body).append (Else.events_balanced orElse))
  | .block body => exact Stmt.eventsList_balanced body

/-- A block closes the frames that it opens. -/
theorem Stmt.eventsList_balanced (ss : List Stmt) : Balanced (Stmt.eventsList ss) := by
  match ss with
  | [] => exact .nil
  | s :: ss => exact (Stmt.events_balanced s).append (Stmt.eventsList_balanced ss)

end

/-- Statements that follow each other have their events one after the other. -/
theorem Stmt.eventsList_append (ss ts : List Stmt) :
    Stmt.eventsList (ss ++ ts) = Stmt.eventsList ss ++ Stmt.eventsList ts := by
  induction ss with
  | nil => rfl
  | cons s ss ih => rw [List.cons_append, Stmt.eventsList, Stmt.eventsList, ih, List.append_assoc]

theorem Passage.events_single (s : Stmt) : (Passage.block [s]).events = s.events :=
  List.append_nil _

/-- Arms have the events of the statements they amount to. -/
theorem Else.eventsList_statements (e : Else) : Stmt.eventsList e.statements = e.events := by
  cases e with
  | elseIf => exact List.append_nil _
  | block => rfl

/-! ### What simplifying loses -/

/-- The statements are an arm of an `if` among the nodes, and the test says that another one is
taken. -/
inductive Skipped (returns : Returns) (nodes : List Node) : List Stmt → Prop where
  | body {test : Expr} {body : List Stmt} {orElse : Else}
      (hif : .stmt (.branch test body orElse) ∈ nodes)
      (htest : test.simplify returns = .bool false) : Skipped returns nodes body
  | orElse {test : Expr} {body : List Stmt} {orElse : Else}
      (hif : .stmt (.branch test body orElse) ∈ nodes)
      (htest : test.simplify returns = .bool true) : Skipped returns nodes orElse.statements
  | short {test : Expr} {body : List Stmt} (hif : .stmt (.shortBranch test body) ∈ nodes)
      (htest : test.simplify returns = .bool false) : Skipped returns nodes body

/-- The entity is declared in a skipped arm, and visible behind it. -/
def Lost (returns : Returns) (nodes : List Node) (x : Entity) : Prop :=
  ∃ arm l k, Skipped returns nodes arm ∧ DeclaredIn (Stmt.eventsList arm) l x k

/-- An arm that is skipped may go with all its events. -/
theorem Skipped.pruned {returns : Returns} {nodes : List Node} {arm : List Stmt}
    (h : Skipped returns nodes arm) : Pruned (Lost returns nodes) (Stmt.eventsList arm) [] :=
  .all (Stmt.eventsList_balanced arm) (fun l _ k hdeclared => ⟨arm, l, k, h, hdeclared⟩)

/-- What is left of a passage is what pruning leaves, and nothing is lost except in skipped arms. -/
theorem PassageSimplified.pruned {returns : Returns} {nodes : List Node} {d d' : Passage}
    (h : PassageSimplified returns d d') (hnodes : ∀ s, .stmt s ∈ d.nodes → .stmt s ∈ nodes) :
    Pruned (Lost returns nodes) d.events d'.events := by
  induction h with
  -- Statements that stay: their parts are pruned one by one.
  | declareVar =>
    rw [Passage.events_single]
    exact (Expr.pruned returns _).append (.refl _)
  | declareFunc _ ih =>
    rw [Passage.events_single]
    have hbody := ih (fun s hs => hnodes s (Stmt.mem_nodes_of_inside hs))
    exact .keep _ (((Pruned.refl _).append hbody).framed)
  | assign =>
    rw [Passage.events_single]
    exact (Expr.pruned returns _).append (Expr.pruned returns _)
  | bump | call | returnValue =>
    rw [Passage.events_single]
    exact Expr.pruned returns _
  | breakLoop | returnNone | nil => exact .nil
  | branch _ _ _ ihbody ihelse =>
    rw [Passage.events_single]
    have hbody := ihbody (fun s hs =>
      hnodes s (Stmt.mem_nodes_of_inside (List.mem_append_left _ hs)))
    have helse := ihelse (fun s hs =>
      hnodes s (Stmt.mem_nodes_of_inside (List.mem_append_right _ hs)))
    exact (Expr.pruned returns _).append (hbody.append helse)
  | shortBranch _ _ ih =>
    rw [Passage.events_single]
    have hbody := ih (fun s hs => hnodes s (Stmt.mem_nodes_of_inside hs))
    exact (Expr.pruned returns _).append hbody
  | whileLoop _ _ ih =>
    rw [Passage.events_single]
    have hbody := ih (fun s hs => hnodes s (Stmt.mem_nodes_of_inside hs))
    exact (Expr.pruned returns _).append hbody.framed
  | forEach _ _ ih =>
    rw [Passage.events_single]
    have hbody := ih (fun s hs => hnodes s (Stmt.mem_nodes_of_inside hs))
    exact (Expr.pruned returns _).append (Pruned.keep _ hbody).framed
  | @forTurn _ low high step _ _ _ _ ih =>
    rw [Passage.events_single]
    have hbody := ih (fun s hs => hnodes s (Stmt.mem_nodes_of_inside hs))
    exact (Expr.prunedList returns [low, high, step]).append (Pruned.keep _ hbody).framed
  -- Statements that disappear: what they declare is hidden in frames of their own.
  | assignSelf => exact (Expr.pruned_nil _).append (Expr.pruned_nil _)
  | @whileNever test body =>
    exact .hidden (Stmt.events_balanced _)
      ((Hidden.of_uses test.events_used).append (.framed (Stmt.eventsList_balanced body)))
  | @forEachNever iterator collection body =>
    have hinner := (Balanced.declared (.var iterator)).append (Stmt.eventsList_balanced body)
    exact .hidden (Stmt.events_balanced _)
      ((Hidden.of_uses collection.events_used).append (.framed hinner))
  | @forTurnNever iterator low high step _ body =>
    have hinner := (Balanced.declared (.var iterator)).append (Stmt.eventsList_balanced body)
    exact .hidden (Stmt.events_balanced _)
      ((Hidden.of_uses (Expr.eventsList_used [low, high, step])).append (.framed hinner))
  -- Arms that are skipped.
  | @branchTaken test body orElse htest _ ih =>
    have hif := hnodes _ (Stmt.mem_nodes_self _)
    have hbody := ih (fun s hs =>
      hnodes s (Stmt.mem_nodes_of_inside (List.mem_append_left _ hs)))
    have harm := (Skipped.orElse hif htest).pruned
    rw [Else.eventsList_statements] at harm
    have hall := test.pruned_nil.append (hbody.append harm)
    rwa [List.append_nil] at hall
  | @branchPassed test body orElse htest _ ih =>
    have hif := hnodes _ (Stmt.mem_nodes_self _)
    have helse := ih (fun s hs =>
      hnodes s (Stmt.mem_nodes_of_inside (List.mem_append_right _ hs)))
    show Pruned _ _ (Stmt.eventsList _)
    rw [Else.eventsList_statements]
    exact test.pruned_nil.append ((Skipped.body hif htest).pruned.append helse)
  | @shortTaken test body _ _ ih =>
    have hbody := ih (fun s hs => hnodes s (Stmt.mem_nodes_of_inside hs))
    exact test.pruned_nil.append hbody
  | @shortPassed test body htest =>
    have hif := hnodes _ (Stmt.mem_nodes_self _)
    exact test.pruned_nil.append (Skipped.short hif htest).pruned
  | elseIf _ ih =>
    show Pruned _ _ (Else.events _)
    rw [← Else.eventsList_statements, Else.statements_ofList]
    exact ih hnodes
  | block _ ih => exact ih hnodes
  | cons _ _ ihfirst ihrest =>
    show Pruned _ _ (Stmt.eventsList _)
    rw [Stmt.eventsList_append]
    exact (ihfirst (fun s hs => hnodes s (List.mem_append_left _ hs))).append
      (ihrest (fun s hs => hnodes s (List.mem_append_right _ hs)))

/-! ### Whole programs -/

/-- Whatever the program names is declared before, in an enclosing frame. The outermost frame is
the library's. -/
def Program.Closed (p : Program) : Prop :=
  ∀ before x after, p.events = before ++ .used x :: after → ∃ l k, DeclaredIn before l x k

/-- A typed program is closed. -/
theorem Program.closed_of_lower {strictness : Strictness} {tree : List Source.Stmt} {p : Program}
    (h : Source.lower strictness tree = .ok p) : p.Closed := by
  obtain ⟨last, session, hlowered, _⟩ := passageLowered_of_program h
  intro before x after hsplit
  have hresolved := Library.events_resolved.append (hlowered.traced .initial).resolved
  obtain ⟨_, l, k, hdeclared, _⟩ := hresolved before x after hsplit
  exact ⟨l, k, hdeclared⟩

/-- A compiled program is closed, up to declarations in skipped arms. Every entity that a node of
it refers to is in use, and every entity in use is declared before by the program or the library,
in an enclosing frame, unless the typed program declares it in an arm that is skipped. -/
theorem Program.compiled_closed {strictness : Strictness} {tree : List Source.Stmt} {q : Program}
    (h : compile strictness tree = .ok q) :
    (∀ node ∈ q.nodes, ∀ x, node.entity? = some x → .used x ∈ q.events) ∧
    ∃ p, Source.lower strictness tree = .ok p ∧ p.simplify = q ∧
      ∀ before x after, q.events = before ++ .used x :: after →
        (∃ l k, DeclaredIn before l x k) ∨ Lost p.returns p.nodes x := by
  obtain ⟨p, hp, rfl⟩ := compile_eq_ok h
  refine ⟨fun node hnode x hx => ?_, p, hp, rfl, fun before' x after' hsplit => ?_⟩
  · exact List.mem_append_right _ ((Stmt.used_mem_eventsList x _).mpr ⟨node, hnode, hx⟩)
  · have hbody := (passageSimplified_list p.returns p.body).pruned (fun _ hs => hs)
    have hpruned : Pruned (Lost p.returns p.nodes) p.events p.simplify.events :=
      (Pruned.refl Library.events).append hbody
    rw [hsplit] at hpruned
    obtain ⟨before, after, hbefore, hpruned⟩ := hpruned.of_used
    obtain ⟨l, k, hdeclared⟩ := Program.closed_of_lower hp before x after hbefore
    rcases hpruned.declaredIn hdeclared with ⟨l', hstill⟩ | hlost
    · exact Or.inl ⟨l', k, hstill⟩
    · exact Or.inr hlost

namespace Dangling

open Source (mention number declare)

def raise (args : List Source.Expr) : Source.Stmt :=
  .call .none (.call .none (mention "raise") args)

def x : Var := ⟨14, "x", .mutable, .int⟩

def y : Var := ⟨15, "y", .mutable, .int⟩

/-- `if 1 < 2 { hand x = 1 } else { hand y = 2 }  while x < 3 { raise(x, y)  x++ }`. -/
def source : List Source.Stmt :=
  [.branch .none (.binary .none .less (number 1) (number 2)) [declare "x" (number 1)]
      (.block [declare "y" (number 2)]),
    .whileLoop .none (.binary .none .less (mention "x") (number 3))
      [raise [mention "x", mention "y"], .bump .none .increment (mention "x")]]

def compiled : Program :=
  ⟨[.declareVar x (.int 1),
    .whileLoop (.binary (.operator .less) (.var x) (.int 3) .boolean)
      [.call (.call Library.raise [.var x, .var y] .any), .bump .increment (.var x)]], []⟩

/-- Here `x` is declared and `y` is not; but `y` was declared in the arm that is skipped. -/
theorem compiled_closed_up_to_y :
    (∀ node ∈ compiled.nodes, ∀ x, node.entity? = some x → .used x ∈ compiled.events) ∧
    ∃ p, Source.lower .strict source = .ok p ∧ p.simplify = compiled ∧
      ∀ before x after, compiled.events = before ++ .used x :: after →
        (∃ l k, DeclaredIn before l x k) ∨ Lost p.returns p.nodes x :=
  have hcompiled : compile .strict source = .ok compiled := rfl
  Program.compiled_closed hcompiled

/-- `if false { hand x = 1 }  raise(x)`. -/
def skipped : List Source.Stmt :=
  [.branch .none (.bool .none false) [declare "x" (number 1)] .nothing, raise [mention "x"]]

def left : Program := ⟨[.call (.call Library.raise [.var x] .any)], []⟩

/-- A compiled program that uses a variable and declares none. -/
theorem not_closed : compile .lenient skipped = .ok left ∧ .expr (.var x) ∈ left.nodes ∧
    ¬ left.Closed := by
  refine ⟨rfl, by simp [left, Program.nodes, Stmt.nodesList, Stmt.nodes, Expr.nodes,
    Expr.nodesList], fun hclosed => ?_⟩
  obtain ⟨l, k, r, hsplit, _⟩ :=
    hclosed (Library.events ++ [.used (.func Library.raise)]) (.var x) [] rfl
  -- The number of `x` is among none of the declarations before.
  have hdeclared : Event.declared 14 ∈
      (Library.events ++ [Event.used (Entity.func Library.raise)]).map (Event.map Entity.id) := by
    rw [hsplit]
    simp [Event.map, Entity.id, x]
  exact absurd hdeclared (by decide)

end Dangling

end Croupier
