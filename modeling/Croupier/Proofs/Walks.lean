import Croupier.Proofs.Nodes

/-!
# What a walk meets

A walk through a program (`Stmt.visitsOf`) can be told what not to look into: below a visit that is
not followed it meets nothing. This module says what such a walk meets, in two ways that do not
depend on how the walk is carried out.

The first is about the whole walk, on which everything is followed. What it meets are the nodes of
the program (`Program.nodes`) and its statements (`Program.statements`), each once and in the order
in which they are written; and besides, in a guise of its own, every call, declaration, assignment,
`return`, `for` and arm of an `if` (`Visit.Meets`).

The second is about places. A visit leads to others, one for each of its parts (`Visit.parts`), so
that a list of part numbers is a place, and at a place there is a visit, with the visits that it
lies below (`Visit.trailTo?`). Listed in the order of their places, these are the visits of the
whole walk; and the visits of any other walk are those of them that lie below nothing that is not
followed. In that order, which is lexicographic, a place comes before the places inside it and these
come part by part.

> `Program.visits_placed`: both, for the walk through a program.
-/

namespace Croupier

/-! ### Statements and guises -/

mutual

/-- A statement and all statements within it. The further arms of an `if` are no statements, but
they have statements within them. -/
def Stmt.statements : Stmt → List Stmt
  | .declareFunc f body => .declareFunc f body :: Stmt.statementsList body
  | .branch test body orElse =>
    .branch test body orElse :: (Stmt.statementsList body ++ orElse.statementsWithin)
  | .shortBranch test body => .shortBranch test body :: Stmt.statementsList body
  | .whileLoop test body => .whileLoop test body :: Stmt.statementsList body
  | .forEach iterator collection body =>
    .forEach iterator collection body :: Stmt.statementsList body
  | .forTurn iterator low high step direction body =>
    .forTurn iterator low high step direction body :: Stmt.statementsList body
  | s@(.declareVar _ _) | s@(.assign _ _) | s@(.bump _ _) | s@(.call _) | s@.breakLoop
  | s@(.returnValue _) | s@.returnNone => [s]

/-- The statements within the further arms of an `if`. -/
def Else.statementsWithin : Else → List Stmt
  | .elseIf _ body orElse => Stmt.statementsList body ++ orElse.statementsWithin
  | .block body => Stmt.statementsList body

/-- Statements that follow each other, with all statements within them. -/
def Stmt.statementsList : List Stmt → List Stmt
  | [] => []
  | s :: ss => s.statements ++ Stmt.statementsList ss

end

/-- All statements of a program. -/
def Program.statements (p : Program) : List Stmt := Stmt.statementsList p.body

def Node.expression? : Node → Option Expr
  | .expr e => some e
  | .stmt _ => none

/-- The visit as which a node is met besides as an expression or a statement. -/
def Node.guise? : Node → Option Visit
  | .expr (.call callee args ty) => some (.call callee args ty)
  | .stmt (.declareVar v init) => some (.declareVar v init)
  | .stmt (.declareFunc f body) => some (.declareFunc f body)
  | .stmt (.assign target source) => some (.assign target source)
  | .stmt (.returnValue value) => some (.returnValue value)
  | .stmt (.branch test body orElse) => some (.arm test body orElse)
  | .stmt (.forEach iterator collection body) => some (.forEach iterator collection body)
  | .stmt (.forTurn iterator low high step direction body) =>
    some (.forTurn iterator low high step direction body)
  | .expr _ | .stmt _ => none

namespace Visit

def expression? : Visit → Option Expr
  | expression e => some e
  | _ => none

def statement? : Visit → Option Stmt
  | statement s => some s
  | _ => none

/-- Something is met in a guise of its own, and not as a block, a statement or an expression. -/
def isGuise : Visit → Bool
  | block _ | statement _ | expression _ => false
  | declareVar _ _ | declareFunc _ _ | assign _ _ | returnValue _ | arm _ _ _ | forEach _ _ _
  | forTurn _ _ _ _ _ _ | call _ _ _ => true

/-- The visits meet each of the nodes and of the statements once and in order: one visit for each
expression, one for each statement, and one for each node that has a guise of its own. -/
structure Meets (visits : List Visit) (nodes : List Node) (statements : List Stmt) : Prop where
  expressions : visits.filterMap expression? = nodes.filterMap Node.expression?
  statements : visits.filterMap statement? = statements
  guises : visits.filter isGuise = nodes.filterMap Node.guise?

namespace Meets

variable {visits visits' : List Visit} {nodes nodes' : List Node} {ss ss' : List Stmt}

theorem nil : Meets [] [] [] := ⟨rfl, rfl, rfl⟩

/-- Walks that follow each other meet what each of them meets. -/
theorem append (h : Meets visits nodes ss) (h' : Meets visits' nodes' ss') :
    Meets (visits ++ visits') (nodes ++ nodes') (ss ++ ss') where
  expressions := by rw [List.filterMap_append, List.filterMap_append, h.expressions, h'.expressions]
  statements := by rw [List.filterMap_append, h.statements, h'.statements]
  guises := by rw [List.filter_append, List.filterMap_append, h.guises, h'.guises]

/-- Coming to a block meets nothing by itself. -/
theorem block (body : List Stmt) (h : Meets visits nodes ss) :
    Meets (.block body :: visits) nodes ss :=
  ⟨h.expressions, h.statements, h.guises⟩

/-- An expression without a guise of its own. -/
theorem expression {e : Expr} (hplain : Node.guise? (.expr e) = none)
    (h : Meets visits nodes ss) : Meets (.expression e :: visits) (.expr e :: nodes) ss where
  expressions := congrArg (e :: ·) h.expressions
  statements := h.statements
  guises := by rw [List.filterMap_cons_none hplain]; exact h.guises

/-- A call is met as an expression and as a call. -/
theorem call (callee : Func) (args : List Expr) (ty : Ty) (h : Meets visits nodes ss) :
    Meets (.expression (.call callee args ty) :: .call callee args ty :: visits)
      (.expr (.call callee args ty) :: nodes) ss where
  expressions := congrArg (Expr.call callee args ty :: ·) h.expressions
  statements := h.statements
  guises := congrArg (Visit.call callee args ty :: ·) h.guises

/-- A statement without a guise of its own. -/
theorem statement {s : Stmt} (hplain : Node.guise? (.stmt s) = none)
    (h : Meets visits nodes ss) :
    Meets (.statement s :: visits) (.stmt s :: nodes) (s :: ss) where
  expressions := h.expressions
  statements := congrArg (s :: ·) h.statements
  guises := by rw [List.filterMap_cons_none hplain]; exact h.guises

/-- A statement with a guise is met as a statement and in its guise. -/
theorem guise {s : Stmt} {visit : Visit} (hguise : Node.guise? (.stmt s) = some visit)
    (h : Meets visits nodes ss) :
    Meets (.statement s :: visit :: visits) (.stmt s :: nodes) (s :: ss) := by
  have hvisit : visit.expression? = none ∧ visit.statement? = none ∧ visit.isGuise = true := by
    cases s <;> cases hguise <;> exact ⟨rfl, rfl, rfl⟩
  obtain ⟨hexpr, hstmt, hown⟩ := hvisit
  refine ⟨?_, ?_, ?_⟩
  · show List.filterMap expression? (visit :: visits) = nodes.filterMap Node.expression?
    rw [List.filterMap_cons_none hexpr]
    exact h.expressions
  · show s :: List.filterMap statement? (visit :: visits) = s :: ss
    rw [List.filterMap_cons_none hstmt, h.statements]
  · rw [List.filterMap_cons_some hguise, ← h.guises]
    show List.filter isGuise (visit :: visits) = _
    rw [List.filter_cons_of_pos hown]

/-- A further arm of an `if` is met as an arm and not as a statement. -/
theorem arm (test : Expr) (body : List Stmt) (orElse : Else) (h : Meets visits nodes ss) :
    Meets (.arm test body orElse :: visits) (.stmt (.branch test body orElse) :: nodes) ss where
  expressions := h.expressions
  statements := h.statements
  guises := congrArg (Visit.arm test body orElse :: ·) h.guises

end Meets

end Visit

/-! ### The whole walk -/

mutual

/-- A walk over an expression meets each of its nodes. -/
theorem Expr.meets (e : Expr) : Visit.Meets (e.visits (fun _ => true)) e.nodes [] := by
  match e with
  | .int _ | .float _ | .string _ | .bool _ | .var _ | .func _ | .emptyArray _ =>
    exact .expression rfl .nil
  | .array items _ => exact .expression rfl (Expr.meetsList items)
  | .object members => exact .expression rfl (Expr.meetsMembers members)
  | .binary _ left right _ => exact .expression rfl (left.meets.append right.meets)
  | .unary _ operand _ => exact .expression rfl operand.meets
  | .subscript base index _ => exact .expression rfl (base.meets.append index.meets)
  | .member base _ _ => exact .expression rfl base.meets
  | .call callee args ty => exact .call callee args ty (Expr.meetsList args)

theorem Expr.meetsList (es : List Expr) :
    Visit.Meets (Expr.visitsList (fun _ => true) es) (Expr.nodesList es) [] := by
  match es with
  | [] => exact .nil
  | e :: es => exact e.meets.append (Expr.meetsList es)

theorem Expr.meetsMembers (members : List (String × Expr)) :
    Visit.Meets (Expr.visitsMembers (fun _ => true) members) (Expr.nodesMembers members) [] := by
  match members with
  | [] => exact .nil
  | (_, e) :: members => exact e.meets.append (Expr.meetsMembers members)

end

mutual

/-- A walk over a statement meets each of its nodes, and each statement within it. -/
theorem Stmt.meets (s : Stmt) :
    Visit.Meets (s.visits (fun _ => true)) s.nodes s.statements := by
  match s with
  | .breakLoop | .returnNone => exact .statement rfl .nil
  | .bump _ e | .call e => exact .statement rfl e.meets
  | .declareVar _ e | .returnValue e => exact .guise rfl e.meets
  | .assign target source => exact .guise rfl (target.meets.append source.meets)
  | .declareFunc _ body => exact .guise rfl (.block body (Stmt.meetsList body))
  | .branch test body orElse =>
    exact .guise rfl ((test.meets.append (.block body (Stmt.meetsList body))).append orElse.meets)
  | .shortBranch test body | .whileLoop test body =>
    exact .statement rfl (test.meets.append (.block body (Stmt.meetsList body)))
  | .forEach _ collection body =>
    exact .guise rfl (collection.meets.append (.block body (Stmt.meetsList body)))
  | .forTurn _ low high step _ body =>
    exact .guise rfl (((low.meets.append high.meets).append step.meets).append
      (.block body (Stmt.meetsList body)))

theorem Else.meets (orElse : Else) :
    Visit.Meets (orElse.visits (fun _ => true)) orElse.nodes orElse.statementsWithin := by
  match orElse with
  | .elseIf test body orElse =>
    exact .arm test body orElse
      ((test.meets.append (.block body (Stmt.meetsList body))).append orElse.meets)
  | .block body => exact .block body (Stmt.meetsList body)

/-- With everything followed, a walk meets what is written. -/
theorem Stmt.meetsList (ss : List Stmt) :
    Visit.Meets (Stmt.visitsList (fun _ => true) ss) (Stmt.nodesList ss)
      (Stmt.statementsList ss) := by
  match ss with
  | [] => exact .nil
  | s :: ss => exact s.meets.append (Stmt.meetsList ss)

end

/-! ### Places -/

/-- The visit to what stands behind an arm. -/
def Else.visit : Else → Visit
  | .elseIf test body orElse => .arm test body orElse
  | .block body => .block body

namespace Visit

/-- The visits that a visit directly leads to: to the same thing in a guise of its own, or to the
parts of it. -/
def parts : Visit → List Visit
  | block body => body.map statement
  | statement (.declareVar v init) => [declareVar v init]
  | statement (.declareFunc f body) => [declareFunc f body]
  | statement (.assign target source) => [assign target source]
  | statement (.bump _ e) | statement (.call e) => [expression e]
  | statement .breakLoop | statement .returnNone => []
  | statement (.returnValue value) => [returnValue value]
  | statement (.branch test body orElse) => [arm test body orElse]
  | statement (.shortBranch test body) | statement (.whileLoop test body) =>
    [expression test, block body]
  | statement (.forEach iterator collection body) => [forEach iterator collection body]
  | statement (.forTurn iterator low high step direction body) =>
    [forTurn iterator low high step direction body]
  | declareVar _ init => [expression init]
  | declareFunc _ body => [block body]
  | assign target source => [expression target, expression source]
  | returnValue value => [expression value]
  | arm test body orElse => [expression test, block body, orElse.visit]
  | forEach _ collection body => [expression collection, block body]
  | forTurn _ low high step _ body => [expression low, expression high, expression step, block body]
  | expression (.call callee args ty) => [call callee args ty]
  | expression e => (Node.expr e).children.map expression
  | call _ args _ => args.map expression

/-- A visit, and the visits that it lies below, outermost first. -/
structure Trail where
  above : List Visit
  visit : Visit

/-- The same visit, seen from one visit further up. -/
def Trail.below (visit : Visit) (trail : Trail) : Trail := ⟨visit :: trail.above, trail.visit⟩

/-- What is met at a place: with the first number the walk goes into that part of what it is at, and
on from there with the others. -/
def trailTo? (visit : Visit) : List Nat → Option Trail
  | [] => some ⟨[], visit⟩
  | i :: place => do
    let next ← visit.parts[i]?
    let trail ← next.trailTo? place
    return trail.below visit

end Visit

/-- The list has all values of a partial function on places, in the order of the places. -/
structure ListsInOrder {α : Type} (f : List Nat → Option α) (found : List (List Nat × α)) :
    Prop where
  exact : ∀ place a, (place, a) ∈ found ↔ f place = some a
  ordered : found.Pairwise (fun c d => List.Lex (fun i j : Nat => i < j) c.1 d.1)

namespace Visit

/-- What is left of the visits found if nothing is met below a visit that is not followed. -/
def reached (follow : Visit → Bool) (found : List (List Nat × Trail)) : List Visit :=
  (found.filter (fun c => c.2.above.all follow)).map (fun c => c.2.visit)

/-- A walk that starts with a visit meets, whatever it follows, what is reached of the visits that
can be found from there. -/
def Walked (visit : Visit) (meets : (Visit → Bool) → List Visit) : Prop :=
  ∃ found, ListsInOrder visit.trailTo? found ∧ ∀ follow, meets follow = reached follow found

/-- What is met at a place that starts with the number of one of the visits, counted from `k`. -/
def trailAmong? (k : Nat) (visits : List Visit) : List Nat → Option Trail
  | [] => none
  | i :: place => if i < k then none else visits[i - k]? >>= fun v => v.trailTo? place

/-- The same of visits that are walked one after the other, wherever the counting starts. -/
def WalkedAll (visits : List Visit) (meets : (Visit → Bool) → List Visit) : Prop :=
  ∀ k, ∃ found, ListsInOrder (trailAmong? k visits) found ∧
    ∀ follow, meets follow = reached follow found

/-- What is met further down is met among the parts, and lies below the visit. -/
theorem trailTo?_cons (visit : Visit) (i : Nat) (place : List Nat) :
    visit.trailTo? (i :: place) =
      (trailAmong? 0 visit.parts (i :: place)).map (Trail.below visit) := by
  rw [trailTo?, trailAmong?, if_neg (Nat.not_lt_zero i), Nat.sub_zero]
  cases visit.parts[i]? with
  | none => rfl
  | some next => cases h : next.trailTo? place <;> simp [h]

theorem trailAmong?_of_lt {k i : Nat} (h : i < k) (visits : List Visit) (place : List Nat) :
    trailAmong? k visits (i :: place) = none := by
  rw [trailAmong?, if_pos h]

/-- A place that starts with the first number lies in the first visit. -/
theorem trailAmong?_head (k : Nat) (visit : Visit) (visits : List Visit) (place : List Nat) :
    trailAmong? k (visit :: visits) (k :: place) = visit.trailTo? place := by
  rw [trailAmong?, if_neg (Nat.lt_irrefl k), Nat.sub_self]
  rfl

/-- A place that starts with another number lies in the visits behind it. -/
theorem trailAmong?_tail {k i : Nat} (h : k < i) (visit : Visit) (visits : List Visit)
    (place : List Nat) :
    trailAmong? k (visit :: visits) (i :: place) = trailAmong? (k + 1) visits (i :: place) := by
  have hindex : i - k = i - (k + 1) + 1 := by omega
  rw [trailAmong?, trailAmong?, if_neg (by omega), if_neg (by omega), hindex,
    List.getElem?_cons_succ]

/-- Something is only found at places that start with a number from `k` on. -/
theorem trailAmong?_eq_some {k : Nat} {visits : List Visit} {place : List Nat} {trail : Trail}
    (h : trailAmong? k visits place = some trail) : ∃ i rest, place = i :: rest ∧ k ≤ i := by
  cases place with
  | nil => cases h
  | cons i rest =>
    by_cases hlt : i < k
    · rw [trailAmong?_of_lt hlt] at h
      cases h
    · exact ⟨i, rest, rfl, Nat.le_of_not_lt hlt⟩

/-! ### Putting walks together -/

/-- What is reached in two parts is reached one part after the other. -/
theorem reached_append (follow : Visit → Bool) (found found' : List (List Nat × Trail)) :
    reached follow (found ++ found') = reached follow found ++ reached follow found' := by
  simp [reached]

theorem mem_under {k : Nat} {found : List (List Nat × Trail)} {place : List Nat} {trail : Trail} :
    (place, trail) ∈ found.map (fun c => (k :: c.1, c.2)) ↔
      ∃ rest, place = k :: rest ∧ (rest, trail) ∈ found := by
  rw [List.mem_map]
  constructor
  · rintro ⟨c, hc, heq⟩
    cases heq
    exact ⟨c.1, rfl, hc⟩
  · rintro ⟨rest, rfl, hmem⟩
    exact ⟨(rest, trail), hmem, rfl⟩

theorem mem_below {visit : Visit} {found : List (List Nat × Trail)} {place : List Nat}
    {trail : Trail} :
    (place, trail) ∈ found.map (fun c => (c.1, c.2.below visit)) ↔
      ∃ t, (place, t) ∈ found ∧ t.below visit = trail := by
  rw [List.mem_map]
  constructor
  · rintro ⟨c, hc, heq⟩
    cases heq
    exact ⟨c.2, hc, rfl⟩
  · rintro ⟨t, hmem, rfl⟩
    exact ⟨(place, t), hmem, rfl⟩

/-- Where something stands makes no difference to whether it is reached. -/
theorem reached_under (follow : Visit → Bool) (i : Nat) (found : List (List Nat × Trail)) :
    reached follow (found.map (fun c => (i :: c.1, c.2))) = reached follow found := by
  simp [reached, List.filter_map, Function.comp_def]

/-- What lies below a visit is reached if the visit is followed. -/
theorem reached_below (follow : Visit → Bool) (visit : Visit) (found : List (List Nat × Trail)) :
    reached follow (found.map (fun c => (c.1, c.2.below visit))) =
      if follow visit then reached follow found else [] := by
  by_cases h : follow visit = true <;>
    simp [reached, List.filter_map, Function.comp_def, Trail.below, h]

/-- A walk over nothing meets nothing. -/
theorem WalkedAll.nil : WalkedAll [] (fun _ => []) := by
  intro k
  refine ⟨[], ⟨?_, .nil⟩, fun _ => rfl⟩
  intro place trail
  cases place with
  | nil => simp [trailAmong?]
  | cons i place => simp [trailAmong?]

/-- Visits follow each other if the numbers of the later ones are higher. -/
theorem WalkedAll.cons {visit : Visit} {visits : List Visit}
    {meets meets' : (Visit → Bool) → List Visit} (h : Walked visit meets)
    (h' : WalkedAll visits meets') :
    WalkedAll (visit :: visits) (fun follow => meets follow ++ meets' follow) := by
  intro k
  obtain ⟨first, hfirst, hmeets⟩ := h
  obtain ⟨rest, hrest, hmeets'⟩ := h' (k + 1)
  refine ⟨first.map (fun c => (k :: c.1, c.2)) ++ rest, ⟨?_, ?_⟩, ?_⟩
  · intro place trail
    rw [List.mem_append, mem_under, hrest.exact]
    cases place with
    | nil => simp [trailAmong?]
    | cons i place =>
      rcases Nat.lt_trichotomy i k with hlt | rfl | hgt
      · rw [trailAmong?_of_lt hlt, trailAmong?_of_lt (Nat.lt_succ_of_lt hlt)]
        simp [Nat.ne_of_lt hlt]
      · rw [trailAmong?_head, trailAmong?_of_lt (Nat.lt_succ_self i), ← hfirst.exact]
        simp
      · rw [trailAmong?_tail hgt]
        simp [Nat.ne_of_gt hgt]
  · rw [List.pairwise_append, List.pairwise_map]
    refine ⟨hfirst.ordered.imp List.Lex.cons, hrest.ordered, ?_⟩
    intro c hc d hd
    obtain ⟨b, _, rfl⟩ := List.mem_map.mp hc
    obtain ⟨i, place, hplace, hi⟩ := trailAmong?_eq_some ((hrest.exact d.1 d.2).mp hd)
    rw [hplace]
    exact .rel hi
  · intro follow
    show meets follow ++ meets' follow = _
    rw [reached_append, reached_under, hmeets, hmeets']

/-- A walk over one thing is a walk that starts with it. -/
theorem WalkedAll.single {visit : Visit} {meets : (Visit → Bool) → List Visit}
    (h : Walked visit meets) : WalkedAll [visit] meets := by
  have hboth := WalkedAll.cons h .nil
  simpa only [List.append_nil] using hboth

/-- A visit comes first, and what it leads to lies below it. -/
theorem Walked.step {visit : Visit} {meets : (Visit → Bool) → List Visit}
    (h : WalkedAll visit.parts meets) :
    Walked visit (fun follow => meet follow visit (meets follow)) := by
  obtain ⟨found, hfound, hmeets⟩ := h 0
  refine ⟨([], ⟨[], visit⟩) :: found.map (fun c => (c.1, c.2.below visit)), ⟨?_, ?_⟩, ?_⟩
  · intro place trail
    rw [List.mem_cons, mem_below]
    simp only [hfound.exact]
    cases place with
    | nil => simp [trailTo?, trailAmong?, eq_comm]
    | cons i place =>
      rw [trailTo?_cons, Option.map_eq_some_iff]
      simp
  · rw [List.pairwise_cons, List.pairwise_map]
    refine ⟨?_, hfound.ordered⟩
    intro d hd
    obtain ⟨c, hc, rfl⟩ := List.mem_map.mp hd
    obtain ⟨i, place, hplace, _⟩ := trailAmong?_eq_some ((hfound.exact c.1 c.2).mp hc)
    rw [hplace]
    exact .nil
  · intro follow
    show meet follow visit (meets follow) = _
    rw [hmeets, meet, ← reached_below]
    rfl

end Visit

/-- A visit that leads nowhere is met alone, followed or not. -/
theorem Visit.Walked.leaf {visit : Visit} (h : visit.parts = []) :
    Walked visit (fun _ => [visit]) := by
  have hstep : Walked visit (fun follow => meet follow visit []) := .step (h ▸ .nil)
  simpa only [meet, ite_self] using hstep

mutual

/-- A walk over an expression meets what can be found from it. -/
theorem Expr.walked (e : Expr) : (Visit.expression e).Walked (fun follow => e.visits follow) := by
  match e with
  | .int _ | .float _ | .string _ | .bool _ | .var _ | .func _ | .emptyArray _ =>
    exact .leaf rfl
  | .array items _ => exact .step (Expr.walkedList items)
  | .object members => exact .step (Expr.walkedMembers members)
  | .binary _ left right _ => exact .step (.cons left.walked (.single right.walked))
  | .unary _ operand _ => exact .step (.single operand.walked)
  | .subscript base index _ => exact .step (.cons base.walked (.single index.walked))
  | .member base _ _ => exact .step (.single base.walked)
  | .call _ args _ => exact .step (.single (.step (Expr.walkedList args)))

theorem Expr.walkedList (es : List Expr) :
    Visit.WalkedAll (es.map .expression) (fun follow => Expr.visitsList follow es) := by
  match es with
  | [] => exact .nil
  | e :: es => exact .cons e.walked (Expr.walkedList es)

theorem Expr.walkedMembers (members : List (String × Expr)) :
    Visit.WalkedAll ((members.map Prod.snd).map .expression)
      (fun follow => Expr.visitsMembers follow members) := by
  match members with
  | [] => exact .nil
  | (_, e) :: members => exact .cons e.walked (Expr.walkedMembers members)

end

/-- An arm is walked alike, whether it is the first one or not. -/
theorem Visit.Walked.arm {body : List Stmt} {orElse : Else} (test : Expr)
    (hbody : WalkedAll (body.map .statement) (fun follow => Stmt.visitsList follow body))
    (horElse : orElse.visit.Walked (fun follow => orElse.visits follow)) :
    (Visit.arm test body orElse).Walked (fun follow => meet follow (.arm test body orElse)
      (test.visits follow ++ meet follow (.block body) (Stmt.visitsList follow body) ++
        orElse.visits follow)) := by
  have hblock : (Visit.block body).Walked _ := .step hbody
  have hparts := WalkedAll.cons test.walked (.cons hblock (.single horElse))
  simp only [← List.append_assoc] at hparts
  exact .step hparts

mutual

/-- A walk over a statement meets what can be found from it. -/
theorem Stmt.walked (s : Stmt) : (Visit.statement s).Walked (fun follow => s.visits follow) := by
  match s with
  | .breakLoop | .returnNone => exact .leaf rfl
  | .bump _ e | .call e => exact .step (.single e.walked)
  | .declareVar _ e | .returnValue e => exact .step (.single (.step (.single e.walked)))
  | .assign target source =>
    exact .step (.single (.step (.cons target.walked (.single source.walked))))
  | .declareFunc _ body =>
    exact .step (.single (.step (.single (.step (Stmt.walkedList body)))))
  | .branch test body orElse =>
    exact .step (.single (.arm test (Stmt.walkedList body) orElse.walked))
  | .shortBranch test body | .whileLoop test body =>
    exact .step (.cons test.walked (.single (.step (Stmt.walkedList body))))
  | .forEach _ collection body =>
    exact .step (.single (.step (.cons collection.walked (.single (.step (Stmt.walkedList body))))))
  | .forTurn _ low high step _ body =>
    have hblock : (Visit.block body).Walked _ := .step (Stmt.walkedList body)
    have hparts :=
      Visit.WalkedAll.cons low.walked (.cons high.walked (.cons step.walked (.single hblock)))
    simp only [← List.append_assoc] at hparts
    exact .step (.single (.step hparts))

theorem Else.walked (orElse : Else) : orElse.visit.Walked (fun follow => orElse.visits follow) := by
  match orElse with
  | .elseIf test body orElse => exact .arm test (Stmt.walkedList body) orElse.walked
  | .block body => exact .step (Stmt.walkedList body)

theorem Stmt.walkedList (ss : List Stmt) :
    Visit.WalkedAll (ss.map .statement) (fun follow => Stmt.visitsList follow ss) := by
  match ss with
  | [] => exact .nil
  | s :: ss => exact .cons s.walked (Stmt.walkedList ss)

end

/-- If everything is followed, all that can be found is reached. -/
theorem Visit.reached_all (found : List (List Nat × Trail)) :
    reached (fun _ => true) found = found.map (fun c => c.2.visit) := by
  rw [reached, List.filter_eq_self.mpr]
  intro c _
  exact List.all_eq_true.mpr (fun _ _ => rfl)

/-- The whole walk through a program meets each expression and each statement once, and each call,
declaration, assignment, `return`, `for` and arm of an `if` once more in a guise of its own, in the
order in which they are written. Its visits are found in the order of their places, each before what
lies below it; and a walk that does not follow all of them meets just those that lie below none that
it does not follow, in the same order. -/
theorem Program.visits_placed (p : Program) :
    Visit.Meets (Stmt.visitsOf (fun _ => true) p.body) p.nodes p.statements ∧
      ∃ found : List (List Nat × Visit.Trail),
        ListsInOrder (Visit.block p.body).trailTo? found ∧
        Stmt.visitsOf (fun _ => true) p.body = found.map (fun c => c.2.visit) ∧
        ∀ follow, Stmt.visitsOf follow p.body =
          (found.filter (fun c => c.2.above.all follow)).map (fun c => c.2.visit) := by
  have hwalked : (Visit.block p.body).Walked (fun follow => Stmt.visitsOf follow p.body) :=
    .step (Stmt.walkedList p.body)
  obtain ⟨found, hfound, hreached⟩ := hwalked
  refine ⟨.block p.body (Stmt.meetsList p.body), found, hfound, ?_, hreached⟩
  rw [← Visit.reached_all]
  exact hreached (fun _ => true)

end Croupier
