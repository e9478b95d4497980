import Croupier.Lowering.Stmt
import Croupier.Proofs.Nodes

/-!
# What lowering does

Lowering is a program that fails at the first broken rule. Laws about it are about the runs that
succeed, and this module says once and for all what those are. `PhraseLowered` relates what was
written in an expression to what became of it, `PassageLowered` does so for statements, and each
has one rule for each construct, with all checks that were made on the way. A law about every
lowered program is then an induction over these rules, and none has to look into the monads.

Expressions come alone, in lists and as members of objects; a `Phrase` is any of these. Likewise
a `Passage` is a statement, what follows an arm, or a block. Putting the three forms into one
type makes each relation a single one, with a single induction.

> `passageLowered_of_lower`: every run that succeeds is described by the rules.
>
> `PassageLowered.given`: the rules describe no other runs.
>
> `Program.of_mem_lower`: every statement of a typed program, at any depth, came about by a rule.
-/

namespace Croupier

/-- An expression as written, a list of them, or the members of an object. -/
inductive Source.Phrase where
  | expr (e : Source.Expr)
  | list (es : List Source.Expr)
  | members (ms : List (String × Source.Expr))

/-- A typed expression, a list of them, or the members of an object. -/
inductive Phrase where
  | expr (e : Expr)
  | list (es : List Expr)
  | members (ms : List (String × Expr))

/-- A statement as written, what follows an arm, or a block. -/
inductive Source.Passage where
  | stmt (s : Source.Stmt)
  | arms (e : Source.Else)
  | block (ss : List Source.Stmt)

/-- A typed statement, what follows an arm, or a block. -/
inductive Passage where
  | stmt (s : Stmt)
  | arms (e : Else)
  | block (ss : List Stmt)

/-- All nodes of a phrase. -/
def Phrase.nodes : Phrase → List Node
  | expr e => e.nodes
  | list es => Expr.nodesList es
  | members ms => Expr.nodesMembers ms

/-- All nodes of a passage. -/
def Passage.nodes : Passage → List Node
  | stmt s => s.nodes
  | arms e => e.nodes
  | block ss => Stmt.nodesList ss

/-! ### Expressions -/

/-- What becomes of an expression that is read against a setting. -/
inductive PhraseLowered (setting : Setting) : Source.Phrase → Phrase → Prop where
  | int (span : Span) (n : Int) : PhraseLowered setting (.expr (.int span n)) (.expr (.int n))
  | float (span : Span) (x : Float) :
    PhraseLowered setting (.expr (.float span x)) (.expr (.float x))
  | string (span : Span) (s : String) :
    PhraseLowered setting (.expr (.string span s)) (.expr (.string s))
  | bool (span : Span) (b : Bool) :
    PhraseLowered setting (.expr (.bool span b)) (.expr (.bool b))
  | ident {span : Span} {name : Ident} {entity : Entity}
      (found : setting.scope.lookup name.name = some entity) :
    PhraseLowered setting (.expr (.ident span name)) (.expr (.ofEntity entity))
  | binary {span : Span} {op : BinaryOperator} {left right : Source.Expr} {left' right' : Expr}
      {ty : Ty} (hleft : PhraseLowered setting (.expr left) (.expr left'))
      (hright : PhraseLowered setting (.expr right) (.expr right'))
      (hty : binaryTy setting op left' right' span = .ok ty) :
    PhraseLowered setting (.expr (.binary span op left right))
      (.expr (.binary (.operator op) left' right' ty))
  | unary {span : Span} {op : UnaryOperator} {operand : Source.Expr} {operand' : Expr}
      (hoperand : PhraseLowered setting (.expr operand) (.expr operand')) :
    PhraseLowered setting (.expr (.unary span op operand))
      (.expr (.unary (.operator op) operand' (operand'.ty setting.returns)))
  | call {span : Span} {callee : Source.Expr} {args : List Source.Expr} {f : Func}
      {args' : List Expr} (hcallee : PhraseLowered setting (.expr callee) (.expr (.func f)))
      (hargs : PhraseLowered setting (.list args) (.list args'))
      (harity : checkArity f args'.length span = .ok ())
      (hnumbers : checkArguments setting.returns f args' (args.map Source.Expr.span) = .ok ()) :
    PhraseLowered setting (.expr (.call span callee args))
      (.expr (.callOf setting.returns f args'))
  | subscript {span : Span} {base index : Source.Expr} {base' index' : Expr}
      (hbase : PhraseLowered setting (.expr base) (.expr base'))
      (hparts : checkSubscriptable setting.returns base' base.span = .ok ())
      (hindex : PhraseLowered setting (.expr index) (.expr index')) :
    PhraseLowered setting (.expr (.subscript span base index))
      (.expr (.subscriptOf setting.returns base' index'))
  | member {span : Span} {base : Source.Expr} {field : String} {base' : Expr}
      (hbase : PhraseLowered setting (.expr base) (.expr base')) :
    PhraseLowered setting (.expr (.member span base field)) (.expr (.memberOf base' field))
  | array {span : Span} {items : List Source.Expr} {items' : List Expr}
      (hitems : PhraseLowered setting (.list items) (.list items')) :
    PhraseLowered setting (.expr (.array span items)) (.expr (.arrayOf setting.returns items'))
  | object {span : Span} {ms : List (String × Source.Expr)} {ms' : List (String × Expr)}
      (hmembers : PhraseLowered setting (.members ms) (.members ms')) :
    PhraseLowered setting (.expr (.object span ms)) (.expr (.object ms'))
  | listNil : PhraseLowered setting (.list []) (.list [])
  | listCons {e : Source.Expr} {es : List Source.Expr} {e' : Expr} {es' : List Expr}
      (hfirst : PhraseLowered setting (.expr e) (.expr e'))
      (hrest : PhraseLowered setting (.list es) (.list es')) :
    PhraseLowered setting (.list (e :: es)) (.list (e' :: es'))
  | membersNil : PhraseLowered setting (.members []) (.members [])
  | membersCons {key : String} {e : Source.Expr} {ms : List (String × Source.Expr)} {e' : Expr}
      {ms' : List (String × Expr)} (hfirst : PhraseLowered setting (.expr e) (.expr e'))
      (hrest : PhraseLowered setting (.members ms) (.members ms')) :
    PhraseLowered setting (.members ((key, e) :: ms)) (.members ((key, e') :: ms'))

/-- Two checks succeed if the first does and the second does with what it yields. -/
theorem bind_eq_ok_iff {α β : Type} {x : Except Fault α} {f : α → Except Fault β} {b : β} :
    (x >>= f) = .ok b ↔ ∃ a, x = .ok a ∧ f a = .ok b := by
  cases x with
  | error fault => simp [Bind.bind, Except.bind]
  | ok a => simp [Bind.bind, Except.bind]

/-- A call that is accepted is a call of a function, and the number and the types of its arguments
pass their checks. -/
theorem callOn_eq_ok {returns : Returns} {callee : Expr} {args : List Expr} {places : List Span}
    {span : Span} {e : Expr} (h : callOn returns callee args places span = .ok e) :
    ∃ f, callee = .func f ∧ checkArity f args.length span = .ok () ∧
      checkArguments returns f args places = .ok () ∧ e = .callOf returns f args := by
  unfold callOn at h
  split at h
  next f =>
    obtain ⟨_, harity, h⟩ := bind_eq_ok_iff.mp h
    obtain ⟨_, hnumbers, h⟩ := bind_eq_ok_iff.mp h
    cases h
    exact ⟨f, rfl, harity, hnumbers, rfl⟩
  next => exact absurd h (by simp [refuse])

mutual

/-- Every expression that lowering accepts is lowered by one of the rules. -/
theorem phraseLowered_of_lower {setting : Setting} (e : Source.Expr) {e' : Expr}
    (h : e.lower setting = .ok e') : PhraseLowered setting (.expr e) (.expr e') := by
  -- The recursion is on the source; the steps of each clause are peeled off one by one.
  match e with
  | .int span n => cases h; exact .int span n
  | .float span x => cases h; exact .float span x
  | .string span s => cases h; exact .string span s
  | .bool span b => cases h; exact .bool span b
  | .ident span name =>
    rw [Source.Expr.lower] at h
    split at h
    next entity found => cases h; exact .ident found
    next => exact absurd h (by simp [refuse])
  | .binary span op left right =>
    rw [Source.Expr.lower] at h
    obtain ⟨left', hleft, h⟩ := bind_eq_ok_iff.mp h
    obtain ⟨right', hright, h⟩ := bind_eq_ok_iff.mp h
    obtain ⟨ty, hty, h⟩ := bind_eq_ok_iff.mp h
    cases h
    exact .binary (phraseLowered_of_lower left hleft) (phraseLowered_of_lower right hright) hty
  | .unary span op operand =>
    rw [Source.Expr.lower] at h
    obtain ⟨operand', hoperand, h⟩ := bind_eq_ok_iff.mp h
    cases h
    exact .unary (phraseLowered_of_lower operand hoperand)
  | .call span callee args =>
    rw [Source.Expr.lower] at h
    obtain ⟨callee', hcallee, h⟩ := bind_eq_ok_iff.mp h
    obtain ⟨args', hargs, h⟩ := bind_eq_ok_iff.mp h
    obtain ⟨f, rfl, harity, hnumbers, rfl⟩ := callOn_eq_ok h
    exact .call (phraseLowered_of_lower callee hcallee) (phraseLowered_of_lowerList args hargs)
      harity hnumbers
  | .subscript span base index =>
    rw [Source.Expr.lower] at h
    obtain ⟨base', hbase, h⟩ := bind_eq_ok_iff.mp h
    obtain ⟨_, hparts, h⟩ := bind_eq_ok_iff.mp h
    obtain ⟨index', hindex, h⟩ := bind_eq_ok_iff.mp h
    cases h
    exact .subscript (phraseLowered_of_lower base hbase) hparts
      (phraseLowered_of_lower index hindex)
  | .member span base field =>
    rw [Source.Expr.lower] at h
    obtain ⟨base', hbase, h⟩ := bind_eq_ok_iff.mp h
    cases h
    exact .member (phraseLowered_of_lower base hbase)
  | .array span items =>
    rw [Source.Expr.lower] at h
    obtain ⟨items', hitems, h⟩ := bind_eq_ok_iff.mp h
    cases h
    exact .array (phraseLowered_of_lowerList items hitems)
  | .object span members =>
    rw [Source.Expr.lower] at h
    obtain ⟨members', hmembers, h⟩ := bind_eq_ok_iff.mp h
    cases h
    exact .object (phraseLowered_of_lowerMembers members hmembers)

theorem phraseLowered_of_lowerList {setting : Setting} (es : List Source.Expr) {es' : List Expr}
    (h : Source.Expr.lowerList setting es = .ok es') :
    PhraseLowered setting (.list es) (.list es') := by
  match es with
  | [] => cases h; exact .listNil
  | e :: es =>
    rw [Source.Expr.lowerList] at h
    obtain ⟨e', hfirst, h⟩ := bind_eq_ok_iff.mp h
    obtain ⟨rest, hrest, h⟩ := bind_eq_ok_iff.mp h
    cases h
    exact .listCons (phraseLowered_of_lower e hfirst) (phraseLowered_of_lowerList es hrest)

theorem phraseLowered_of_lowerMembers {setting : Setting} (ms : List (String × Source.Expr))
    {ms' : List (String × Expr)} (h : Source.Expr.lowerMembers setting ms = .ok ms') :
    PhraseLowered setting (.members ms) (.members ms') := by
  match ms with
  | [] => cases h; exact .membersNil
  | (key, e) :: ms =>
    rw [Source.Expr.lowerMembers] at h
    obtain ⟨e', hfirst, h⟩ := bind_eq_ok_iff.mp h
    obtain ⟨rest, hrest, h⟩ := bind_eq_ok_iff.mp h
    cases h
    exact .membersCons (phraseLowered_of_lower e hfirst) (phraseLowered_of_lowerMembers ms hrest)

end

/-! ### Statements -/

/-- What becomes of statements that are read in a scope and a session, and the scope and the
session behind them. -/
inductive PassageLowered (strictness : Strictness) :
    Scope → Session → Source.Passage → Passage → Scope → Session → Prop where
  | declareVar {scope : Scope} {session : Session} {span : Span} {constant : Bool} {name : Ident}
      {init : Source.Expr} {init' : Expr} {v : Var} (hnew : checkUndeclared scope name = .ok ())
      (hinit : PhraseLowered ⟨strictness, session.returns, scope⟩ (.expr init) (.expr init'))
      (hv : v = ⟨session.nextId, name.name, if constant then .constant else .mutable,
        init'.ty session.returns⟩) :
    PassageLowered strictness scope session (.stmt (.declareVar span constant name init))
      (.stmt (.declareVar v init')) (scope.bind name.name (.var v))
      { session with nextId := session.nextId + 1 }
  | declareFunc {scope last : Scope} {session session' : Session} {span : Span} {name : Ident}
      {params : List Source.Param} {paramsSpan : Span} {ascribed : Option Ascription}
      {body : List Source.Stmt} {body' : List Stmt} {vars : List Var} {f : Func} {result : Ty}
      (hnew : checkUndeclared scope name = .ok ()) (hparams : checkParams params = .ok ())
      (hvars : vars = paramVars (session.nextId + 1) params)
      (hf : f = ⟨session.nextId, name.name, .declared vars (ascribed.map Ascription.ty)⟩)
      (hbody : PassageLowered strictness
        ((scope.bind name.name (.func f)).pushFunction.bindAll vars)
        { session with nextId := session.nextId + (params.length + 1) }
        (.block body) (.block body') last session')
      (hrec : checkRecursion f body' name params paramsSpan ascribed = .ok ())
      (hresult : reconcile name.name ascribed (returnTypes session'.returns body') span =
        .ok result) :
    PassageLowered strictness scope session
      (.stmt (.declareFunc span name params paramsSpan ascribed body))
      (.stmt (.declareFunc f body')) (scope.bind name.name (.func f))
      { session' with returns := (session.nextId, result) :: session'.returns }
  | bump {scope : Scope} {session : Session} {span : Span} {op : BumpOperator}
      {target : Source.Expr} {target' : Expr}
      (htarget : PhraseLowered ⟨strictness, session.returns, scope⟩ (.expr target) (.expr target'))
      (hnumber : checkBump session.returns target' span = .ok ())
      (hplace : checkAssignable target' span = .ok ()) :
    PassageLowered strictness scope session (.stmt (.bump span op target))
      (.stmt (.bump op target')) scope session
  | assign {scope : Scope} {session : Session} {span : Span} {target source : Source.Expr}
      {target' source' : Expr}
      (htarget : PhraseLowered ⟨strictness, session.returns, scope⟩ (.expr target) (.expr target'))
      (hplace : checkAssignable target' span = .ok ())
      (hsource :
        PhraseLowered ⟨strictness, session.returns, scope⟩ (.expr source) (.expr source')) :
    PassageLowered strictness scope session (.stmt (.assign span target source))
      (.stmt (.assign target' source')) scope session
  | call {scope : Scope} {session : Session} {span : Span} {value : Source.Expr} {value' : Expr}
      (hvalue : PhraseLowered ⟨strictness, session.returns, scope⟩ (.expr value) (.expr value')) :
    PassageLowered strictness scope session (.stmt (.call span value)) (.stmt (.call value'))
      scope session
  | breakLoop {scope : Scope} {session : Session} {span : Span}
      (hloop : checkInLoop scope span = .ok ()) :
    PassageLowered strictness scope session (.stmt (.breakLoop span)) (.stmt .breakLoop)
      scope session
  | returnValue {scope : Scope} {session : Session} {span : Span} {value : Source.Expr}
      {value' : Expr} (hfunction : checkInFunction scope span = .ok ())
      (hvalue : PhraseLowered ⟨strictness, session.returns, scope⟩ (.expr value) (.expr value')) :
    PassageLowered strictness scope session (.stmt (.returnValue span value))
      (.stmt (.returnValue value')) scope session
  | returnNone {scope : Scope} {session : Session} {span : Span}
      (hfunction : checkInFunction scope span = .ok ()) :
    PassageLowered strictness scope session (.stmt (.returnNone span)) (.stmt .returnNone)
      scope session
  | shortBranch {scope scope' : Scope} {session session' : Session} {span : Span}
      {test : Source.Expr} {body : List Source.Stmt} {test' : Expr} {body' : List Stmt}
      (htest : PhraseLowered ⟨strictness, session.returns, scope⟩ (.expr test) (.expr test'))
      (htruth : checkBoolean session.returns test' test.span = .ok ())
      (hbody : PassageLowered strictness scope session (.block body) (.block body')
        scope' session') :
    PassageLowered strictness scope session (.stmt (.branch span test body .nothing))
      (.stmt (.shortBranch test' body')) scope' session'
  | branch {scope scope' scope'' : Scope} {session session' session'' : Session} {span : Span}
      {test : Source.Expr} {body : List Source.Stmt} {orElse : Source.Else} {test' : Expr}
      {body' : List Stmt} {orElse' : Else}
      (htest : PhraseLowered ⟨strictness, session.returns, scope⟩ (.expr test) (.expr test'))
      (htruth : checkBoolean session.returns test' test.span = .ok ())
      (hbody : PassageLowered strictness scope session (.block body) (.block body')
        scope' session')
      (hmore : orElse ≠ .nothing)
      (helse : PassageLowered strictness scope' session' (.arms orElse) (.arms orElse')
        scope'' session'') :
    PassageLowered strictness scope session (.stmt (.branch span test body orElse))
      (.stmt (.branch test' body' orElse')) scope'' session''
  | whileLoop {scope last : Scope} {session session' : Session} {span : Span}
      {test : Source.Expr} {body : List Source.Stmt} {test' : Expr} {body' : List Stmt}
      (htest : PhraseLowered ⟨strictness, session.returns, scope⟩ (.expr test) (.expr test'))
      (htruth : checkBoolean session.returns test' test.span = .ok ())
      (hbody : PassageLowered strictness scope.pushLoop session (.block body) (.block body')
        last session') :
    PassageLowered strictness scope session (.stmt (.whileLoop span test body))
      (.stmt (.whileLoop test' body')) scope session'
  | forEach {scope last : Scope} {session session' : Session} {span : Span} {iterator : Ident}
      {collection : Source.Expr} {body : List Source.Stmt} {collection' : Expr}
      {body' : List Stmt} {v : Var}
      (hcollection : PhraseLowered ⟨strictness, session.returns, scope⟩ (.expr collection)
        (.expr collection'))
      (hv : v = ⟨session.nextId, iterator.name, .mutable,
        (collection'.ty session.returns).element⟩)
      (hbody : PassageLowered strictness (scope.pushLoop.bind iterator.name (.var v))
        { session with nextId := session.nextId + 1 } (.block body) (.block body')
        last session') :
    PassageLowered strictness scope session (.stmt (.forEach span iterator collection body))
      (.stmt (.forEach v collection' body')) scope session'
  | forTurn {scope last : Scope} {session session' : Session} {span turnSpan : Span}
      {iterator : Ident} {low high step : Source.Expr} {body : List Source.Stmt}
      {low' high' step' : Expr} {direction : Direction} {body' : List Stmt} {v : Var}
      (hlow : PhraseLowered ⟨strictness, session.returns, scope⟩ (.expr low) (.expr low'))
      (hhigh : PhraseLowered ⟨strictness, session.returns, scope⟩ (.expr high) (.expr high'))
      (hstep : PhraseLowered ⟨strictness, session.returns, scope⟩ (.expr step) (.expr step'))
      (hdirection : turnDirection step' step.span = .ok direction)
      (hv : v = ⟨session.nextId, iterator.name, .mutable,
        turnTy (low'.ty session.returns) (high'.ty session.returns)⟩)
      (hbody : PassageLowered strictness (scope.pushLoop.bind iterator.name (.var v))
        { session with nextId := session.nextId + 1 } (.block body) (.block body')
        last session') :
    PassageLowered strictness scope session
      (.stmt (.forTurn span iterator turnSpan [low, high, step] body))
      (.stmt (.forTurn v low' high' step' direction body')) scope session'
  | nothing {scope : Scope} {session : Session} :
    PassageLowered strictness scope session (.arms .nothing) (.arms (.block [])) scope session
  | elseIf {scope scope' scope'' : Scope} {session session' session'' : Session}
      {test : Source.Expr} {body : List Source.Stmt} {orElse : Source.Else} {test' : Expr}
      {body' : List Stmt} {orElse' : Else}
      (htest : PhraseLowered ⟨strictness, session.returns, scope⟩ (.expr test) (.expr test'))
      (htruth : checkBoolean session.returns test' test.span = .ok ())
      (hbody : PassageLowered strictness scope session (.block body) (.block body')
        scope' session')
      (helse : PassageLowered strictness scope' session' (.arms orElse) (.arms orElse')
        scope'' session'') :
    PassageLowered strictness scope session (.arms (.elseIf test body orElse))
      (.arms (.elseIf test' body' orElse')) scope'' session''
  | block {scope scope' : Scope} {session session' : Session} {body : List Source.Stmt}
      {body' : List Stmt}
      (hbody : PassageLowered strictness scope session (.block body) (.block body')
        scope' session') :
    PassageLowered strictness scope session (.arms (.block body)) (.arms (.block body'))
      scope' session'
  | nil {scope : Scope} {session : Session} :
    PassageLowered strictness scope session (.block []) (.block []) scope session
  | cons {scope scope' scope'' : Scope} {session session' session'' : Session} {s : Source.Stmt}
      {ss : List Source.Stmt} {s' : Stmt} {ss' : List Stmt}
      (hfirst : PassageLowered strictness scope session (.stmt s) (.stmt s') scope' session')
      (hrest : PassageLowered strictness scope' session' (.block ss) (.block ss')
        scope'' session'') :
    PassageLowered strictness scope session (.block (s :: ss)) (.block (s' :: ss'))
      scope'' session''

/-- A test that is accepted is an expression that passes the check for truth values. -/
theorem lowerCondition_eq_ok {setting : Setting} {e : Source.Expr} {e' : Expr}
    (h : e.lowerCondition setting = .ok e') :
    PhraseLowered setting (.expr e) (.expr e') ∧
      checkBoolean setting.returns e' e.span = .ok () := by
  unfold Source.Expr.lowerCondition at h
  obtain ⟨test, htest, h⟩ := bind_eq_ok_iff.mp h
  obtain ⟨_, htruth, h⟩ := bind_eq_ok_iff.mp h
  cases h
  exact ⟨phraseLowered_of_lower e htest, htruth⟩

open Lowering in
mutual

/-- Every statement that lowering accepts is lowered by one of the rules. Each case takes the steps
of lowering apart in their order, and every check that succeeded becomes a premise of the rule. -/
theorem passageLowered_of_lower {strictness : Strictness} {scope scope' : Scope}
    {session session' : Session} (s : Source.Stmt) {s' : Stmt}
    (h : s.lower strictness scope session = .ok (s', scope') session') :
    PassageLowered strictness scope session (.stmt s) (.stmt s') scope' session' := by
  -- A clause is a chain of steps, each taken in the session that the one before has left.
  match s with
  | .declareVar span constant name init =>
    simp only [Source.Stmt.lower, bind_eq_ok, checked_eq_ok, reading_eq_ok, settled_eq_ok,
      reserve_eq_ok, pure_eq_ok, Prod.mk.injEq] at h
    obtain ⟨_, _, ⟨hnew, rfl⟩, init', _, ⟨hinit, rfl⟩, _, _, ⟨rfl, rfl⟩, _, _, ⟨rfl, rfl⟩,
      ⟨rfl, rfl⟩, rfl⟩ := h
    exact .declareVar hnew (phraseLowered_of_lower init hinit) rfl
  | .declareFunc span name params paramsSpan ascribed body =>
    simp only [Source.Stmt.lower, bind_eq_ok, checked_eq_ok, settled_eq_ok, reserve_eq_ok,
      pure_eq_ok, Prod.mk.injEq] at h
    obtain ⟨_, _, ⟨hnew, rfl⟩, _, _, ⟨hparams, rfl⟩, _, _, ⟨rfl, rfl⟩, ⟨body', last⟩, _, hbody, _,
      _, ⟨hrec, rfl⟩, _, _, ⟨rfl, rfl⟩, result, _, ⟨hresult, rfl⟩, _, _, hsettle, ⟨rfl, rfl⟩,
      rfl⟩ := h
    obtain rfl := settle_eq_ok.mp hsettle
    exact .declareFunc hnew hparams rfl rfl (passageLowered_of_lowerList body hbody) hrec hresult
  | .bump span op target =>
    simp only [Source.Stmt.lower, bind_eq_ok, checked_eq_ok, reading_eq_ok, settled_eq_ok,
      pure_eq_ok, Prod.mk.injEq] at h
    obtain ⟨target', _, ⟨htarget, rfl⟩, _, _, ⟨rfl, rfl⟩, _, _, ⟨hnumber, rfl⟩, _, _,
      ⟨hplace, rfl⟩, ⟨rfl, rfl⟩, rfl⟩ := h
    exact .bump (phraseLowered_of_lower target htarget) hnumber hplace
  | .assign span target source =>
    simp only [Source.Stmt.lower, bind_eq_ok, checked_eq_ok, reading_eq_ok, pure_eq_ok,
      Prod.mk.injEq] at h
    obtain ⟨target', _, ⟨htarget, rfl⟩, _, _, ⟨hplace, rfl⟩, source', _, ⟨hsource, rfl⟩,
      ⟨rfl, rfl⟩, rfl⟩ := h
    exact .assign (phraseLowered_of_lower target htarget) hplace
      (phraseLowered_of_lower source hsource)
  | .call span value =>
    simp only [Source.Stmt.lower, bind_eq_ok, reading_eq_ok, pure_eq_ok, Prod.mk.injEq] at h
    obtain ⟨value', _, ⟨hvalue, rfl⟩, ⟨rfl, rfl⟩, rfl⟩ := h
    exact .call (phraseLowered_of_lower value hvalue)
  | .breakLoop span =>
    simp only [Source.Stmt.lower, bind_eq_ok, checked_eq_ok, pure_eq_ok, Prod.mk.injEq] at h
    obtain ⟨_, _, ⟨hloop, rfl⟩, ⟨rfl, rfl⟩, rfl⟩ := h
    exact .breakLoop hloop
  | .returnValue span value =>
    simp only [Source.Stmt.lower, bind_eq_ok, checked_eq_ok, reading_eq_ok, pure_eq_ok,
      Prod.mk.injEq] at h
    obtain ⟨_, _, ⟨hfunction, rfl⟩, value', _, ⟨hvalue, rfl⟩, ⟨rfl, rfl⟩, rfl⟩ := h
    exact .returnValue hfunction (phraseLowered_of_lower value hvalue)
  | .returnNone span =>
    simp only [Source.Stmt.lower, bind_eq_ok, checked_eq_ok, pure_eq_ok, Prod.mk.injEq] at h
    obtain ⟨_, _, ⟨hfunction, rfl⟩, ⟨rfl, rfl⟩, rfl⟩ := h
    exact .returnNone hfunction
  -- What follows an arm is split: only an `if` with nothing behind it becomes a short one.
  | .branch span test body .nothing =>
    simp only [Source.Stmt.lower, bind_eq_ok, reading_eq_ok, pure_eq_ok, Prod.mk.injEq] at h
    obtain ⟨test', _, ⟨htest, rfl⟩, ⟨body', _⟩, _, hbody, ⟨rfl, rfl⟩, rfl⟩ := h
    obtain ⟨htest, htruth⟩ := lowerCondition_eq_ok htest
    exact .shortBranch htest htruth (passageLowered_of_lowerList body hbody)
  | .branch span test body (.elseIf test₂ body₂ rest) =>
    simp only [Source.Stmt.lower, bind_eq_ok, reading_eq_ok, pure_eq_ok, Prod.mk.injEq] at h
    obtain ⟨test', _, ⟨htest, rfl⟩, ⟨body', _⟩, _, hbody, ⟨orElse', _⟩, _, helse, ⟨rfl, rfl⟩,
      rfl⟩ := h
    obtain ⟨htest, htruth⟩ := lowerCondition_eq_ok htest
    exact .branch htest htruth (passageLowered_of_lowerList body hbody) (by simp)
      (passageLowered_of_lowerElse (.elseIf test₂ body₂ rest) helse)
  | .branch span test body (.block block) =>
    simp only [Source.Stmt.lower, bind_eq_ok, reading_eq_ok, pure_eq_ok, Prod.mk.injEq] at h
    obtain ⟨test', _, ⟨htest, rfl⟩, ⟨body', _⟩, _, hbody, ⟨orElse', _⟩, _, helse, ⟨rfl, rfl⟩,
      rfl⟩ := h
    obtain ⟨htest, htruth⟩ := lowerCondition_eq_ok htest
    exact .branch htest htruth (passageLowered_of_lowerList body hbody) (by simp)
      (passageLowered_of_lowerElse (.block block) helse)
  | .whileLoop span test body =>
    simp only [Source.Stmt.lower, bind_eq_ok, reading_eq_ok, pure_eq_ok, Prod.mk.injEq] at h
    obtain ⟨test', _, ⟨htest, rfl⟩, ⟨body', last⟩, _, hbody, ⟨rfl, rfl⟩, rfl⟩ := h
    obtain ⟨htest, htruth⟩ := lowerCondition_eq_ok htest
    exact .whileLoop htest htruth (passageLowered_of_lowerList body hbody)
  | .forEach span iterator collection body =>
    simp only [Source.Stmt.lower, bind_eq_ok, reading_eq_ok, settled_eq_ok, reserve_eq_ok,
      pure_eq_ok, Prod.mk.injEq] at h
    obtain ⟨collection', _, ⟨hcollection, rfl⟩, _, _, ⟨rfl, rfl⟩, _, _, ⟨rfl, rfl⟩,
      ⟨body', last⟩, _, hbody, ⟨rfl, rfl⟩, rfl⟩ := h
    exact .forEach (phraseLowered_of_lower collection hcollection) rfl
      (passageLowered_of_lowerList body hbody)
  | .forTurn span iterator turnSpan [low, high, step] body =>
    simp only [Source.Stmt.lower, bind_eq_ok, checked_eq_ok, reading_eq_ok, settled_eq_ok,
      reserve_eq_ok, pure_eq_ok, Prod.mk.injEq] at h
    obtain ⟨low', _, ⟨hlow, rfl⟩, high', _, ⟨hhigh, rfl⟩, step', _, ⟨hstep, rfl⟩, direction, _,
      ⟨hdirection, rfl⟩, _, _, ⟨rfl, rfl⟩, _, _, ⟨rfl, rfl⟩, ⟨body', last⟩, _, hbody,
      ⟨rfl, rfl⟩, rfl⟩ := h
    exact .forTurn (phraseLowered_of_lower low hlow) (phraseLowered_of_lower high hhigh)
      (phraseLowered_of_lower step hstep) hdirection rfl (passageLowered_of_lowerList body hbody)
  -- With any other number of arguments nothing is lowered.
  | .forTurn span iterator turnSpan [] body
  | .forTurn span iterator turnSpan [_] body
  | .forTurn span iterator turnSpan [_, _] body
  | .forTurn span iterator turnSpan (_ :: _ :: _ :: _ :: _) body =>
    simp [Source.Stmt.lower, checked_eq_ok, refuse] at h

theorem passageLowered_of_lowerElse {strictness : Strictness} {scope scope' : Scope}
    {session session' : Session} (orElse : Source.Else) {orElse' : Else}
    (h : orElse.lower strictness scope session = .ok (orElse', scope') session') :
    PassageLowered strictness scope session (.arms orElse) (.arms orElse') scope' session' := by
  match orElse with
  | .nothing =>
    simp only [Source.Else.lower, pure_eq_ok, Prod.mk.injEq] at h
    obtain ⟨⟨rfl, rfl⟩, rfl⟩ := h
    exact .nothing
  | .elseIf test body rest =>
    simp only [Source.Else.lower, bind_eq_ok, reading_eq_ok, pure_eq_ok, Prod.mk.injEq] at h
    obtain ⟨test', _, ⟨htest, rfl⟩, ⟨body', _⟩, _, hbody, ⟨rest', _⟩, _, hrest, ⟨rfl, rfl⟩,
      rfl⟩ := h
    obtain ⟨htest, htruth⟩ := lowerCondition_eq_ok htest
    exact .elseIf htest htruth (passageLowered_of_lowerList body hbody)
      (passageLowered_of_lowerElse rest hrest)
  | .block body =>
    simp only [Source.Else.lower, bind_eq_ok, pure_eq_ok, Prod.mk.injEq] at h
    obtain ⟨⟨body', _⟩, _, hbody, ⟨rfl, rfl⟩, rfl⟩ := h
    exact .block (passageLowered_of_lowerList body hbody)

theorem passageLowered_of_lowerList {strictness : Strictness} {scope scope' : Scope}
    {session session' : Session} (ss : List Source.Stmt) {ss' : List Stmt}
    (h : Source.Stmt.lowerList strictness scope ss session = .ok (ss', scope') session') :
    PassageLowered strictness scope session (.block ss) (.block ss') scope' session' := by
  match ss with
  | [] =>
    simp only [Source.Stmt.lowerList, pure_eq_ok, Prod.mk.injEq] at h
    obtain ⟨⟨rfl, rfl⟩, rfl⟩ := h
    exact .nil
  | s :: ss =>
    simp only [Source.Stmt.lowerList, bind_eq_ok, pure_eq_ok, Prod.mk.injEq] at h
    obtain ⟨⟨s', _⟩, _, hfirst, ⟨ss', _⟩, _, hrest, ⟨rfl, rfl⟩, rfl⟩ := h
    exact .cons (passageLowered_of_lower s hfirst) (passageLowered_of_lowerList ss hrest)

end

/-- A program is what its statements come to, with the results settled by then. -/
theorem Source.lower_eq_outcome (strictness : Strictness) (tree : List Source.Stmt) :
    Source.lower strictness tree =
      (Lowering.outcome (Source.Stmt.lowerList strictness .program tree) .initial).map
        (fun x => ⟨x.1.1, x.2.returns⟩) := by
  unfold Source.lower Lowering.outcome
  cases Source.Stmt.lowerList strictness .program tree .initial <;> rfl

/-- What becomes of a whole program. -/
theorem passageLowered_of_program {strictness : Strictness} {tree : List Source.Stmt}
    {p : Program} (h : Source.lower strictness tree = .ok p) :
    ∃ last session, PassageLowered strictness .program .initial (.block tree) (.block p.body)
      last session ∧ p.returns = session.returns := by
  unfold Source.lower at h
  split at h
  next body last session hrun =>
    cases h
    exact ⟨last, session, passageLowered_of_lowerList tree hrun, rfl⟩
  next => cases h

/-! ### The rules describe nothing else -/

/-- Lowering a phrase gives this one. -/
def PhraseGiven (setting : Setting) : Source.Phrase → Phrase → Prop
  | .expr e, .expr e' => e.lower setting = .ok e'
  | .list es, .list es' => Source.Expr.lowerList setting es = .ok es'
  | .members ms, .members ms' => Source.Expr.lowerMembers setting ms = .ok ms'
  | _, _ => False

/-- Lowering a passage gives this one, and leaves this scope and this session behind. -/
def PassageGiven (strictness : Strictness) (scope : Scope) (session : Session) :
    Source.Passage → Passage → Scope → Session → Prop
  | .stmt s, .stmt s', scope', session' =>
    s.lower strictness scope session = .ok (s', scope') session'
  | .arms e, .arms e', scope', session' =>
    e.lower strictness scope session = .ok (e', scope') session'
  | .block ss, .block ss', scope', session' =>
    Source.Stmt.lowerList strictness scope ss session = .ok (ss', scope') session'
  | _, _, _, _ => False

/-- What the rules say of an expression is what lowering gives. With `phraseLowered_of_lower` the
rules say neither more nor less. -/
theorem PhraseLowered.given {setting : Setting} {d : Source.Phrase} {d' : Phrase}
    (h : PhraseLowered setting d d') : PhraseGiven setting d d' := by
  induction h with
  | int | float | string | bool | listNil | membersNil => rfl
  | ident found =>
    show Source.Expr.lower _ _ = _
    rw [Source.Expr.lower, found]
  | binary _ _ hty ihleft ihright =>
    show Source.Expr.lower _ _ = _
    rw [Source.Expr.lower]
    exact bind_eq_ok_iff.mpr ⟨_, ihleft, bind_eq_ok_iff.mpr ⟨_, ihright,
      bind_eq_ok_iff.mpr ⟨_, hty, rfl⟩⟩⟩
  | unary _ ih | member _ ih | array _ ih | object _ ih =>
    show Source.Expr.lower _ _ = _
    rw [Source.Expr.lower]
    exact bind_eq_ok_iff.mpr ⟨_, ih, rfl⟩
  | call _ _ harity hnumbers ihcallee ihargs =>
    show Source.Expr.lower _ _ = _
    rw [Source.Expr.lower]
    refine bind_eq_ok_iff.mpr ⟨_, ihcallee, bind_eq_ok_iff.mpr ⟨_, ihargs, ?_⟩⟩
    exact bind_eq_ok_iff.mpr ⟨_, harity, bind_eq_ok_iff.mpr ⟨_, hnumbers, rfl⟩⟩
  | subscript _ hparts _ ihbase ihindex =>
    show Source.Expr.lower _ _ = _
    rw [Source.Expr.lower]
    exact bind_eq_ok_iff.mpr ⟨_, ihbase, bind_eq_ok_iff.mpr ⟨_, hparts,
      bind_eq_ok_iff.mpr ⟨_, ihindex, rfl⟩⟩⟩
  | listCons _ _ ihfirst ihrest =>
    show Source.Expr.lowerList _ _ = _
    rw [Source.Expr.lowerList]
    exact bind_eq_ok_iff.mpr ⟨_, ihfirst, bind_eq_ok_iff.mpr ⟨_, ihrest, rfl⟩⟩
  | membersCons _ _ ihfirst ihrest =>
    show Source.Expr.lowerMembers _ _ = _
    rw [Source.Expr.lowerMembers]
    exact bind_eq_ok_iff.mpr ⟨_, ihfirst, bind_eq_ok_iff.mpr ⟨_, ihrest, rfl⟩⟩

/-- The same for a test that passes the check for truth values. -/
theorem PhraseLowered.condition_given {setting : Setting} {e : Source.Expr} {e' : Expr}
    (h : PhraseLowered setting (.expr e) (.expr e'))
    (htruth : checkBoolean setting.returns e' e.span = .ok ()) :
    e.lowerCondition setting = .ok e' :=
  bind_eq_ok_iff.mpr ⟨_, h.given, bind_eq_ok_iff.mpr ⟨_, htruth, rfl⟩⟩

namespace Lowering

variable {α β : Type} {s t u : Session}

/-- Two steps that succeed one after the other. -/
theorem bind_of_ok {x : Lowering α} {f : α → Lowering β} {a : α} {b : β}
    (hx : x s = .ok a u) (hf : f a u = .ok b t) : (x >>= f) s = .ok b t :=
  bind_eq_ok.mpr ⟨a, u, hx, hf⟩

theorem checked_of_ok {result : Except Fault α} {a : α} (h : result = .ok a) :
    checked result s = .ok a s :=
  checked_eq_ok.mpr ⟨h, rfl⟩

theorem reading_of_ok {strictness : Strictness} {scope : Scope} {f : Setting → Except Fault α}
    {a : α} (h : f ⟨strictness, s.returns, scope⟩ = .ok a) :
    reading strictness scope f s = .ok a s :=
  reading_eq_ok.mpr ⟨h, rfl⟩

end Lowering

open Lowering in
/-- What the rules say of a statement is what lowering gives. With `passageLowered_of_lower` the
rules say neither more nor less. -/
theorem PassageLowered.given {strictness : Strictness} {scope scope' : Scope}
    {session session' : Session} {d : Source.Passage} {d' : Passage}
    (h : PassageLowered strictness scope session d d' scope' session') :
    PassageGiven strictness scope session d d' scope' session' := by
  -- The premises of each rule are the steps of the clause, in the order in which they are taken.
  induction h with
  | declareVar hnew hinit hv =>
    subst hv
    rw [PassageGiven, Source.Stmt.lower]
    refine bind_of_ok (checked_of_ok hnew) ?_
    exact bind_of_ok (reading_of_ok hinit.given) rfl
  | declareFunc hnew hparams hvars hf _ hrec hresult ih =>
    subst hvars hf
    rw [PassageGiven, Source.Stmt.lower]
    refine bind_of_ok (checked_of_ok hnew) ?_
    refine bind_of_ok (checked_of_ok hparams) ?_
    refine bind_of_ok rfl (bind_of_ok ih ?_)
    refine bind_of_ok (checked_of_ok hrec) ?_
    exact bind_of_ok rfl (bind_of_ok (checked_of_ok hresult) rfl)
  | bump htarget hnumber hplace =>
    rw [PassageGiven, Source.Stmt.lower]
    refine bind_of_ok (reading_of_ok htarget.given) ?_
    refine bind_of_ok rfl (bind_of_ok (checked_of_ok hnumber) ?_)
    exact bind_of_ok (checked_of_ok hplace) rfl
  | assign htarget hplace hsource =>
    rw [PassageGiven, Source.Stmt.lower]
    refine bind_of_ok (reading_of_ok htarget.given) ?_
    exact bind_of_ok (checked_of_ok hplace) (bind_of_ok (reading_of_ok hsource.given) rfl)
  | call hvalue =>
    rw [PassageGiven, Source.Stmt.lower]
    exact bind_of_ok (reading_of_ok hvalue.given) rfl
  | breakLoop hcheck | returnNone hcheck =>
    rw [PassageGiven, Source.Stmt.lower]
    exact bind_of_ok (checked_of_ok hcheck) rfl
  | returnValue hfunction hvalue =>
    rw [PassageGiven, Source.Stmt.lower]
    exact bind_of_ok (checked_of_ok hfunction) (bind_of_ok (reading_of_ok hvalue.given) rfl)
  | shortBranch htest htruth _ ih | whileLoop htest htruth _ ih =>
    rw [PassageGiven, Source.Stmt.lower]
    exact bind_of_ok (reading_of_ok (htest.condition_given htruth)) (bind_of_ok ih rfl)
  | @branch _ _ _ _ _ _ _ _ _ orElse _ _ _ htest htruth _ hmore _ ihbody ihelse =>
    have htested := htest.condition_given htruth
    cases orElse with
    | nothing => exact absurd rfl hmore
    | elseIf | block =>
      rw [PassageGiven, Source.Stmt.lower]
      · exact bind_of_ok (reading_of_ok htested) (bind_of_ok ihbody (bind_of_ok ihelse rfl))
      · exact hmore
  | forEach hcollection hv _ ih =>
    subst hv
    rw [PassageGiven, Source.Stmt.lower]
    refine bind_of_ok (reading_of_ok hcollection.given) ?_
    exact bind_of_ok rfl (bind_of_ok rfl (bind_of_ok ih rfl))
  | forTurn hlow hhigh hstep hdirection hv _ ih =>
    subst hv
    rw [PassageGiven, Source.Stmt.lower]
    refine bind_of_ok (reading_of_ok hlow.given) ?_
    refine bind_of_ok (reading_of_ok hhigh.given) ?_
    refine bind_of_ok (reading_of_ok hstep.given) ?_
    refine bind_of_ok (checked_of_ok hdirection) ?_
    exact bind_of_ok rfl (bind_of_ok rfl (bind_of_ok ih rfl))
  | nothing | nil => rfl
  | elseIf htest htruth _ _ ihbody ihelse =>
    rw [PassageGiven, Source.Else.lower]
    refine bind_of_ok (reading_of_ok (htest.condition_given htruth)) ?_
    exact bind_of_ok ihbody (bind_of_ok ihelse rfl)
  | block _ ih =>
    rw [PassageGiven, Source.Else.lower]
    exact bind_of_ok ih rfl
  | cons _ _ ihfirst ihrest =>
    rw [PassageGiven, Source.Stmt.lowerList]
    exact bind_of_ok ihfirst (bind_of_ok ihrest rfl)

/-- A program for whose body the rules apply is lowered to it. -/
theorem PassageLowered.program_given {strictness : Strictness} {tree : List Source.Stmt}
    {body : List Stmt} {last : Scope} {session : Session}
    (h : PassageLowered strictness .program .initial (.block tree) (.block body) last session) :
    Source.lower strictness tree = .ok ⟨body, session.returns⟩ := by
  have hrun : Source.Stmt.lowerList strictness .program tree .initial = .ok (body, last) session :=
    h.given
  rw [Source.lower, hrun]

/-! ### Where statements come from -/

/-- Every statement of a lowered passage came about by one of the rules for statements. An arm
behind the first one counts as an `if` of its own. -/
theorem PassageLowered.of_mem {strictness : Strictness} {scope scope' : Scope}
    {session session' : Session} {d : Source.Passage} {d' : Passage} {t' : Stmt}
    (h : PassageLowered strictness scope session d d' scope' session')
    (ht : .stmt t' ∈ d'.nodes) :
    ∃ outer start t last stop,
      PassageLowered strictness outer start (.stmt t) (.stmt t') last stop := by
  induction h with
  | declareVar hnew hinit hv =>
    rcases Stmt.stmt_mem_nodes.mp ht with rfl | hno
    · exact ⟨_, _, .declareVar .none _ _ _, _, _, .declareVar hnew hinit hv⟩
    · cases hno
  | declareFunc hnew hparams hvars hf hbody hrec hresult ih =>
    rcases Stmt.stmt_mem_nodes.mp ht with rfl | ht
    · exact ⟨_, _, _, _, _, .declareFunc hnew hparams hvars hf hbody hrec hresult⟩
    · exact ih ht
  | bump htarget hnumber hplace =>
    rcases Stmt.stmt_mem_nodes.mp ht with rfl | hno
    · exact ⟨_, _, _, _, _, .bump htarget hnumber hplace⟩
    · cases hno
  | assign htarget hplace hsource =>
    rcases Stmt.stmt_mem_nodes.mp ht with rfl | hno
    · exact ⟨_, _, _, _, _, .assign htarget hplace hsource⟩
    · cases hno
  | call hvalue =>
    rcases Stmt.stmt_mem_nodes.mp ht with rfl | hno
    · exact ⟨_, _, .call .none _, _, _, .call hvalue⟩
    · cases hno
  | breakLoop hloop =>
    rcases Stmt.stmt_mem_nodes.mp ht with rfl | hno
    · exact ⟨_, _, _, _, .initial, .breakLoop hloop⟩
    · cases hno
  | returnValue hfunction hvalue =>
    rcases Stmt.stmt_mem_nodes.mp ht with rfl | hno
    · exact ⟨_, _, _, _, _, .returnValue hfunction hvalue⟩
    · cases hno
  | returnNone hfunction =>
    rcases Stmt.stmt_mem_nodes.mp ht with rfl | hno
    · exact ⟨_, _, _, _, .initial, .returnNone hfunction⟩
    · cases hno
  | shortBranch htest htruth hbody ih =>
    rcases Stmt.stmt_mem_nodes.mp ht with rfl | ht
    · exact ⟨_, _, .branch .none _ _ _, _, _, .shortBranch htest htruth hbody⟩
    · exact ih ht
  | branch htest htruth hbody hmore helse ihbody ihelse =>
    rcases Stmt.stmt_mem_nodes.mp ht with rfl | ht
    · exact ⟨_, _, .branch .none _ _ _, _, _, .branch htest htruth hbody hmore helse⟩
    · exact (List.mem_append.mp ht).elim ihbody ihelse
  | whileLoop htest htruth hbody ih =>
    rcases Stmt.stmt_mem_nodes.mp ht with rfl | ht
    · exact ⟨_, _, .whileLoop .none _ _, _, _, .whileLoop htest htruth hbody⟩
    · exact ih ht
  | forEach hcollection hv hbody ih =>
    rcases Stmt.stmt_mem_nodes.mp ht with rfl | ht
    · exact ⟨_, _, .forEach .none _ _ _, _, _, .forEach hcollection hv hbody⟩
    · exact ih ht
  | forTurn hlow hhigh hstep hdirection hv hbody ih =>
    rcases Stmt.stmt_mem_nodes.mp ht with rfl | ht
    · exact ⟨_, _, .forTurn .none _ .none _ _, _, _,
        .forTurn hlow hhigh hstep hdirection hv hbody⟩
    · exact ih ht
  | nothing | nil => cases ht
  | @elseIf _ _ _ _ _ _ _ _ orElse _ _ _ htest htruth hbody helse ihbody ihelse =>
    rcases Else.stmt_mem_nodes.mp ht with rfl | ht
    · cases orElse with
      | nothing =>
        -- Behind the last arm there is an empty block, as if it had been written.
        cases helse
        exact ⟨_, _, .branch .none _ _ (.block []), _, _,
          .branch htest htruth hbody (by simp) (.block .nil)⟩
      | elseIf | block =>
        exact ⟨_, _, .branch .none _ _ _, _, _, .branch htest htruth hbody (by simp) helse⟩
    · exact (List.mem_append.mp ht).elim ihbody ihelse
  | block _ ih => exact ih ht
  | cons _ _ ihfirst ihrest => exact (List.mem_append.mp ht).elim ihfirst ihrest

/-- Every statement of a typed program, at any depth, came about by one of the rules. -/
theorem Program.of_mem_lower {strictness : Strictness} {tree : List Source.Stmt} {p : Program}
    {t' : Stmt} (h : Source.lower strictness tree = .ok p) (ht : .stmt t' ∈ p.nodes) :
    ∃ outer start t last stop,
      PassageLowered strictness outer start (.stmt t) (.stmt t') last stop := by
  obtain ⟨last, session, hlowered, _⟩ := passageLowered_of_program h
  exact hlowered.of_mem ht

/-! ### What happens to the scope -/

/-- What binding an entity under its name does not change holds behind a passage if it holds
before. -/
theorem PassageLowered.scope_of_bind {strictness : Strictness} {P : Scope → Prop}
    (hbind : ∀ scope name x, x.name = name → P scope → P (scope.bind name x))
    {scope scope' : Scope} {session session' : Session} {d : Source.Passage} {d' : Passage}
    (h : PassageLowered strictness scope session d d' scope' session') (hscope : P scope) :
    P scope' := by
  induction h with
  | declareVar _ _ hv => exact hbind _ _ _ (congrArg Var.name hv) hscope
  | declareFunc _ _ _ hf => exact hbind _ _ _ (congrArg Func.name hf) hscope
  | bump | assign | call | breakLoop | returnValue | returnNone | whileLoop | forEach | forTurn
  | nothing | nil => exact hscope
  | shortBranch _ _ _ ih | block _ ih => exact ih hscope
  | branch _ _ _ _ _ ihfirst ihrest | elseIf _ _ _ _ ihfirst ihrest | cons _ _ ihfirst ihrest =>
    exact ihrest (ihfirst hscope)

end Croupier
