import Croupier.Proofs.Reached

/-!
# What lowering refuses

The counterpart of `Croupier.Proofs.Lowered` for the runs that fail. A run fails at one place:
everything before it was lowered, and there a rule is broken. In an expression, `PhraseRefused`
leads to the place and names the check that failed. In a statement, `Reached` leads to the place,
and a `PassageBroken` says what is wrong there: with a declaration, with a jump, with an expression
or with what is done with one.

Which fault a check reports is said once for each check. The faults are then sorted by what the
broken rule is about, `Cause.topic`, so that a law about one kind of fault passes over all the
others at once.

> `passageRefused_of_program`: every run that fails is described by the rules.
> `PhraseRefused.topic`: an expression is refused over a name or over what is done with a value.
> `PassageRefused.at_declaration`: a passage that is refused over a rule for declarations leads to
> a declaration that breaks it.
-/

namespace Croupier

/-! ### Expressions -/

/-- How an expression that is read against a setting comes to be refused. -/
inductive PhraseRefused (setting : Setting) : Source.Phrase → Fault → Prop where
  | ident {span name} (hnone : setting.scope.lookup name.name = none) :
    PhraseRefused setting (.expr (.ident span name)) ⟨.undeclared name.name, some name.span⟩
  | binaryLeft {span op left right fault} (hleft : PhraseRefused setting (.expr left) fault) :
    PhraseRefused setting (.expr (.binary span op left right)) fault
  | binaryRight {span op left right left' fault}
      (hleft : PhraseLowered setting (.expr left) (.expr left'))
      (hright : PhraseRefused setting (.expr right) fault) :
    PhraseRefused setting (.expr (.binary span op left right)) fault
  | binary {span op left right left' right' fault}
      (hleft : PhraseLowered setting (.expr left) (.expr left'))
      (hright : PhraseLowered setting (.expr right) (.expr right'))
      (hty : binaryTy setting op left' right' span = .error fault) :
    PhraseRefused setting (.expr (.binary span op left right)) fault
  | unary {span op operand fault} (hoperand : PhraseRefused setting (.expr operand) fault) :
    PhraseRefused setting (.expr (.unary span op operand)) fault
  | callee {span callee args fault} (hcallee : PhraseRefused setting (.expr callee) fault) :
    PhraseRefused setting (.expr (.call span callee args)) fault
  | args {span callee args callee' fault}
      (hcallee : PhraseLowered setting (.expr callee) (.expr callee'))
      (hargs : PhraseRefused setting (.list args) fault) :
    PhraseRefused setting (.expr (.call span callee args)) fault
  | call {span callee args callee' args' fault}
      (hcallee : PhraseLowered setting (.expr callee) (.expr callee'))
      (hargs : PhraseLowered setting (.list args) (.list args'))
      (hcall : callOn setting.returns callee' args' (args.map Source.Expr.span) span =
        .error fault) :
    PhraseRefused setting (.expr (.call span callee args)) fault
  | base {span base index fault} (hbase : PhraseRefused setting (.expr base) fault) :
    PhraseRefused setting (.expr (.subscript span base index)) fault
  | subscript {span base index base' fault}
      (hbase : PhraseLowered setting (.expr base) (.expr base'))
      (hparts : checkSubscriptable setting.returns base' base.span = .error fault) :
    PhraseRefused setting (.expr (.subscript span base index)) fault
  | index {span base index base' fault}
      (hbase : PhraseLowered setting (.expr base) (.expr base'))
      (hindex : PhraseRefused setting (.expr index) fault) :
    PhraseRefused setting (.expr (.subscript span base index)) fault
  | member {span base field fault} (hbase : PhraseRefused setting (.expr base) fault) :
    PhraseRefused setting (.expr (.member span base field)) fault
  | array {span items fault} (hitems : PhraseRefused setting (.list items) fault) :
    PhraseRefused setting (.expr (.array span items)) fault
  | object {span ms fault} (hmembers : PhraseRefused setting (.members ms) fault) :
    PhraseRefused setting (.expr (.object span ms)) fault
  | listFirst {e es fault} (hfirst : PhraseRefused setting (.expr e) fault) :
    PhraseRefused setting (.list (e :: es)) fault
  | listRest {e es e' fault} (hfirst : PhraseLowered setting (.expr e) (.expr e'))
      (hrest : PhraseRefused setting (.list es) fault) :
    PhraseRefused setting (.list (e :: es)) fault
  | membersFirst {key e ms fault} (hfirst : PhraseRefused setting (.expr e) fault) :
    PhraseRefused setting (.members ((key, e) :: ms)) fault
  | membersRest {key e ms e' fault} (hfirst : PhraseLowered setting (.expr e) (.expr e'))
      (hrest : PhraseRefused setting (.members ms) fault) :
    PhraseRefused setting (.members ((key, e) :: ms)) fault

/-- Two checks fail if the first does, or if it succeeds and the second fails. -/
theorem bind_eq_error_iff {α β : Type} {x : Except Fault α} {f : α → Except Fault β}
    {fault : Fault} :
    (x >>= f) = .error fault ↔ x = .error fault ∨ ∃ a, x = .ok a ∧ f a = .error fault := by
  cases x with
  | error e => simp [Bind.bind, Except.bind]
  | ok a => simp [Bind.bind, Except.bind]

mutual

/-- Every fault of an expression comes from one of the rules. -/
theorem phraseRefused_of_lower {setting : Setting} (e : Source.Expr) {fault : Fault}
    (h : e.lower setting = .error fault) : PhraseRefused setting (.expr e) fault := by
  match e with
  | .int _ _ | .float _ _ | .string _ _ | .bool _ _ => cases h
  | .ident span name =>
    rw [Source.Expr.lower] at h
    split at h
    next => cases h
    next hnone => cases h; exact .ident hnone
  | .binary span op left right =>
    rw [Source.Expr.lower] at h
    rcases bind_eq_error_iff.mp h with hleft | ⟨left', hleft, h⟩
    · exact .binaryLeft (phraseRefused_of_lower left hleft)
    have hleft := phraseLowered_of_lower left hleft
    rcases bind_eq_error_iff.mp h with hright | ⟨right', hright, h⟩
    · exact .binaryRight hleft (phraseRefused_of_lower right hright)
    have hright := phraseLowered_of_lower right hright
    rcases bind_eq_error_iff.mp h with hty | ⟨ty, _, h⟩
    · exact .binary hleft hright hty
    · cases h
  | .unary span op operand =>
    rw [Source.Expr.lower] at h
    rcases bind_eq_error_iff.mp h with hoperand | ⟨_, _, h⟩
    · exact .unary (phraseRefused_of_lower operand hoperand)
    · cases h
  | .call span callee args =>
    rw [Source.Expr.lower] at h
    rcases bind_eq_error_iff.mp h with hcallee | ⟨callee', hcallee, h⟩
    · exact .callee (phraseRefused_of_lower callee hcallee)
    have hcallee := phraseLowered_of_lower callee hcallee
    rcases bind_eq_error_iff.mp h with hargs | ⟨args', hargs, h⟩
    · exact .args hcallee (phraseRefused_of_lowerList args hargs)
    · exact .call hcallee (phraseLowered_of_lowerList args hargs) h
  | .subscript span base index =>
    rw [Source.Expr.lower] at h
    rcases bind_eq_error_iff.mp h with hbase | ⟨base', hbase, h⟩
    · exact .base (phraseRefused_of_lower base hbase)
    have hbase := phraseLowered_of_lower base hbase
    rcases bind_eq_error_iff.mp h with hparts | ⟨_, _, h⟩
    · exact .subscript hbase hparts
    rcases bind_eq_error_iff.mp h with hindex | ⟨_, _, h⟩
    · exact .index hbase (phraseRefused_of_lower index hindex)
    · cases h
  | .member span base field =>
    rw [Source.Expr.lower] at h
    rcases bind_eq_error_iff.mp h with hbase | ⟨_, _, h⟩
    · exact .member (phraseRefused_of_lower base hbase)
    · cases h
  | .array span items =>
    rw [Source.Expr.lower] at h
    rcases bind_eq_error_iff.mp h with hitems | ⟨_, _, h⟩
    · exact .array (phraseRefused_of_lowerList items hitems)
    · cases h
  | .object span members =>
    rw [Source.Expr.lower] at h
    rcases bind_eq_error_iff.mp h with hmembers | ⟨_, _, h⟩
    · exact .object (phraseRefused_of_lowerMembers members hmembers)
    · cases h

theorem phraseRefused_of_lowerList {setting : Setting} (es : List Source.Expr) {fault : Fault}
    (h : Source.Expr.lowerList setting es = .error fault) :
    PhraseRefused setting (.list es) fault := by
  match es with
  | [] => cases h
  | e :: es =>
    rw [Source.Expr.lowerList] at h
    rcases bind_eq_error_iff.mp h with hfirst | ⟨e', hfirst, h⟩
    · exact .listFirst (phraseRefused_of_lower e hfirst)
    rcases bind_eq_error_iff.mp h with hrest | ⟨_, _, h⟩
    · exact .listRest (phraseLowered_of_lower e hfirst) (phraseRefused_of_lowerList es hrest)
    · cases h

theorem phraseRefused_of_lowerMembers {setting : Setting} (ms : List (String × Source.Expr))
    {fault : Fault} (h : Source.Expr.lowerMembers setting ms = .error fault) :
    PhraseRefused setting (.members ms) fault := by
  match ms with
  | [] => cases h
  | (key, e) :: ms =>
    rw [Source.Expr.lowerMembers] at h
    rcases bind_eq_error_iff.mp h with hfirst | ⟨e', hfirst, h⟩
    · exact .membersFirst (phraseRefused_of_lower e hfirst)
    rcases bind_eq_error_iff.mp h with hrest | ⟨_, _, h⟩
    · exact .membersRest (phraseLowered_of_lower e hfirst)
        (phraseRefused_of_lowerMembers ms hrest)
    · cases h

end

/-! ### Statements -/

/-- How a declaration that is read in a scope and a session breaks a rule for declarations. -/
inductive DeclarationRefused (strictness : Strictness) (scope : Scope) (session : Session) :
    Source.Stmt → Fault → Prop where
  | varName {span constant name init fault} (hnew : checkUndeclared scope name = .error fault) :
    DeclarationRefused strictness scope session (.declareVar span constant name init) fault
  | funcName {d : Source.FuncDecl} {fault} (hnew : checkUndeclared scope d.name = .error fault) :
    DeclarationRefused strictness scope session d.stmt fault
  | params {d : Source.FuncDecl} {fault} (hparams : checkParams d.params = .error fault) :
    DeclarationRefused strictness scope session d.stmt fault
  | recursion {d : Source.FuncDecl} {body' last session' fault}
      (hbody : PassageLowered strictness (d.inner scope session.nextId) (d.entered session)
        (.block d.body) (.block body') last session')
      (hrec : checkRecursion (d.func session.nextId) body' d.name d.params d.paramsSpan d.ascribed =
        .error fault) :
    DeclarationRefused strictness scope session d.stmt fault
  | result {d : Source.FuncDecl} {body' last session' fault}
      (hnew : checkUndeclared scope d.name = .ok ()) (hparams : checkParams d.params = .ok ())
      (hbody : PassageLowered strictness (d.inner scope session.nextId) (d.entered session)
        (.block d.body) (.block body') last session')
      (hrec : checkRecursion (d.func session.nextId) body' d.name d.params d.paramsSpan d.ascribed =
        .ok ())
      (hresult : reconcile d.name.name d.ascribed (returnTypes session'.returns body') d.span =
        .error fault) :
    DeclarationRefused strictness scope session d.stmt fault

/-- How a jump finds nothing to leave. -/
inductive JumpRefused (scope : Scope) : Source.Stmt → Fault → Prop where
  | breakLoop {span fault} (hloop : checkInLoop scope span = .error fault) :
    JumpRefused scope (.breakLoop span) fault
  | returnValue {span value fault} (hfunction : checkInFunction scope span = .error fault) :
    JumpRefused scope (.returnValue span value) fault
  | returnNone {span fault} (hfunction : checkInFunction scope span = .error fault) :
    JumpRefused scope (.returnNone span) fault

/-- How a statement, or an arm of an `if`, comes to be refused over an expression in it. -/
inductive PartRefused (setting : Setting) : Source.Passage → Fault → Prop where
  | declareVar {span constant name init fault}
      (hnew : checkUndeclared setting.scope name = .ok ())
      (hinit : PhraseRefused setting (.expr init) fault) :
    PartRefused setting (.stmt (.declareVar span constant name init)) fault
  | bump {span op target fault} (htarget : PhraseRefused setting (.expr target) fault) :
    PartRefused setting (.stmt (.bump span op target)) fault
  | assignTarget {span target source fault}
      (htarget : PhraseRefused setting (.expr target) fault) :
    PartRefused setting (.stmt (.assign span target source)) fault
  | assignSource {span target source target' fault}
      (htarget : PhraseLowered setting (.expr target) (.expr target'))
      (hplace : checkAssignable target' span = .ok ())
      (hsource : PhraseRefused setting (.expr source) fault) :
    PartRefused setting (.stmt (.assign span target source)) fault
  | call {span value fault} (hvalue : PhraseRefused setting (.expr value) fault) :
    PartRefused setting (.stmt (.call span value)) fault
  | returnValue {span value fault} (hfunction : checkInFunction setting.scope span = .ok ())
      (hvalue : PhraseRefused setting (.expr value) fault) :
    PartRefused setting (.stmt (.returnValue span value)) fault
  | branch {span test body orElse fault} (htest : PhraseRefused setting (.expr test) fault) :
    PartRefused setting (.stmt (.branch span test body orElse)) fault
  | whileLoop {span test body fault} (htest : PhraseRefused setting (.expr test) fault) :
    PartRefused setting (.stmt (.whileLoop span test body)) fault
  | forEach {span iterator collection body fault}
      (hcollection : PhraseRefused setting (.expr collection) fault) :
    PartRefused setting (.stmt (.forEach span iterator collection body)) fault
  | forTurn {span iterator turnSpan args body fault} (hlength : args.length = 3)
      (hargs : PhraseRefused setting (.list args) fault) :
    PartRefused setting (.stmt (.forTurn span iterator turnSpan args body)) fault
  | elseIf {test body orElse fault} (htest : PhraseRefused setting (.expr test) fault) :
    PartRefused setting (.arms (.elseIf test body orElse)) fault

/-- How a statement, or an arm of an `if`, cannot do with what its expressions became. -/
inductive UseRefused (setting : Setting) : Source.Passage → Fault → Prop where
  | bumpNumber {span op target target' fault}
      (htarget : PhraseLowered setting (.expr target) (.expr target'))
      (hnumber : checkBump setting.returns target' span = .error fault) :
    UseRefused setting (.stmt (.bump span op target)) fault
  | bumpPlace {span op target target' fault}
      (htarget : PhraseLowered setting (.expr target) (.expr target'))
      (hnumber : checkBump setting.returns target' span = .ok ())
      (hplace : checkAssignable target' span = .error fault) :
    UseRefused setting (.stmt (.bump span op target)) fault
  | assignPlace {span target source target' fault}
      (htarget : PhraseLowered setting (.expr target) (.expr target'))
      (hplace : checkAssignable target' span = .error fault) :
    UseRefused setting (.stmt (.assign span target source)) fault
  | branchTruth {span test body orElse test' fault}
      (htest : PhraseLowered setting (.expr test) (.expr test'))
      (htruth : checkBoolean setting.returns test' test.span = .error fault) :
    UseRefused setting (.stmt (.branch span test body orElse)) fault
  | whileTruth {span test body test' fault}
      (htest : PhraseLowered setting (.expr test) (.expr test'))
      (htruth : checkBoolean setting.returns test' test.span = .error fault) :
    UseRefused setting (.stmt (.whileLoop span test body)) fault
  | turnArity {span iterator turnSpan args body} (hlength : args.length ≠ 3) :
    UseRefused setting (.stmt (.forTurn span iterator turnSpan args body))
      ⟨.turnArity args.length, some turnSpan⟩
  | turnDirection {span iterator turnSpan low high step body low' high' step' fault}
      (hlow : PhraseLowered setting (.expr low) (.expr low'))
      (hhigh : PhraseLowered setting (.expr high) (.expr high'))
      (hstep : PhraseLowered setting (.expr step) (.expr step'))
      (hdirection : turnDirection step' step.span = .error fault) :
    UseRefused setting (.stmt (.forTurn span iterator turnSpan [low, high, step] body)) fault
  | elseIfTruth {test body orElse test' fault}
      (htest : PhraseLowered setting (.expr test) (.expr test'))
      (htruth : checkBoolean setting.returns test' test.span = .error fault) :
    UseRefused setting (.arms (.elseIf test body orElse)) fault

/-- How a passage that is read in a scope and a session breaks a rule where it stands, and not in a
statement inside it. -/
inductive PassageBroken (strictness : Strictness) (scope : Scope) (session : Session) :
    Source.Passage → Fault → Prop where
  | declaration {s fault} (h : DeclarationRefused strictness scope session s fault) :
    PassageBroken strictness scope session (.stmt s) fault
  | jump {s fault} (h : JumpRefused scope s fault) :
    PassageBroken strictness scope session (.stmt s) fault
  | part {t fault} (h : PartRefused ⟨strictness, session.returns, scope⟩ t fault) :
    PassageBroken strictness scope session t fault
  | use {t fault} (h : UseRefused ⟨strictness, session.returns, scope⟩ t fault) :
    PassageBroken strictness scope session t fault

/-- Lowering a passage comes to a part of it that breaks a rule. -/
def PassageRefused (strictness : Strictness) (scope : Scope) (session : Session)
    (d : Source.Passage) (fault : Fault) : Prop :=
  ∃ inner start t, Reached strictness scope session d inner start t ∧
    PassageBroken strictness inner start t fault

namespace PassageRefused

variable {strictness : Strictness} {scope scope' : Scope} {session session' : Session}
  {d d' : Source.Passage} {fault : Fault}

/-- A passage is refused if it breaks a rule itself. -/
theorem here (h : PassageBroken strictness scope session d fault) :
    PassageRefused strictness scope session d fault :=
  ⟨scope, session, d, .here, h⟩

/-- A passage is refused if lowering it comes to a passage that is. -/
theorem along (h : PassageRefused strictness scope' session' d' fault)
    (hstep : ∀ {inner start t}, Reached strictness scope' session' d' inner start t →
      Reached strictness scope session d inner start t) :
    PassageRefused strictness scope session d fault := by
  obtain ⟨inner, start, t, hreached, hbroken⟩ := h
  exact ⟨inner, start, t, hstep hreached, hbroken⟩

end PassageRefused

namespace Lowering

/-- Two steps fail if the first does, or if the second does from the session that the first
leaves. -/
theorem bind_eq_error {α β : Type} {x : Lowering α} {f : α → Lowering β} {s t : Session}
    {fault : Fault} :
    (x >>= f) s = .error fault t ↔
      x s = .error fault t ∨ ∃ a u, x s = .ok a u ∧ f a u = .error fault t := by
  show EStateM.bind x f s = _ ↔ _
  unfold EStateM.bind
  cases x s with
  | ok a u =>
    constructor
    · exact fun h => Or.inr ⟨a, u, rfl, h⟩
    · rintro (h | ⟨_, _, h, g⟩)
      · cases h
      · cases h
        exact g
  | error e u => simp

theorem bind_of_error {α β : Type} {x : Lowering α} {f : α → Lowering β} {s t : Session}
    {fault : Fault} (hx : x s = .error fault t) : (x >>= f) s = .error fault t :=
  bind_eq_error.mpr (Or.inl hx)

theorem bind_error_of_ok {α β : Type} {x : Lowering α} {f : α → Lowering β} {s t u : Session}
    {a : α} {fault : Fault} (hx : x s = .ok a u) (hf : f a u = .error fault t) :
    (x >>= f) s = .error fault t :=
  bind_eq_error.mpr (Or.inr ⟨a, u, hx, hf⟩)

theorem pure_ne_error {α : Type} {a : α} {s t : Session} {fault : Fault} :
    (pure a : Lowering α) s ≠ .error fault t := by
  show EStateM.pure a s ≠ _
  simp [EStateM.pure]

/-- A check that fails as a step fails with its own fault, and leaves the session alone. -/
theorem checked_eq_error {α : Type} {result : Except Fault α} {fault : Fault} {s t : Session} :
    checked result s = .error fault t ↔ result = .error fault ∧ t = s := by
  unfold checked
  cases result <;> simp [eq_comm]

/-- The same for a step that only reads. -/
theorem reading_eq_error {α : Type} {strictness : Strictness} {scope : Scope}
    {f : Setting → Except Fault α} {fault : Fault} {s t : Session} :
    reading strictness scope f s = .error fault t ↔
      f ⟨strictness, s.returns, scope⟩ = .error fault ∧ t = s :=
  checked_eq_error

theorem settled_ne_error {fault : Fault} {s t : Session} : settled s ≠ .error fault t := by
  simp [settled]

theorem settle_ne_error {id : Nat} {result : Ty} {fault : Fault} {s t : Session} :
    settle id result s ≠ .error fault t := by
  simp [settle]

theorem reserve_ne_error {count : Nat} {fault : Fault} {s t : Session} :
    reserve count s ≠ .error fault t := by
  simp [reserve]

end Lowering

/-- A test is refused as an expression, or because it is no truth value. -/
theorem lowerCondition_eq_error {setting : Setting} {e : Source.Expr} {fault : Fault}
    (h : e.lowerCondition setting = .error fault) :
    PhraseRefused setting (.expr e) fault ∨
      ∃ e', PhraseLowered setting (.expr e) (.expr e') ∧
        checkBoolean setting.returns e' e.span = .error fault := by
  unfold Source.Expr.lowerCondition at h
  rcases bind_eq_error_iff.mp h with htest | ⟨test, htest, h⟩
  · exact Or.inl (phraseRefused_of_lower e htest)
  rcases bind_eq_error_iff.mp h with htruth | ⟨_, _, h⟩
  · exact Or.inr ⟨test, phraseLowered_of_lower e htest, htruth⟩
  · cases h

open Lowering in
mutual

/-- Every fault of a statement comes from one of the rules. Each case goes through the steps of
lowering: a step that fails gives the rule, a step that succeeds gives its premises. -/
theorem passageRefused_of_lower {strictness : Strictness} {scope : Scope}
    {session session' : Session} (s : Source.Stmt) {fault : Fault}
    (h : s.lower strictness scope session = .error fault session') :
    PassageRefused strictness scope session (.stmt s) fault := by
  -- A chain fails with its first failing step; what the steps before it lowered are premises.
  match s with
  | .declareVar span constant name init =>
    simp only [Source.Stmt.lower, bind_eq_error, checked_eq_error, checked_eq_ok,
      reading_eq_error, settled_ne_error, reserve_ne_error, pure_ne_error, and_false,
      exists_false, or_false] at h
    rcases h with ⟨hnew, _⟩ | ⟨_, _, ⟨hnew, rfl⟩, hinit, _⟩
    · exact .here (.declaration (.varName hnew))
    · exact .here (.part (.declareVar hnew (phraseRefused_of_lower init hinit)))
  | .declareFunc span name params paramsSpan ascribed body =>
    let d : Source.FuncDecl := ⟨span, name, params, paramsSpan, ascribed, body⟩
    simp only [Source.Stmt.lower, bind_eq_error, checked_eq_error, checked_eq_ok, settled_eq_ok,
      settled_ne_error, settle_ne_error, reserve_eq_ok, reserve_ne_error, pure_ne_error, false_or,
      and_false, exists_false, or_false] at h
    rcases h with ⟨hnew, _⟩ | ⟨_, _, ⟨hnew, rfl⟩, h⟩
    · exact .here (.declaration (@DeclarationRefused.funcName _ _ _ d _ hnew))
    rcases h with ⟨hparams, _⟩ | ⟨_, _, ⟨hparams, rfl⟩, _, _, ⟨rfl, rfl⟩, h⟩
    · exact .here (.declaration (@DeclarationRefused.params _ _ _ d _ hparams))
    rcases h with hbody | ⟨⟨body', last⟩, _, hbody, h⟩
    · exact (passageRefused_of_lowerList body hbody).along
        (fun hreached => @Reached.funcBody _ _ _ _ _ _ d hnew hparams hreached)
    have hbody := passageLowered_of_lowerList body hbody
    rcases h with ⟨hrec, _⟩ | ⟨_, _, ⟨hrec, rfl⟩, _, _, ⟨rfl, rfl⟩, hresult, _⟩
    · exact .here (.declaration (@DeclarationRefused.recursion _ _ _ d _ _ _ _ hbody hrec))
    · exact .here (.declaration
        (@DeclarationRefused.result _ _ _ d _ _ _ _ hnew hparams hbody hrec hresult))
  | .bump span op target =>
    simp only [Source.Stmt.lower, bind_eq_error, checked_eq_error, checked_eq_ok, reading_eq_error,
      reading_eq_ok, settled_eq_ok, settled_ne_error, pure_ne_error, false_or, and_false,
      exists_false, or_false] at h
    rcases h with ⟨htarget, _⟩ | ⟨target', _, ⟨htarget, rfl⟩, _, _, ⟨rfl, rfl⟩, h⟩
    · exact .here (.part (.bump (phraseRefused_of_lower target htarget)))
    have htarget := phraseLowered_of_lower target htarget
    rcases h with ⟨hnumber, _⟩ | ⟨_, _, ⟨hnumber, rfl⟩, hplace, _⟩
    · exact .here (.use (.bumpNumber htarget hnumber))
    · exact .here (.use (.bumpPlace htarget hnumber hplace))
  | .assign span target source =>
    simp only [Source.Stmt.lower, bind_eq_error, checked_eq_error, checked_eq_ok, reading_eq_error,
      reading_eq_ok, pure_ne_error, and_false, exists_false, or_false] at h
    rcases h with ⟨htarget, _⟩ | ⟨target', _, ⟨htarget, rfl⟩, h⟩
    · exact .here (.part (.assignTarget (phraseRefused_of_lower target htarget)))
    have htarget := phraseLowered_of_lower target htarget
    rcases h with ⟨hplace, _⟩ | ⟨_, _, ⟨hplace, rfl⟩, hsource, _⟩
    · exact .here (.use (.assignPlace htarget hplace))
    · exact .here (.part (.assignSource htarget hplace (phraseRefused_of_lower source hsource)))
  | .call span value =>
    simp only [Source.Stmt.lower, bind_eq_error, reading_eq_error, pure_ne_error, and_false,
      exists_false, or_false] at h
    exact .here (.part (.call (phraseRefused_of_lower value h.1)))
  | .breakLoop span =>
    simp only [Source.Stmt.lower, bind_eq_error, checked_eq_error, pure_ne_error, and_false,
      exists_false, or_false] at h
    exact .here (.jump (.breakLoop h.1))
  | .returnValue span value =>
    simp only [Source.Stmt.lower, bind_eq_error, checked_eq_error, checked_eq_ok, reading_eq_error,
      pure_ne_error, and_false, exists_false, or_false] at h
    rcases h with ⟨hfunction, _⟩ | ⟨_, _, ⟨hfunction, rfl⟩, hvalue, _⟩
    · exact .here (.jump (.returnValue hfunction))
    · exact .here (.part (.returnValue hfunction (phraseRefused_of_lower value hvalue)))
  | .returnNone span =>
    simp only [Source.Stmt.lower, bind_eq_error, checked_eq_error, pure_ne_error, and_false,
      exists_false, or_false] at h
    exact .here (.jump (.returnNone h.1))
  | .branch span test body .nothing =>
    simp only [Source.Stmt.lower, bind_eq_error, reading_eq_error, reading_eq_ok, pure_ne_error,
      and_false, exists_false, or_false] at h
    rcases h with ⟨htest, _⟩ | ⟨test', _, ⟨htest, rfl⟩, hbody⟩
    · rcases lowerCondition_eq_error htest with htest | ⟨test', htest, htruth⟩
      · exact .here (.part (.branch htest))
      · exact .here (.use (.branchTruth htest htruth))
    · obtain ⟨htest, htruth⟩ := lowerCondition_eq_ok htest
      exact (passageRefused_of_lowerList body hbody).along (.branchBody htest htruth)
  | .branch span test body (.elseIf test₂ body₂ rest) =>
    simp only [Source.Stmt.lower, bind_eq_error, reading_eq_error, reading_eq_ok, pure_ne_error,
      and_false, exists_false, or_false] at h
    rcases h with ⟨htest, _⟩ | ⟨test', _, ⟨htest, rfl⟩, h⟩
    · rcases lowerCondition_eq_error htest with htest | ⟨test', htest, htruth⟩
      · exact .here (.part (.branch htest))
      · exact .here (.use (.branchTruth htest htruth))
    obtain ⟨htest, htruth⟩ := lowerCondition_eq_ok htest
    rcases h with hbody | ⟨⟨body', _⟩, _, hbody, helse⟩
    · exact (passageRefused_of_lowerList body hbody).along (.branchBody htest htruth)
    · have hbody := passageLowered_of_lowerList body hbody
      exact (passageRefused_of_lowerElse (.elseIf test₂ body₂ rest) helse).along
        (.branchElse htest htruth hbody)
  | .branch span test body (.block block) =>
    simp only [Source.Stmt.lower, bind_eq_error, reading_eq_error, reading_eq_ok, pure_ne_error,
      and_false, exists_false, or_false] at h
    rcases h with ⟨htest, _⟩ | ⟨test', _, ⟨htest, rfl⟩, h⟩
    · rcases lowerCondition_eq_error htest with htest | ⟨test', htest, htruth⟩
      · exact .here (.part (.branch htest))
      · exact .here (.use (.branchTruth htest htruth))
    obtain ⟨htest, htruth⟩ := lowerCondition_eq_ok htest
    rcases h with hbody | ⟨⟨body', _⟩, _, hbody, helse⟩
    · exact (passageRefused_of_lowerList body hbody).along (.branchBody htest htruth)
    · have hbody := passageLowered_of_lowerList body hbody
      exact (passageRefused_of_lowerElse (.block block) helse).along
        (.branchElse htest htruth hbody)
  | .whileLoop span test body =>
    simp only [Source.Stmt.lower, bind_eq_error, reading_eq_error, reading_eq_ok, pure_ne_error,
      and_false, exists_false, or_false] at h
    rcases h with ⟨htest, _⟩ | ⟨test', _, ⟨htest, rfl⟩, hbody⟩
    · rcases lowerCondition_eq_error htest with htest | ⟨test', htest, htruth⟩
      · exact .here (.part (.whileLoop htest))
      · exact .here (.use (.whileTruth htest htruth))
    · obtain ⟨htest, htruth⟩ := lowerCondition_eq_ok htest
      exact (passageRefused_of_lowerList body hbody).along (.whileBody htest htruth)
  | .forEach span iterator collection body =>
    simp only [Source.Stmt.lower, bind_eq_error, reading_eq_error, reading_eq_ok, settled_eq_ok,
      settled_ne_error, reserve_eq_ok, reserve_ne_error, pure_ne_error, false_or, and_false,
      exists_false, or_false] at h
    rcases h with ⟨hcollection, _⟩ | ⟨collection', _, ⟨hcollection, rfl⟩, _, _, ⟨rfl, rfl⟩, _, _,
      ⟨rfl, rfl⟩, hbody⟩
    · exact .here (.part (.forEach (phraseRefused_of_lower collection hcollection)))
    · exact (passageRefused_of_lowerList body hbody).along
        (.forEachBody (phraseLowered_of_lower collection hcollection) rfl)
  | .forTurn span iterator turnSpan [low, high, step] body =>
    simp only [Source.Stmt.lower, bind_eq_error, checked_eq_error, checked_eq_ok, reading_eq_error,
      reading_eq_ok, settled_eq_ok, settled_ne_error, reserve_eq_ok, reserve_ne_error,
      pure_ne_error, false_or, and_false, exists_false, or_false] at h
    rcases h with ⟨hlow, _⟩ | ⟨low', _, ⟨hlow, rfl⟩, h⟩
    · exact .here (.part (.forTurn rfl (.listFirst (phraseRefused_of_lower low hlow))))
    have hlow := phraseLowered_of_lower low hlow
    rcases h with ⟨hhigh, _⟩ | ⟨high', _, ⟨hhigh, rfl⟩, h⟩
    · exact .here (.part (.forTurn rfl
        (.listRest hlow (.listFirst (phraseRefused_of_lower high hhigh)))))
    have hhigh := phraseLowered_of_lower high hhigh
    rcases h with ⟨hstep, _⟩ | ⟨step', _, ⟨hstep, rfl⟩, h⟩
    · exact .here (.part (.forTurn rfl
        (.listRest hlow (.listRest hhigh (.listFirst (phraseRefused_of_lower step hstep))))))
    have hstep := phraseLowered_of_lower step hstep
    rcases h with ⟨hdirection, _⟩ | ⟨direction, _, ⟨hdirection, rfl⟩, _, _, ⟨rfl, rfl⟩, _, _,
      ⟨rfl, rfl⟩, hbody⟩
    · exact .here (.use (.turnDirection hlow hhigh hstep hdirection))
    · exact (passageRefused_of_lowerList body hbody).along
        (.forTurnBody hlow hhigh hstep hdirection rfl)
  | .forTurn span iterator turnSpan [] body
  | .forTurn span iterator turnSpan [_] body
  | .forTurn span iterator turnSpan [_, _] body
  | .forTurn span iterator turnSpan (_ :: _ :: _ :: _ :: _) body =>
    simp only [Source.Stmt.lower, checked_eq_error, refuse, Except.error.injEq] at h
    rw [← h.1]
    exact .here (.use (.turnArity (by simp)))

theorem passageRefused_of_lowerElse {strictness : Strictness} {scope : Scope}
    {session session' : Session} (orElse : Source.Else) {fault : Fault}
    (h : orElse.lower strictness scope session = .error fault session') :
    PassageRefused strictness scope session (.arms orElse) fault := by
  match orElse with
  | .nothing =>
    rw [Source.Else.lower] at h
    exact absurd h pure_ne_error
  | .elseIf test body rest =>
    simp only [Source.Else.lower, bind_eq_error, reading_eq_error, reading_eq_ok, pure_ne_error,
      and_false, exists_false, or_false] at h
    rcases h with ⟨htest, _⟩ | ⟨test', _, ⟨htest, rfl⟩, h⟩
    · rcases lowerCondition_eq_error htest with htest | ⟨test', htest, htruth⟩
      · exact .here (.part (.elseIf htest))
      · exact .here (.use (.elseIfTruth htest htruth))
    obtain ⟨htest, htruth⟩ := lowerCondition_eq_ok htest
    rcases h with hbody | ⟨⟨body', _⟩, _, hbody, hrest⟩
    · exact (passageRefused_of_lowerList body hbody).along (.elseIfBody htest htruth)
    · have hbody := passageLowered_of_lowerList body hbody
      exact (passageRefused_of_lowerElse rest hrest).along (.elseIfElse htest htruth hbody)
  | .block body =>
    simp only [Source.Else.lower, bind_eq_error, pure_ne_error, and_false, exists_false,
      or_false] at h
    exact (passageRefused_of_lowerList body h).along .block

theorem passageRefused_of_lowerList {strictness : Strictness} {scope : Scope}
    {session session' : Session} (ss : List Source.Stmt) {fault : Fault}
    (h : Source.Stmt.lowerList strictness scope ss session = .error fault session') :
    PassageRefused strictness scope session (.block ss) fault := by
  match ss with
  | [] =>
    rw [Source.Stmt.lowerList] at h
    exact absurd h pure_ne_error
  | s :: ss =>
    simp only [Source.Stmt.lowerList, bind_eq_error, pure_ne_error, and_false, exists_false,
      or_false] at h
    rcases h with hfirst | ⟨⟨s', _⟩, _, hfirst, hrest⟩
    · exact (passageRefused_of_lower s hfirst).along .first
    · exact (passageRefused_of_lowerList ss hrest).along (.rest (passageLowered_of_lower s hfirst))

end

/-- How a whole program comes to be refused. -/
theorem passageRefused_of_program {strictness : Strictness} {tree : List Source.Stmt}
    {fault : Fault} (h : Source.lower strictness tree = .error fault) :
    PassageRefused strictness .program .initial (.block tree) fault := by
  unfold Source.lower at h
  split at h
  next => cases h
  next other session hrun =>
    cases h
    exact passageRefused_of_lowerList tree hrun

/-! ### What a broken rule is called -/

section Causes

variable {returns : Returns} {fault : Fault}

theorem refuse_eq_error {α : Type} {cause : Cause} {span : Span}
    (h : (refuse cause span : Except Fault α) = .error fault) : fault = ⟨cause, some span⟩ := by
  cases h
  rfl

/-- A test is refused for the type that it has. -/
theorem checkBoolean_eq_error {e : Expr} {span : Span}
    (h : checkBoolean returns e span = .error fault) :
    fault = ⟨.notBoolean (e.ty returns), some span⟩ := by
  unfold checkBoolean at h
  split at h
  next => cases h
  next => exact refuse_eq_error h

/-- Operands are refused for a function among them, or for types that do not go together. -/
theorem checkOperands_eq_error {left right : Expr} {span : Span}
    (h : checkOperands returns left right span = .error fault) :
    fault = ⟨.functionOperand, some span⟩ ∨
      fault = ⟨.typeMismatch (left.ty returns) (right.ty returns), some span⟩ := by
  simp only [checkOperands] at h
  split at h
  next => exact Or.inl (refuse_eq_error h)
  next =>
    split at h
    next => cases h
    next => exact Or.inr (refuse_eq_error h)

/-- The operands of `and` and `or` are refused for one that is no truth value. -/
theorem checkLogical_eq_error {setting : Setting} {left right : Expr} {span : Span}
    (h : checkLogical setting left right span = .error fault) :
    ∃ found, fault = ⟨.notBoolean found, some span⟩ := by
  unfold checkLogical at h
  split at h
  next => cases h
  next =>
    rcases bind_eq_error_iff.mp h with h | ⟨_, _, h⟩
    · exact ⟨_, checkBoolean_eq_error h⟩
    · exact ⟨_, checkBoolean_eq_error h⟩

/-- An operation is refused for its operands only. -/
theorem binaryTy_eq_error {setting : Setting} {op : BinaryOperator} {left right : Expr}
    {span : Span} (h : binaryTy setting op left right span = .error fault) :
    checkOperands setting.returns left right span = .error fault ∨
      checkLogical setting left right span = .error fault := by
  unfold binaryTy at h
  split at h
  next =>
    rcases bind_eq_error_iff.mp h with h | ⟨_, _, h⟩
    · exact Or.inl h
    · cases h
  next =>
    rcases bind_eq_error_iff.mp h with h | ⟨_, _, h⟩
    · exact Or.inl h
    · cases h
  next =>
    rcases bind_eq_error_iff.mp h with h | ⟨_, _, h⟩
    · exact Or.inr h
    · cases h

/-- A subscript is refused for the type of its base. -/
theorem checkSubscriptable_eq_error {base : Expr} {span : Span}
    (h : checkSubscriptable returns base span = .error fault) :
    fault = ⟨.notSubscriptable (base.ty returns), some span⟩ := by
  unfold checkSubscriptable at h
  split at h
  next => exact refuse_eq_error h
  next => cases h

/-- A call is refused for the number of its arguments. -/
theorem checkArity_eq_error {f : Func} {actual : Nat} {span : Span}
    (h : checkArity f actual span = .error fault) :
    fault = ⟨.callArity f.arity actual, some span⟩ := by
  unfold checkArity at h
  split at h
  next => cases h
  next => exact refuse_eq_error h

/-- Arguments are refused for one that is no number, at the place of the argument. -/
theorem checkArguments_eq_error {f : Func} {args : List Expr} {places : List Span}
    (h : checkArguments returns f args places = .error fault) :
    ∃ i found place, fault = ⟨.argumentNotNumeric i found, some place⟩ := by
  unfold checkArguments at h
  split at h
  next i _ =>
    split at h
    next =>
      split at h
      next found place _ => exact ⟨i, found, place, refuse_eq_error h⟩
      next => cases h
    next => cases h
  next => cases h

/-- A call is refused because of the callee, the number of arguments or one of them. -/
theorem callOn_eq_error {callee : Expr} {args : List Expr} {places : List Span} {span : Span}
    (h : callOn returns callee args places span = .error fault) :
    fault = ⟨.notCallable, some span⟩ ∨
      (∃ expected, fault = ⟨.callArity expected args.length, some span⟩) ∨
      ∃ i found place, fault = ⟨.argumentNotNumeric i found, some place⟩ := by
  unfold callOn at h
  split at h
  next f =>
    rcases bind_eq_error_iff.mp h with h | ⟨_, _, h⟩
    · exact Or.inr (Or.inl ⟨f.arity, checkArity_eq_error h⟩)
    rcases bind_eq_error_iff.mp h with h | ⟨_, _, h⟩
    · exact Or.inr (Or.inr (checkArguments_eq_error h))
    · cases h
  next => exact Or.inl (refuse_eq_error h)

/-- A declaration is refused for its name, at the place of the name. -/
theorem checkUndeclared_eq_error {scope : Scope} {name : Ident}
    (h : checkUndeclared scope name = .error fault) :
    fault = ⟨.duplicateDeclaration name.name, some name.span⟩ := by
  unfold checkUndeclared at h
  split at h
  next => exact refuse_eq_error h
  next => cases h

/-- Parameters are refused for one that is repeated, at its place. -/
theorem checkParams_eq_error {params : List Source.Param}
    (h : checkParams params = .error fault) :
    ∃ name : Ident, fault = ⟨.duplicateParameter name.name, some name.span⟩ := by
  unfold checkParams at h
  split at h
  next name _ => exact ⟨name, refuse_eq_error h⟩
  next => cases h

/-- Recursion is refused for a result or for parameters without an ascription. -/
theorem checkRecursion_eq_error {f : Func} {body : List Stmt} {name : Ident}
    {params : List Source.Param} {paramsSpan : Span} {ascribed : Option Ascription}
    (h : checkRecursion f body name params paramsSpan ascribed = .error fault) :
    fault = ⟨.recursionNeedsReturn name.name, some name.span⟩ ∨
      ∃ missing, fault = ⟨.recursionNeedsParams name.name missing, some paramsSpan⟩ := by
  unfold checkRecursion checkAscribed at h
  split at h
  next =>
    split at h
    next => exact Or.inl (refuse_eq_error h)
    next =>
      split at h
      next => cases h
      next => exact Or.inr ⟨_, refuse_eq_error h⟩
  next => cases h

/-- A result is refused for a type that is returned and not listed. -/
theorem reconcile_eq_error {function : String} {ascribed : Option Ascription}
    {returned : List Ty} {span : Span}
    (h : reconcile function ascribed returned span = .error fault) :
    ∃ expected found, fault = ⟨.returnMismatch function expected found, some span⟩ := by
  unfold reconcile at h
  split at h
  next => cases h
  next names =>
    split at h
    next found _ => exact ⟨names.members, found, refuse_eq_error h⟩
    next => cases h

/-- A bump is refused for the type of its target. -/
theorem checkBump_eq_error {target : Expr} {span : Span}
    (h : checkBump returns target span = .error fault) :
    fault = ⟨.bumpNotNumeric (target.ty returns), some span⟩ := by
  unfold checkBump at h
  split at h
  next => cases h
  next => exact refuse_eq_error h

/-- An assignment is refused for the variable that its target lies in. -/
theorem checkAssignable_eq_error {target : Expr} {span : Span}
    (h : checkAssignable target span = .error fault) :
    ∃ name, fault = ⟨.constantReassigned name, some span⟩ ∨
      fault = ⟨.readOnly name, some span⟩ := by
  unfold checkAssignable at h
  split at h
  next v _ =>
    split at h
    next => cases h
    next => exact ⟨v.name, Or.inl (refuse_eq_error h)⟩
    next => exact ⟨v.name, Or.inr (refuse_eq_error h)⟩
  next =>
    split at h
    next f _ => exact ⟨f.name, Or.inr (refuse_eq_error h)⟩
    next => exact ⟨"expression", Or.inr (refuse_eq_error h)⟩

/-- A `break` is refused at its own place. -/
theorem checkInLoop_eq_error {scope : Scope} {span : Span}
    (h : checkInLoop scope span = .error fault) : fault = ⟨.breakOutsideLoop, some span⟩ := by
  unfold checkInLoop at h
  split at h
  next => cases h
  next => exact refuse_eq_error h

/-- A `return` is refused at its own place. -/
theorem checkInFunction_eq_error {scope : Scope} {span : Span}
    (h : checkInFunction scope span = .error fault) :
    fault = ⟨.returnOutsideFunction, some span⟩ := by
  unfold checkInFunction at h
  split at h
  next => cases h
  next => exact refuse_eq_error h

/-- A turn is refused for a step of zero, at the place of the step. -/
theorem turnDirection_eq_error {step : Expr} {span : Span}
    (h : turnDirection step span = .error fault) : fault = ⟨.zeroStep, some span⟩ := by
  unfold turnDirection at h
  split at h
  next => exact refuse_eq_error h
  all_goals cases h

end Causes

/-! ### What a broken rule is about -/

/-- What the rules are about. -/
inductive Cause.Topic where
  /-- What a frame or a function declares. -/
  | declaration
  /-- What a jump leaves. -/
  | jump
  /-- What a name stands for. -/
  | name
  /-- What is done with a value. -/
  | value

/-- What the broken rule is about. -/
def Cause.topic : Cause → Cause.Topic
  | duplicateDeclaration _ | duplicateParameter _ | recursionNeedsReturn _
  | recursionNeedsParams _ _ | returnMismatch _ _ _ => .declaration
  | breakOutsideLoop | returnOutsideFunction => .jump
  | undeclared _ => .name
  | notCallable | callArity _ _ | turnArity _ | notBoolean _ | bumpNotNumeric _
  | argumentNotNumeric _ _ | notSubscriptable _ | readOnly _ | constantReassigned _
  | functionOperand | typeMismatch _ _ | zeroStep => .value

section Topics

variable {fault : Fault}

/-- Operations are refused for values only. -/
theorem binaryTy_topic {setting : Setting} {op : BinaryOperator} {left right : Expr} {span : Span}
    (h : binaryTy setting op left right span = .error fault) : fault.cause.topic = .value := by
  rcases binaryTy_eq_error h with hoperands | hlogical
  · rcases checkOperands_eq_error hoperands with rfl | rfl <;> rfl
  · obtain ⟨_, rfl⟩ := checkLogical_eq_error hlogical
    rfl

theorem callOn_topic {returns : Returns} {callee : Expr} {args : List Expr} {places : List Span}
    {span : Span} (h : callOn returns callee args places span = .error fault) :
    fault.cause.topic = .value := by
  rcases callOn_eq_error h with rfl | ⟨_, rfl⟩ | ⟨_, _, _, rfl⟩ <;> rfl

theorem checkSubscriptable_topic {returns : Returns} {base : Expr} {span : Span}
    (h : checkSubscriptable returns base span = .error fault) : fault.cause.topic = .value := by
  rw [checkSubscriptable_eq_error h]
  rfl

/-- An expression is refused over a name or over what is done with a value. -/
theorem PhraseRefused.topic {setting : Setting} {d : Source.Phrase}
    (h : PhraseRefused setting d fault) :
    fault.cause.topic = .name ∨ fault.cause.topic = .value := by
  induction h with
  | ident => exact Or.inl rfl
  | binaryLeft _ ih | binaryRight _ _ ih | unary _ ih | callee _ ih | args _ _ ih | base _ ih
  | index _ _ ih | member _ ih | array _ ih | object _ ih | listFirst _ ih | listRest _ _ ih
  | membersFirst _ ih | membersRest _ _ ih => exact ih
  | binary _ _ hty => exact Or.inr (binaryTy_topic hty)
  | call _ _ hcall => exact Or.inr (callOn_topic hcall)
  | subscript _ hparts => exact Or.inr (checkSubscriptable_topic hparts)

/-- A refused declaration is refused over declarations. -/
theorem DeclarationRefused.topic {strictness : Strictness} {scope : Scope} {session : Session}
    {s : Source.Stmt} (h : DeclarationRefused strictness scope session s fault) :
    fault.cause.topic = .declaration := by
  cases h with
  | varName hnew | funcName hnew =>
    rw [checkUndeclared_eq_error hnew]
    rfl
  | params hparams =>
    obtain ⟨_, rfl⟩ := checkParams_eq_error hparams
    rfl
  | recursion _ hrec => rcases checkRecursion_eq_error hrec with rfl | ⟨_, rfl⟩ <;> rfl
  | result _ _ _ _ hresult =>
    obtain ⟨_, _, rfl⟩ := reconcile_eq_error hresult
    rfl

/-- A refused jump is refused over jumps. -/
theorem JumpRefused.topic {scope : Scope} {s : Source.Stmt} (h : JumpRefused scope s fault) :
    fault.cause.topic = .jump := by
  cases h with
  | breakLoop hloop =>
    rw [checkInLoop_eq_error hloop]
    rfl
  | returnValue hfunction | returnNone hfunction =>
    rw [checkInFunction_eq_error hfunction]
    rfl

/-- A refused part is refused over a name or a value. -/
theorem PartRefused.topic {setting : Setting} {t : Source.Passage}
    (h : PartRefused setting t fault) :
    fault.cause.topic = .name ∨ fault.cause.topic = .value := by
  cases h with
  | declareVar _ hpart | bump hpart | assignTarget hpart | assignSource _ _ hpart | call hpart
  | returnValue _ hpart | branch hpart | whileLoop hpart | forEach hpart | forTurn _ hpart
  | elseIf hpart => exact hpart.topic

/-- A refused use is refused over a value. -/
theorem UseRefused.topic {setting : Setting} {t : Source.Passage}
    (h : UseRefused setting t fault) : fault.cause.topic = .value := by
  cases h with
  | bumpNumber _ hnumber =>
    rw [checkBump_eq_error hnumber]
    rfl
  | bumpPlace _ _ hplace | assignPlace _ hplace =>
    obtain ⟨_, rfl | rfl⟩ := checkAssignable_eq_error hplace <;> rfl
  | branchTruth _ htruth | whileTruth _ htruth | elseIfTruth _ htruth =>
    rw [checkBoolean_eq_error htruth]
    rfl
  | turnArity => rfl
  | turnDirection _ _ _ hdirection =>
    rw [turnDirection_eq_error hdirection]
    rfl

namespace PassageBroken

variable {strictness : Strictness} {scope : Scope} {session : Session} {t : Source.Passage}

/-- Rules for declarations are broken by declarations. -/
theorem declarationRefused (h : PassageBroken strictness scope session t fault)
    (htopic : fault.cause.topic = .declaration) :
    ∃ s, t = .stmt s ∧ DeclarationRefused strictness scope session s fault := by
  cases h with
  | declaration h => exact ⟨_, rfl, h⟩
  | jump h => cases h.topic.symm.trans htopic
  | part h => rcases h.topic with hother | hother <;> cases hother.symm.trans htopic
  | use h => cases h.topic.symm.trans htopic

/-- Rules for jumps are broken by jumps. -/
theorem jumpRefused (h : PassageBroken strictness scope session t fault)
    (htopic : fault.cause.topic = .jump) : ∃ s, t = .stmt s ∧ JumpRefused scope s fault := by
  cases h with
  | declaration h => cases h.topic.symm.trans htopic
  | jump h => exact ⟨_, rfl, h⟩
  | part h => rcases h.topic with hother | hother <;> cases hother.symm.trans htopic
  | use h => cases h.topic.symm.trans htopic

/-- Names are without a meaning in expressions only. -/
theorem partRefused (h : PassageBroken strictness scope session t fault)
    (htopic : fault.cause.topic = .name) :
    PartRefused ⟨strictness, session.returns, scope⟩ t fault := by
  cases h with
  | declaration h => cases h.topic.symm.trans htopic
  | jump h => cases h.topic.symm.trans htopic
  | part h => exact h
  | use h => cases h.topic.symm.trans htopic

end PassageBroken

/-- A passage that is refused over a rule for declarations leads to a declaration that breaks
it. -/
theorem PassageRefused.at_declaration {strictness : Strictness} {scope : Scope} {session : Session}
    {d : Source.Passage} (h : PassageRefused strictness scope session d fault)
    (htopic : fault.cause.topic = .declaration) :
    ∃ inner start s, Reached strictness scope session d inner start (.stmt s) ∧
      DeclarationRefused strictness inner start s fault := by
  obtain ⟨inner, start, t, hreached, hbroken⟩ := h
  obtain ⟨s, rfl, hrefused⟩ := hbroken.declarationRefused htopic
  exact ⟨inner, start, s, hreached, hrefused⟩

end Topics

/-! ### Where lowering fails -/

/-- Lowering a passage fails with this fault. -/
def PassageFails (strictness : Strictness) (scope : Scope) (session : Session) (fault : Fault) :
    Source.Passage → Prop
  | .stmt s => ∃ stop, s.lower strictness scope session = .error fault stop
  | .arms e => ∃ stop, e.lower strictness scope session = .error fault stop
  | .block ss => ∃ stop, Source.Stmt.lowerList strictness scope ss session = .error fault stop

open Lowering in
/-- If lowering comes to a part that fails, it fails there. -/
theorem Reached.fails {strictness : Strictness} {scope inner : Scope} {session start : Session}
    {d t : Source.Passage} {fault : Fault} (h : Reached strictness scope session d inner start t)
    (ht : PassageFails strictness inner start fault t) :
    PassageFails strictness scope session fault d := by
  induction h with
  | here => exact ht
  | funcBody hnew hparams _ ih =>
    obtain ⟨stop, hstop⟩ := ih ht
    refine ⟨stop, ?_⟩
    rw [Source.FuncDecl.stmt, Source.Stmt.lower]
    refine bind_error_of_ok (checked_of_ok hnew) ?_
    refine bind_error_of_ok (checked_of_ok hparams) ?_
    exact bind_error_of_ok rfl (bind_of_error hstop)
  | @branchBody _ _ _ _ _ _ _ _ orElse _ htest htruth _ ih =>
    obtain ⟨stop, hstop⟩ := ih ht
    have htested := htest.condition_given htruth
    refine ⟨stop, ?_⟩
    cases orElse with
    | nothing =>
      rw [Source.Stmt.lower]
      exact bind_error_of_ok (reading_of_ok htested) (bind_of_error hstop)
    | elseIf | block =>
      rw [Source.Stmt.lower]
      · exact bind_error_of_ok (reading_of_ok htested) (bind_of_error hstop)
      · nofun
  | @branchElse _ _ _ _ _ _ _ _ _ _ orElse _ _ htest htruth hbody _ ih =>
    obtain ⟨stop, hstop⟩ := ih ht
    have htested := htest.condition_given htruth
    cases orElse with
    | nothing => cases hstop
    | elseIf | block =>
      refine ⟨stop, ?_⟩
      rw [Source.Stmt.lower]
      · exact bind_error_of_ok (reading_of_ok htested)
          (bind_error_of_ok hbody.given (bind_of_error hstop))
      · nofun
  | whileBody htest htruth _ ih =>
    obtain ⟨stop, hstop⟩ := ih ht
    refine ⟨stop, ?_⟩
    rw [Source.Stmt.lower]
    exact bind_error_of_ok (reading_of_ok (htest.condition_given htruth)) (bind_of_error hstop)
  | forEachBody hcollection hv _ ih =>
    subst hv
    obtain ⟨stop, hstop⟩ := ih ht
    refine ⟨stop, ?_⟩
    rw [Source.Stmt.lower]
    refine bind_error_of_ok (reading_of_ok hcollection.given) ?_
    exact bind_error_of_ok rfl (bind_error_of_ok rfl (bind_of_error hstop))
  | forTurnBody hlow hhigh hstep hdirection hv _ ih =>
    subst hv
    obtain ⟨stop, hstop⟩ := ih ht
    refine ⟨stop, ?_⟩
    rw [Source.Stmt.lower]
    refine bind_error_of_ok (reading_of_ok hlow.given) ?_
    refine bind_error_of_ok (reading_of_ok hhigh.given) ?_
    refine bind_error_of_ok (reading_of_ok hstep.given) ?_
    refine bind_error_of_ok (checked_of_ok hdirection) ?_
    exact bind_error_of_ok rfl (bind_error_of_ok rfl (bind_of_error hstop))
  | elseIfBody htest htruth _ ih =>
    obtain ⟨stop, hstop⟩ := ih ht
    refine ⟨stop, ?_⟩
    rw [Source.Else.lower]
    exact bind_error_of_ok (reading_of_ok (htest.condition_given htruth)) (bind_of_error hstop)
  | elseIfElse htest htruth hbody _ ih =>
    obtain ⟨stop, hstop⟩ := ih ht
    refine ⟨stop, ?_⟩
    rw [Source.Else.lower]
    refine bind_error_of_ok (reading_of_ok (htest.condition_given htruth)) ?_
    exact bind_error_of_ok hbody.given (bind_of_error hstop)
  | block _ ih =>
    obtain ⟨stop, hstop⟩ := ih ht
    refine ⟨stop, ?_⟩
    rw [Source.Else.lower]
    exact bind_of_error hstop
  | first _ ih =>
    obtain ⟨stop, hstop⟩ := ih ht
    refine ⟨stop, ?_⟩
    rw [Source.Stmt.lowerList]
    exact bind_of_error hstop
  | rest hfirst _ ih =>
    obtain ⟨stop, hstop⟩ := ih ht
    refine ⟨stop, ?_⟩
    rw [Source.Stmt.lowerList]
    exact bind_error_of_ok hfirst.given (bind_of_error hstop)

end Croupier
