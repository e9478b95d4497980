import Croupier.Proofs.Lowered

/-!
# How far lowering comes

Lowering goes through a program from its beginning, and where it fails, everything before has been
lowered. `Reached` says so of a place in the program: lowering a passage comes to a part of it, in
a scope and a session, and every rule that is checked on the way holds. Laws about what a statement
is read in, or about the place that is to blame for a fault, are inductions over this relation.

Function declarations are the parts that such laws are mostly about, so they are bundled here into
`Source.FuncDecl`, with the function, the scope and the session that come of one.
-/

namespace Croupier

namespace Source

/-! ### Function declarations -/

/-- A function declaration as written. -/
structure FuncDecl where
  span : Span
  name : Ident
  params : List Param
  paramsSpan : Span
  ascribed : Option Ascription
  body : List Stmt

namespace FuncDecl

/-- The declaration as a statement. -/
def stmt (d : FuncDecl) : Stmt :=
  .declareFunc d.span d.name d.params d.paramsSpan d.ascribed d.body

/-- The names of the parameters. -/
def paramNames (d : FuncDecl) : List String := d.params.map (fun p => p.name.name)

/-- The function that is declared, if `id` is the next free number. -/
def func (d : FuncDecl) (id : Nat) : Func :=
  ⟨id, d.name.name, .declared (paramVars (id + 1) d.params) (d.ascribed.map Ascription.ty)⟩

/-- The scope in which the body is read. -/
def inner (d : FuncDecl) (scope : Scope) (id : Nat) : Scope :=
  (scope.bind d.name.name (.func (d.func id))).pushFunction.bindAll (paramVars (id + 1) d.params)

/-- The session in which the body is read. -/
def entered (d : FuncDecl) (session : Session) : Session :=
  { session with nextId := session.nextId + (d.params.length + 1) }

end FuncDecl

mutual

/-- The function declarations of a statement, in the order in which they are written. -/
def Stmt.functions : Stmt → List FuncDecl
  | .declareFunc span name params paramsSpan ascribed body =>
    ⟨span, name, params, paramsSpan, ascribed, body⟩ :: Stmt.functionsList body
  | .branch _ _ body orElse => Stmt.functionsList body ++ orElse.functions
  | .whileLoop _ _ body | .forEach _ _ _ body | .forTurn _ _ _ _ body => Stmt.functionsList body
  | .declareVar _ _ _ _ | .bump _ _ _ | .assign _ _ _ | .call _ _ | .breakLoop _
  | .returnValue _ _ | .returnNone _ => []

/-- The function declarations of the further arms of an `if`. -/
def Else.functions : Else → List FuncDecl
  | .nothing => []
  | .elseIf _ body orElse => Stmt.functionsList body ++ orElse.functions
  | .block body => Stmt.functionsList body

/-- The function declarations of statements that follow each other. -/
def Stmt.functionsList : List Stmt → List FuncDecl
  | [] => []
  | s :: ss => s.functions ++ Stmt.functionsList ss

end

def Passage.functions : Passage → List FuncDecl
  | stmt s => s.functions
  | arms e => e.functions
  | block ss => Stmt.functionsList ss

/-- The function declarations of a program, at any depth. -/
def functions (tree : List Source.Stmt) : List FuncDecl := Stmt.functionsList tree

end Source

/-! ### How far lowering comes -/

/-- Lowering a passage comes to a part of it, in this scope and this session. Everything before
the part has been lowered, and every rule that is checked before it holds. -/
inductive Reached (strictness : Strictness) :
    Scope → Session → Source.Passage → Scope → Session → Source.Passage → Prop where
  | here {scope session t} : Reached strictness scope session t scope session t
  | funcBody {scope session inner start t} {d : Source.FuncDecl}
      (hnew : checkUndeclared scope d.name = .ok ()) (hparams : checkParams d.params = .ok ())
      (hbody : Reached strictness (d.inner scope session.nextId) (d.entered session)
        (.block d.body) inner start t) :
    Reached strictness scope session (.stmt d.stmt) inner start t
  | branchBody {scope session inner start t span test body orElse test'}
      (htest : PhraseLowered ⟨strictness, session.returns, scope⟩ (.expr test) (.expr test'))
      (htruth : checkBoolean session.returns test' test.span = .ok ())
      (hbody : Reached strictness scope session (.block body) inner start t) :
    Reached strictness scope session (.stmt (.branch span test body orElse)) inner start t
  | branchElse {scope scope' session session' inner start t span test body orElse test' body'}
      (htest : PhraseLowered ⟨strictness, session.returns, scope⟩ (.expr test) (.expr test'))
      (htruth : checkBoolean session.returns test' test.span = .ok ())
      (hbody : PassageLowered strictness scope session (.block body) (.block body')
        scope' session')
      (helse : Reached strictness scope' session' (.arms orElse) inner start t) :
    Reached strictness scope session (.stmt (.branch span test body orElse)) inner start t
  | whileBody {scope session inner start t span test body test'}
      (htest : PhraseLowered ⟨strictness, session.returns, scope⟩ (.expr test) (.expr test'))
      (htruth : checkBoolean session.returns test' test.span = .ok ())
      (hbody : Reached strictness scope.pushLoop session (.block body) inner start t) :
    Reached strictness scope session (.stmt (.whileLoop span test body)) inner start t
  | forEachBody {scope session inner start t span iterator collection body collection' v}
      (hcollection : PhraseLowered ⟨strictness, session.returns, scope⟩ (.expr collection)
        (.expr collection'))
      (hv : v = ⟨session.nextId, iterator.name, .mutable,
        (collection'.ty session.returns).element⟩)
      (hbody : Reached strictness (scope.pushLoop.bind iterator.name (.var v))
        { session with nextId := session.nextId + 1 } (.block body) inner start t) :
    Reached strictness scope session (.stmt (.forEach span iterator collection body)) inner start t
  | forTurnBody {scope session inner start t span iterator turnSpan low high step body low' high'
        step' direction v}
      (hlow : PhraseLowered ⟨strictness, session.returns, scope⟩ (.expr low) (.expr low'))
      (hhigh : PhraseLowered ⟨strictness, session.returns, scope⟩ (.expr high) (.expr high'))
      (hstep : PhraseLowered ⟨strictness, session.returns, scope⟩ (.expr step) (.expr step'))
      (hdirection : turnDirection step' step.span = .ok direction)
      (hv : v = ⟨session.nextId, iterator.name, .mutable,
        turnTy (low'.ty session.returns) (high'.ty session.returns)⟩)
      (hbody : Reached strictness (scope.pushLoop.bind iterator.name (.var v))
        { session with nextId := session.nextId + 1 } (.block body) inner start t) :
    Reached strictness scope session
      (.stmt (.forTurn span iterator turnSpan [low, high, step] body)) inner start t
  | elseIfBody {scope session inner start t test body orElse test'}
      (htest : PhraseLowered ⟨strictness, session.returns, scope⟩ (.expr test) (.expr test'))
      (htruth : checkBoolean session.returns test' test.span = .ok ())
      (hbody : Reached strictness scope session (.block body) inner start t) :
    Reached strictness scope session (.arms (.elseIf test body orElse)) inner start t
  | elseIfElse {scope scope' session session' inner start t test body orElse test' body'}
      (htest : PhraseLowered ⟨strictness, session.returns, scope⟩ (.expr test) (.expr test'))
      (htruth : checkBoolean session.returns test' test.span = .ok ())
      (hbody : PassageLowered strictness scope session (.block body) (.block body')
        scope' session')
      (helse : Reached strictness scope' session' (.arms orElse) inner start t) :
    Reached strictness scope session (.arms (.elseIf test body orElse)) inner start t
  | block {scope session inner start t body}
      (hbody : Reached strictness scope session (.block body) inner start t) :
    Reached strictness scope session (.arms (.block body)) inner start t
  | first {scope session inner start t s ss}
      (hfirst : Reached strictness scope session (.stmt s) inner start t) :
    Reached strictness scope session (.block (s :: ss)) inner start t
  | rest {scope scope' session session' inner start t s ss s'}
      (hfirst : PassageLowered strictness scope session (.stmt s) (.stmt s') scope' session')
      (hrest : Reached strictness scope' session' (.block ss) inner start t) :
    Reached strictness scope session (.block (s :: ss)) inner start t

/-- What lowering comes to was written. -/
theorem Reached.functions_subset {strictness : Strictness} {scope inner : Scope}
    {session start : Session} {d t : Source.Passage}
    (h : Reached strictness scope session d inner start t) : t.functions ⊆ d.functions := by
  induction h with
  | here => exact List.Subset.refl _
  | funcBody _ _ _ ih => exact List.subset_cons_of_subset _ ih
  | whileBody _ _ _ ih | forEachBody _ _ _ ih | forTurnBody _ _ _ _ _ _ ih | block _ ih => exact ih
  | branchBody _ _ _ ih | elseIfBody _ _ _ ih | first _ ih =>
    exact List.subset_append_of_subset_left _ ih
  | branchElse _ _ _ _ ih | elseIfElse _ _ _ _ ih | rest _ _ ih =>
    exact List.subset_append_of_subset_right _ ih

/-- What a part comes to is come to. -/
theorem Reached.trans {strictness : Strictness} {scope middle inner : Scope}
    {session between start : Session} {d t u : Source.Passage}
    (h : Reached strictness scope session d middle between t)
    (ht : Reached strictness middle between t inner start u) :
    Reached strictness scope session d inner start u := by
  induction h with
  | here => exact ht
  | funcBody hnew hparams _ ih => exact .funcBody hnew hparams (ih ht)
  | branchBody htest htruth _ ih => exact .branchBody htest htruth (ih ht)
  | branchElse htest htruth hbody _ ih => exact .branchElse htest htruth hbody (ih ht)
  | whileBody htest htruth _ ih => exact .whileBody htest htruth (ih ht)
  | forEachBody hcollection hv _ ih => exact .forEachBody hcollection hv (ih ht)
  | forTurnBody hlow hhigh hstep hdirection hv _ ih =>
    exact .forTurnBody hlow hhigh hstep hdirection hv (ih ht)
  | elseIfBody htest htruth _ ih => exact .elseIfBody htest htruth (ih ht)
  | elseIfElse htest htruth hbody _ ih => exact .elseIfElse htest htruth hbody (ih ht)
  | block _ ih => exact .block (ih ht)
  | first _ ih => exact .first (ih ht)
  | rest hfirst _ ih => exact .rest hfirst (ih ht)

end Croupier
