import Mathlib.Data.List.Forall2
import Croupier.Proofs.Coherence
import Croupier.Proofs.Refused

/-!
# Recursive functions are ascribed in full

The calls in the body of a function are typed while its result is still open. A function that
calls itself therefore has to say what it takes and what it returns: it needs a result type, and
for each parameter a type narrower than `any`. Whether it calls itself is decided by looking for a
call of it, by its number, among all nodes of its body; a call of another function of that name is
none, and a call within a nested function is one.

The functions of a typed program stand in the same order as their declarations in the source, so
that each can be held against what its author wrote (`PassageLowered.functions_declared`).

> `Program.recursion_ascribed`: a typed program has no function that calls itself and lacks an
> ascription, and a program is refused over recursion only for a function that does, with the
> parameters that lack one.
-/

namespace Croupier

/-- A call of the function is a node of the body. -/
def Func.CalledIn (f : Func) (body : List Stmt) : Prop :=
  ∃ g args ty, .expr (.call g args ty) ∈ Stmt.nodesList body ∧ g.id = f.id

/-! ### What a declaration says -/

namespace Source

/-- A parameter that takes anything: nothing is ascribed to it, or nothing narrower than `any`. -/
def Param.untyped (p : Param) : Bool := p.ascribed.all (fun names => names.ty.isAny)

/-- A parameter has the type `any` exactly if it is untyped. -/
theorem Param.isAny_ty (p : Param) : p.ty.isAny = p.untyped := by
  unfold Param.ty Param.untyped
  cases p.ascribed with
  | none => rfl
  | some names => rfl

/-- A parameter is typed if a type narrower than `any` is ascribed to it. -/
theorem Param.untyped_eq_false {p : Param} :
    p.untyped = false ↔ ∃ names, p.ascribed = some names ∧ names.ty ≠ .any := by
  unfold Param.untyped
  cases p.ascribed with
  | none => simp
  | some names => simp [← Ty.isAny_iff]

namespace FuncDecl

/-- The parameters that take anything, in the order in which they are written. -/
def untyped (d : FuncDecl) : List String :=
  (d.params.filter Param.untyped).map (fun p => p.name.name)

/-- A result type is ascribed, and to every parameter a type narrower than `any`. -/
structure Ascribed (d : FuncDecl) : Prop where
  result : d.ascribed ≠ none
  params : ∀ p ∈ d.params, ∃ names, p.ascribed = some names ∧ names.ty ≠ .any

/-- How a recursive function is refused that lacks an ascription. The result comes first. -/
inductive Lacks (d : FuncDecl) : Fault → Prop where
  | result (hresult : d.ascribed = none) :
    Lacks d ⟨.recursionNeedsReturn d.name.name, some d.name.span⟩
  | params (hresult : d.ascribed ≠ none) (huntyped : d.untyped ≠ []) :
    Lacks d ⟨.recursionNeedsParams d.name.name d.untyped, some d.paramsSpan⟩

/-- No parameter is untyped if all of them are ascribed something narrower than `any`. -/
theorem untyped_eq_nil {d : FuncDecl} :
    d.untyped = [] ↔ ∀ p ∈ d.params, ∃ names, p.ascribed = some names ∧ names.ty ≠ .any := by
  rw [untyped, List.map_eq_nil_iff, List.filter_eq_nil_iff]
  simp only [Bool.not_eq_true, Param.untyped_eq_false]

/-- What lacks an ascription is not ascribed in full. -/
theorem Lacks.not_ascribed {d : FuncDecl} {fault : Fault} (h : d.Lacks fault) : ¬ d.Ascribed := by
  intro hascribed
  cases h with
  | result hresult => exact hascribed.result hresult
  | params _ huntyped => exact huntyped (untyped_eq_nil.mpr hascribed.params)

end FuncDecl

end Source

/-- The check of a declaration either passes it as ascribed, or says what it lacks. -/
theorem checkAscribed_cases (d : Source.FuncDecl) :
    (checkAscribed d.name d.params d.paramsSpan d.ascribed = .ok () ∧ d.Ascribed) ∨
      ∃ fault, checkAscribed d.name d.params d.paramsSpan d.ascribed = .error fault ∧
        d.Lacks fault := by
  have hfilter : (d.params.filter (·.ty.isAny)).map (·.name.name) = d.untyped := by
    simp only [Source.Param.isAny_ty]
    rfl
  unfold checkAscribed
  rw [hfilter]
  cases hresult : d.ascribed with
  | none => exact Or.inr ⟨_, rfl, .result hresult⟩
  | some names =>
    have hsome : d.ascribed ≠ none := by simp [hresult]
    cases huntyped : d.untyped with
    | nil => exact Or.inl ⟨rfl, hsome, Source.FuncDecl.untyped_eq_nil.mp huntyped⟩
    | cons n ns =>
      refine Or.inr ⟨_, ?_, .params hsome (by simp [huntyped])⟩
      rw [huntyped]
      rfl

/-- A function that calls itself and passes the check is ascribed in full. -/
theorem Source.FuncDecl.ascribed_of_checkRecursion {d : Source.FuncDecl} {f : Func}
    {body : List Croupier.Stmt}
    (h : checkRecursion f body d.name d.params d.paramsSpan d.ascribed = .ok ())
    (hcalls : f.CalledIn body) : d.Ascribed := by
  rw [checkRecursion, if_pos ((callsItself_iff f body).mpr hcalls)] at h
  rcases checkAscribed_cases d with ⟨_, hascribed⟩ | ⟨fault, herror, _⟩
  · exact hascribed
  · rw [h] at herror
    cases herror

/-- A function that does not pass the check calls itself, and lacks what the fault says. -/
theorem Source.FuncDecl.lacks_of_checkRecursion {d : Source.FuncDecl} {f : Func}
    {body : List Croupier.Stmt} {fault : Fault}
    (h : checkRecursion f body d.name d.params d.paramsSpan d.ascribed = .error fault) :
    f.CalledIn body ∧ d.Lacks fault := by
  unfold checkRecursion at h
  split at h
  next hcalls =>
    refine ⟨(callsItself_iff f body).mp hcalls, ?_⟩
    rcases checkAscribed_cases d with ⟨hok, _⟩ | ⟨fault', herror, hlacks⟩
    · rw [h] at hok
      cases hok
    · rw [h] at herror
      cases herror
      exact hlacks
  next => cases h

/-! ### Typed programs -/

/-- The function that a node declares, with its body. -/
def Node.function? : Node → Option (Func × List Stmt)
  | .stmt (.declareFunc f body) => some (f, body)
  | _ => none

/-- The functions that a passage declares, at any depth, with their bodies. -/
def Passage.functions (d : Passage) : List (Func × List Stmt) := d.nodes.filterMap Node.function?

/-- The functions that a program declares, at any depth, with their bodies. -/
def Program.functions (p : Program) : List (Func × List Stmt) := p.nodes.filterMap Node.function?

theorem Expr.function?_nodes (e : Expr) : e.nodes.filterMap Node.function? = [] := by
  rw [List.filterMap_eq_nil_iff]
  intro x hx
  cases x with
  | expr _ => rfl
  | stmt s => exact absurd hx (Expr.stmt_not_mem_nodes s e)

/-- Besides the function that it declares, a statement has those in its blocks. -/
theorem Stmt.function?_nodes {s : Stmt} (h : Node.function? (.stmt s) = none) :
    s.nodes.filterMap Node.function? = s.inside.filterMap Node.function? := by
  cases s with
  | declareFunc f body => cases h
  | breakLoop | returnNone => rfl
  | declareVar | assign | bump | call | returnValue | branch | shortBranch | whileLoop | forEach
  | forTurn =>
    rw [Stmt.nodes, List.filterMap_cons_none rfl]
    simp [Stmt.inside, Expr.function?_nodes]

/-- A function with its body comes from a declaration, which is ascribed in full if the function
calls itself. -/
def DeclaredBy (d : Source.FuncDecl) (g : Func × List Stmt) : Prop :=
  (∃ id, g.1 = d.func id) ∧ (g.1.CalledIn g.2 → d.Ascribed)

/-- Each declaration becomes one function, in the same order. -/
theorem PassageLowered.functions_declared {strictness : Strictness} {scope scope' : Scope}
    {session session' : Session} {d : Source.Passage} {d' : Passage}
    (h : PassageLowered strictness scope session d d' scope' session') :
    List.Forall₂ DeclaredBy d.functions d'.functions := by
  induction h with
  | nothing | nil => exact .nil
  | declareVar | bump | assign | call | breakLoop | returnValue | returnNone =>
    rw [Passage.functions, Passage.nodes, Stmt.function?_nodes rfl]
    exact .nil
  | @declareFunc _ _ session _ span name params paramsSpan ascribed body _ _ _ _ _ _ hvars hf _
      hrec _ ih =>
    subst hvars
    refine .cons ⟨⟨session.nextId, hf⟩, fun hcalls => ?_⟩ ih
    exact @Source.FuncDecl.ascribed_of_checkRecursion
      ⟨span, name, params, paramsSpan, ascribed, body⟩ _ _ hrec hcalls
  | whileLoop _ _ _ ih | forEach _ _ _ ih | forTurn _ _ _ _ _ _ ih =>
    rw [Passage.functions, Passage.nodes, Stmt.function?_nodes rfl]
    exact ih
  | shortBranch _ _ _ ih =>
    rw [Passage.functions, Passage.nodes, Stmt.function?_nodes rfl, Source.Passage.functions,
      Source.Stmt.functions, Source.Else.functions, List.append_nil]
    exact ih
  | branch _ _ _ _ _ ihfirst ihrest =>
    rw [Passage.functions, Passage.nodes, Stmt.function?_nodes rfl, Stmt.inside,
      List.filterMap_append]
    exact List.rel_append ihfirst ihrest
  | elseIf _ _ _ _ ihfirst ihrest =>
    rw [Passage.functions, Passage.nodes, Else.nodes, List.filterMap_cons_none rfl,
      List.filterMap_append, List.filterMap_append, Expr.function?_nodes]
    exact List.rel_append ihfirst ihrest
  | block _ ih => exact ih
  | cons _ _ ihfirst ihrest =>
    rw [Passage.functions, Passage.nodes, Stmt.nodesList, List.filterMap_append]
    exact List.rel_append ihfirst ihrest

/-! ### Refused programs -/

/-- The causes that have to do with recursion. -/
def Cause.OfRecursion : Cause → Prop
  | .recursionNeedsReturn _ | .recursionNeedsParams _ _ => True
  | _ => False

/-- Recursion is refused at a declaration. -/
theorem Cause.OfRecursion.topic {cause : Cause} (h : cause.OfRecursion) :
    cause.topic = .declaration := by
  cases cause <;> first | rfl | exact h.elim

/-- Lowering the program comes to the declaration, and a call of the function that is declared is
a node of what becomes of its body. -/
def FoundRecursive (strictness : Strictness) (tree : List Source.Stmt) (d : Source.FuncDecl) :
    Prop :=
  ∃ scope session body last session',
    Reached strictness .program .initial (.block tree) scope session (.stmt d.stmt) ∧
    Source.Stmt.lowerList strictness (d.inner scope session.nextId) d.body (d.entered session) =
      .ok (body, last) session' ∧
    (d.func session.nextId).CalledIn body

/-- A declaration that is refused over recursion is that of a function that calls itself. -/
theorem lacks_of_refused {strictness : Strictness} {tree : List Source.Stmt} {fault : Fault}
    (h : Source.lower strictness tree = .error fault) (hcause : fault.cause.OfRecursion) :
    ∃ d ∈ Source.functions tree, FoundRecursive strictness tree d ∧ d.Lacks fault := by
  obtain ⟨scope, session, s, hreached, hrefused⟩ :=
    (passageRefused_of_program h).at_declaration hcause.topic
  cases hrefused with
  | varName hnew | funcName hnew =>
    obtain rfl := checkUndeclared_eq_error hnew
    exact hcause.elim
  | params hparams =>
    obtain ⟨_, rfl⟩ := checkParams_eq_error hparams
    exact hcause.elim
  | result _ _ _ _ hresult =>
    obtain ⟨_, _, rfl⟩ := reconcile_eq_error hresult
    exact hcause.elim
  | @recursion d body last session' _ hbody hrec =>
    obtain ⟨hcalls, hlacks⟩ := Source.FuncDecl.lacks_of_checkRecursion hrec
    have hfound : FoundRecursive strictness tree d :=
      ⟨scope, session, body, last, session', hreached, hbody.given, hcalls⟩
    exact ⟨d, hreached.functions_subset List.mem_cons_self, hfound, hlacks⟩

/-! ### Whole programs -/

/-- A function is found to call itself exactly when a call of it is a node of its body. In a typed
program every function that calls itself was declared with a result type and with a type narrower
than `any` for each parameter. A program that is refused over recursion declares a function that
calls itself and lacks one of these; the fault names the function and, if it has a result type,
exactly the parameters that lack theirs, in order. -/
theorem Program.recursion_ascribed (strictness : Strictness) (tree : List Source.Stmt) :
    (∀ f body, callsItself f body = true ↔ f.CalledIn body) ∧
    (∀ p, Source.lower strictness tree = .ok p →
      List.Forall₂ DeclaredBy (Source.functions tree) p.functions) ∧
    (∀ fault, Source.lower strictness tree = .error fault → fault.cause.OfRecursion →
      ∃ d ∈ Source.functions tree,
        FoundRecursive strictness tree d ∧ ¬ d.Ascribed ∧ d.Lacks fault) := by
  refine ⟨callsItself_iff, fun p h => ?_, fun fault h hcause => ?_⟩
  · obtain ⟨last, session, hlowered, _⟩ := passageLowered_of_program h
    exact hlowered.functions_declared
  · obtain ⟨d, hmem, hfound, hlacks⟩ := lacks_of_refused h hcause
    exact ⟨d, hmem, hfound, hlacks.not_ascribed, hlacks⟩

namespace Descent

open Source (label mention)

def call (function : String) (args : List Source.Expr) : Source.Stmt :=
  .returnValue .none (.call .none (mention function) args)

def param (name : String) (ascribed : Option Ascription) : Source.Param :=
  ⟨label name, ascribed⟩

/-- A function that calls itself. -/
def down (params : List Source.Param) : Source.FuncDecl :=
  ⟨.none, label "down", params, ⟨1, 2⟩, some [.int],
    [call "down" (params.map (fun p => .ident .none p.name))]⟩

/-- A function that a function within it calls. -/
def outer : Source.FuncDecl :=
  ⟨.none, ⟨"outer", ⟨3, 4⟩⟩, [], .none, none,
    [.declareFunc .none (label "inner") [] .none none [call "outer" []]]⟩

def typedDown : Func :=
  ⟨14, "down", .declared [⟨15, "n", .readOnly, .int⟩] (some .int)⟩

def typedBody : List Stmt :=
  [.returnValue (.call typedDown [.var ⟨15, "n", .readOnly, .int⟩] .int)]

theorem typedDown_calledIn : typedDown.CalledIn typedBody :=
  ⟨typedDown, [.var ⟨15, "n", .readOnly, .int⟩], .int,
    by simp [typedBody, Stmt.nodesList, Stmt.nodes, Expr.nodes], rfl⟩

/-- Several parameters, of which the second takes something narrower than `any`. -/
def loose : Source.FuncDecl :=
  down [param "a" none, param "n" (some [.int]), param "b" (some [.any])]

/-- With an `int` to count down, the function is accepted. With two more parameters that take
anything it is refused over these two, and a function is refused that is called from within. -/
theorem down_ascribed :
    (down [param "n" (some [.int])]).Ascribed ∧
    (∃ d ∈ Source.functions [loose.stmt], FoundRecursive .strict [loose.stmt] d ∧
      ¬ d.Ascribed ∧ d.Lacks ⟨.recursionNeedsParams "down" ["a", "b"], some ⟨1, 2⟩⟩) ∧
    ∃ d ∈ Source.functions [outer.stmt], FoundRecursive .strict [outer.stmt] d ∧
      ¬ d.Ascribed ∧ d.Lacks ⟨.recursionNeedsReturn "outer", some ⟨3, 4⟩⟩ := by
  refine ⟨?_, ?_, ?_⟩
  · have hall := (Program.recursion_ascribed .strict [(down [param "n" (some [.int])]).stmt]).2.1
      ⟨[.declareFunc typedDown typedBody], [(14, .int)]⟩ rfl
    cases hall with
    | cons hfirst _ => exact hfirst.2 typedDown_calledIn
  · exact (Program.recursion_ascribed .strict [loose.stmt]).2.2 _ rfl trivial
  · exact (Program.recursion_ascribed .strict [outer.stmt]).2.2 _ rfl trivial

end Descent

end Croupier
