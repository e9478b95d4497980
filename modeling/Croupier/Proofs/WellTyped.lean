import Croupier.Proofs.Coherence
import Croupier.Proofs.Reached

/-!
# The types of a program are well formed

Types get into a program in a few ways: literals and ascriptions bring them in, arrays and functions
are built over them, elements are taken out of them, and the results of functions are unions of what
is returned. None of this makes a union that is too small or too large, so all types that lowering
meets are well formed. In particular every value that is returned has a type with a member.

A mention of a function has the type that a table of settled results gives it, so an expression is
called well formed if its type is, whatever well-formed results are settled.

> `returnTypes_eq`: what is collected for the result of a function are the types of the values that
> its body returns, in order.
>
> `PassageLowered.wellTyped` and `Reached.wellTyped`: scopes and tables stay well typed, and what is
> returned is well formed.
-/

namespace Croupier

/-! ### What a body returns -/

mutual

/-- The values that a statement returns, in the order in which they are written. Those of nested
functions belong to them. -/
def Stmt.returned : Stmt → List Expr
  | .returnValue value => [value]
  | .branch _ body orElse => Stmt.returnedList body ++ orElse.returned
  | .shortBranch _ body | .whileLoop _ body | .forEach _ _ body | .forTurn _ _ _ _ _ body =>
    Stmt.returnedList body
  | .declareVar _ _ | .declareFunc _ _ | .assign _ _ | .bump _ _ | .call _ | .breakLoop
  | .returnNone => []

/-- The values that the further arms of an `if` return. -/
def Else.returned : Else → List Expr
  | .elseIf _ body orElse => Stmt.returnedList body ++ orElse.returned
  | .block body => Stmt.returnedList body

/-- The values that the statements of a block return. -/
def Stmt.returnedList : List Stmt → List Expr
  | [] => []
  | s :: ss => s.returned ++ Stmt.returnedList ss

end

/-- The values that a passage returns. -/
def Passage.returned : Passage → List Expr
  | stmt s => s.returned
  | arms e => e.returned
  | block ss => Stmt.returnedList ss

/-- A walk that stays within a body: it passes by nested functions and does not look into
expressions. -/
def Visit.staysInside : Visit → Bool
  | .declareFunc _ _ | .returnValue _ | .expression _ => false
  | _ => true

/-- The type of the value that is returned where a walk is. -/
def Visit.returnTy? (returns : Returns) : Visit → Option Ty
  | .returnValue value => some (value.ty returns)
  | _ => none

/-- Where a walk goes on, nothing is returned yet. -/
theorem Visit.returnTy?_meet (returns : Returns) (visit : Visit) (further : List Visit) :
    (visit.meet Visit.staysInside further).filterMap (Visit.returnTy? returns) =
      if visit.staysInside then further.filterMap (Visit.returnTy? returns)
      else (visit.returnTy? returns).toList := by
  cases visit <;> rfl

/-- Expressions return nothing. -/
theorem Expr.returnTy?_visits (returns : Returns) (e : Expr) :
    (e.visits Visit.staysInside).filterMap (Visit.returnTy? returns) = [] := by
  cases e <;> rfl

mutual

/-- A walk that stays inside of a function meets the values that are returned, in their order. -/
theorem Stmt.returnTy?_visits (returns : Returns) (s : Stmt) :
    (s.visits Visit.staysInside).filterMap (Visit.returnTy? returns) =
      s.returned.map (Expr.ty returns) := by
  match s with
  | .declareFunc _ _ | .breakLoop | .returnValue _ | .returnNone => rfl
  | .declareVar _ _ | .assign _ _ | .bump _ _ | .call _ =>
    simp [Stmt.visits, Visit.returnTy?_meet, Visit.staysInside, Expr.returnTy?_visits,
      Stmt.returned]
  | .shortBranch _ body | .whileLoop _ body | .forEach _ _ body | .forTurn _ _ _ _ _ body =>
    simp [Stmt.visits, Visit.returnTy?_meet, Visit.staysInside, Expr.returnTy?_visits,
      Stmt.returned, Stmt.returnTy?_visitsList returns body]
  | .branch _ body orElse =>
    simp [Stmt.visits, Visit.returnTy?_meet, Visit.staysInside, Expr.returnTy?_visits,
      Stmt.returned, Stmt.returnTy?_visitsList returns body, Else.returnTy?_visits returns orElse]

theorem Else.returnTy?_visits (returns : Returns) (e : Else) :
    (e.visits Visit.staysInside).filterMap (Visit.returnTy? returns) =
      e.returned.map (Expr.ty returns) := by
  match e with
  | .elseIf _ body orElse =>
    simp [Else.visits, Visit.returnTy?_meet, Visit.staysInside, Expr.returnTy?_visits,
      Else.returned, Stmt.returnTy?_visitsList returns body, Else.returnTy?_visits returns orElse]
  | .block body =>
    simp [Else.visits, Visit.returnTy?_meet, Visit.staysInside, Else.returned,
      Stmt.returnTy?_visitsList returns body]

theorem Stmt.returnTy?_visitsList (returns : Returns) (ss : List Stmt) :
    (Stmt.visitsList Visit.staysInside ss).filterMap (Visit.returnTy? returns) =
      (Stmt.returnedList ss).map (Expr.ty returns) := by
  match ss with
  | [] => rfl
  | s :: ss =>
    rw [Stmt.visitsList, List.filterMap_append, Stmt.returnTy?_visits returns s,
      Stmt.returnTy?_visitsList returns ss, Stmt.returnedList, List.map_append]

end

/-- What is collected for the result of a function are the types of what its body returns. -/
theorem returnTypes_eq (returns : Returns) (body : List Stmt) :
    returnTypes returns body = (Stmt.returnedList body).map (Expr.ty returns) :=
  Stmt.returnTy?_visitsList returns body

/-! ### Well-formed types -/

/-- All settled results are well formed. -/
def Returns.WellFormed (returns : Returns) : Prop := ∀ entry ∈ returns, entry.2.WellFormed

/-- The type of an entity is well formed, whatever well-formed results are settled. -/
def Entity.WellFormed (entity : Entity) : Prop :=
  ∀ returns : Returns, returns.WellFormed → (entity.ty returns).WellFormed

/-- The type of an expression is well formed, whatever well-formed results are settled. -/
def Expr.WellFormed (e : Expr) : Prop :=
  ∀ returns : Returns, returns.WellFormed → (e.ty returns).WellFormed

theorem Expr.wellFormed_ofEntity {entity : Entity} :
    (Expr.ofEntity entity).WellFormed ↔ entity.WellFormed := by
  cases entity <;> exact Iff.rfl

theorem Entity.wellFormed_var {v : Var} : (Entity.var v).WellFormed ↔ v.ty.WellFormed :=
  ⟨fun h => h [] (by simp [Returns.WellFormed]), fun h _ _ => h⟩

/-- What is settled or else ascribed is well formed if both are. -/
theorem Returns.WellFormed.lookup_getD {returns : Returns} (h : returns.WellFormed) (id : Nat)
    {ascribed : Ty} (hascribed : ascribed.WellFormed) :
    ((returns.lookup id).getD ascribed).WellFormed := by
  cases hfound : returns.lookup id with
  | none => exact hascribed
  | some result =>
    obtain ⟨before, after, rfl, _⟩ := List.lookup_eq_some_iff.mp hfound
    exact h (id, result) (by simp)

theorem Returns.WellFormed.cons {returns : Returns} (h : returns.WellFormed) (id : Nat)
    {result : Ty} (hresult : result.WellFormed) : Returns.WellFormed ((id, result) :: returns) :=
  List.forall_mem_cons.mpr ⟨hresult, h⟩

/-- The type of a call is well formed if that of the function is. -/
theorem Func.wellFormed_returnTy {f : Func} (h : (Entity.func f).WellFormed) {returns : Returns}
    (hreturns : returns.WellFormed) : (f.returnTy returns).WellFormed := by
  have hty : (Ty.func (f.signature returns).params (f.returnTy returns)).WellFormed :=
    h returns hreturns
  rw [Ty.WellFormed] at hty
  exact hty.2

/-- Parameters have well-formed types: what is ascribed, or `any`. -/
theorem Source.Param.wellFormed_ty (p : Source.Param) : p.ty.WellFormed := by
  unfold Source.Param.ty
  split
  next => trivial
  next names _ => exact names.wellFormed_ty

theorem wellFormed_paramVars {id : Nat} {params : List Source.Param} {v : Var}
    (h : v ∈ paramVars id params) : v.ty.WellFormed := by
  induction params generalizing id with
  | nil => cases h
  | cons p ps ih =>
    rcases List.mem_cons.mp h with rfl | h
    · exact p.wellFormed_ty
    · exact ih h

/-- A declared function has a well-formed type. -/
theorem Source.FuncDecl.wellFormed_func (d : Source.FuncDecl) (id : Nat) :
    (Entity.func (d.func id)).WellFormed := by
  intro returns hreturns
  show (Ty.func ((paramVars (id + 1) d.params).map Var.ty)
    ((returns.lookup id).getD ((d.ascribed.map Ascription.ty).getD .any))).WellFormed
  rw [Ty.WellFormed, Ty.wellFormedList_iff, List.forall_mem_map]
  refine ⟨fun v hv => wellFormed_paramVars hv, hreturns.lookup_getD id ?_⟩
  cases d.ascribed with
  | none => trivial
  | some names => exact names.wellFormed_ty

/-- What a well-formed type promotes to is well formed. -/
theorem Ty.WellFormed.promote {s : Ty} (h : s.WellFormed) (t : Ty) :
    ((s.promote t).getD .any).WellFormed := by
  unfold Ty.promote
  split
  next => exact h
  next => split <;> trivial

/-- The type of the iterator of a turn is well formed. -/
theorem wellFormed_turnTy (low high : Ty) : (turnTy low high).WellFormed := by
  unfold turnTy
  cases hty : (low.promote high).filter Ty.isNumeric with
  | none => trivial
  | some t =>
    obtain ⟨_, hnumeric⟩ := Option.filter_eq_some_iff.mp hty
    cases t with
    | prim => trivial
    | array | func | union => cases hnumeric

/-- The result of a function is well formed if what it returns is. -/
theorem wellFormed_reconcile {function : String} {ascribed : Option Ascription}
    {returned : List Ty} {span : Span} {result : Ty}
    (h : reconcile function ascribed returned span = .ok result)
    (hreturned : ∀ t ∈ returned, t.WellFormed) : result.WellFormed := by
  unfold reconcile at h
  split at h
  next =>
    cases h
    exact Ty.wellFormed_unionOf hreturned
  next names =>
    split at h
    next => cases h
    next =>
      cases h
      exact names.wellFormed_ty

/-! ### Scopes and tables -/

/-- Everything that a scope holds and a table settles has a well-formed type. -/
structure WellTyped (scope : Scope) (returns : Returns) : Prop where
  held : ∀ entity, scope.Holds entity → entity.WellFormed
  settled : returns.WellFormed

namespace WellTyped

variable {scope : Scope} {returns : Returns}

/-- Something with a well-formed type may be bound. -/
theorem bind (h : WellTyped scope returns) (name : String) {entity : Entity}
    (hentity : entity.WellFormed) : WellTyped (scope.bind name entity) returns := by
  refine ⟨fun x hx => ?_, h.settled⟩
  rcases Scope.holds_bind.mp hx with rfl | hx
  · exact hentity
  · exact h.held x hx

theorem loop (h : WellTyped scope returns) : WellTyped scope.pushLoop returns :=
  ⟨fun x hx => h.held x (Scope.holds_pushLoop.mp hx), h.settled⟩

theorem iterator (h : WellTyped scope returns) (name : String) {v : Var} (hv : v.ty.WellFormed) :
    WellTyped (scope.pushLoop.bind name (.var v)) returns :=
  h.loop.bind name (Entity.wellFormed_var.mpr hv)

/-- The scope in which the body of a function is read. -/
theorem function (h : WellTyped scope returns) (d : Source.FuncDecl) (id : Nat) :
    WellTyped (d.inner scope id) returns := by
  have hbound := h.bind d.name.name (d.wellFormed_func id)
  refine ⟨fun x hx => ?_, h.settled⟩
  rcases Scope.holds_bindAll.mp hx with ⟨v, hv, rfl⟩ | hx
  · exact Entity.wellFormed_var.mpr (wellFormed_paramVars hv)
  · exact hbound.held x (Scope.holds_pushFunction.mp hx)

/-- The library has well-formed types. -/
theorem initial : WellTyped .program Session.initial.returns := by
  refine ⟨fun x hx => ?_, by simp [Returns.WellFormed, Session.initial]⟩
  obtain ⟨name, hmem⟩ := Scope.program_holds hx
  simp only [Library.bindings, List.mem_append, List.mem_map, Prod.mk.injEq,
    List.mem_singleton] at hmem
  rcases hmem with (⟨v, hv, _, rfl⟩ | ⟨⟨i, id⟩, _, _, rfl⟩) | ⟨_, rfl⟩
  · have hty : ∀ v ∈ Library.constants, v.ty = .float := by simp [Library.constants]
    rw [Entity.wellFormed_var, hty v hv]
    trivial
  · intro R _
    show i.signature.ty.WellFormed
    cases i <;> simp [Intrinsic.signature, Signature.ty, Ty.WellFormed, Ty.WellFormedList]
  · intro R _
    show (Ty.func [] .any).WellFormed
    simp [Ty.WellFormed, Ty.WellFormedList]

end WellTyped

/-! ### Expressions -/

/-- The expressions of a phrase are well formed. Nothing is made of the types of an object's
members. -/
def Phrase.WellFormed : Phrase → Prop
  | expr e => e.WellFormed
  | list es => ∀ e ∈ es, e.WellFormed
  | members _ => True

/-- What is lowered in a scope with well-formed types has well-formed types. -/
theorem PhraseLowered.wellFormed {setting : Setting} {d : Source.Phrase} {d' : Phrase}
    (h : PhraseLowered setting d d') (hscope : WellTyped setting.scope setting.returns) :
    d'.WellFormed := by
  have hsettled := hscope.settled
  induction h with
  | int | float | string | bool | member | object => exact fun _ _ => trivial
  | ident found => exact Expr.wellFormed_ofEntity.mpr (hscope.held _ (Scope.holds_of_lookup found))
  | @binary _ op left _ left' _ ty _ _ hty ihleft _ =>
    have hcoherent := binaryTy_eq_ok hty
    unfold BinaryOperator.Coherent at hcoherent
    intro R _
    show ty.WellFormed
    split at hcoherent
    · rw [hcoherent.2]
      exact (ihleft setting.returns hsettled).promote _
    · rw [hcoherent.2]
      trivial
    · rw [hcoherent]
      trivial
  | unary _ ih => exact fun _ _ => ih setting.returns hsettled
  | @call _ _ _ f args' _ _ _ _ ihcallee _ =>
    have hresult : (f.returnTy setting.returns).WellFormed :=
      Func.wellFormed_returnTy ihcallee hsettled
    intro R _
    rcases Expr.callOf_cases setting.returns f args' with
      ⟨_, _, _, _, heq⟩ | ⟨_, _, _, _, _, heq⟩ | heq <;> rw [heq] <;> exact hresult
  | subscript _ _ _ ihbase _ => exact fun _ _ => (ihbase setting.returns hsettled).element
  | @array _ _ items' _ ih =>
    cases items' with
    | nil => exact fun _ _ => trivial
    | cons item items => exact fun _ _ => ih item List.mem_cons_self setting.returns hsettled
  | listNil => exact List.forall_mem_nil _
  | listCons _ _ ihfirst ihrest => exact List.forall_mem_cons.mpr ⟨ihfirst, ihrest⟩
  | membersNil | membersCons => trivial

/-! ### Statements -/

/-- Behind a passage everything is still well typed, and the values that it returns are well
formed. -/
theorem PassageLowered.wellTyped {strictness : Strictness} {scope scope' : Scope}
    {session session' : Session} {d : Source.Passage} {d' : Passage}
    (h : PassageLowered strictness scope session d d' scope' session')
    (hscope : WellTyped scope session.returns) :
    WellTyped scope' session'.returns ∧ ∀ e ∈ d'.returned, e.WellFormed := by
  induction h with
  | @declareVar _ session _ _ name _ init' v _ hinit hv =>
    have hty : v.ty.WellFormed := by
      rw [hv]
      exact hinit.wellFormed hscope session.returns hscope.settled
    exact ⟨hscope.bind name.name (Entity.wellFormed_var.mpr hty), List.forall_mem_nil _⟩
  | @declareFunc scope _ session session' span name params paramsSpan ascribed body body' vars f
      result _ _ hvars hf _ _ hresult ih =>
    subst hvars hf
    let d : Source.FuncDecl := ⟨span, name, params, paramsSpan, ascribed, body⟩
    obtain ⟨hinner, hreturned⟩ := ih (hscope.function d session.nextId)
    have hwell : result.WellFormed := by
      refine wellFormed_reconcile hresult ?_
      rw [returnTypes_eq, List.forall_mem_map]
      exact fun e he => hreturned e he _ hinner.settled
    have hsettled := hinner.settled.cons session.nextId hwell
    have houter : WellTyped scope ((session.nextId, result) :: session'.returns) :=
      ⟨hscope.held, hsettled⟩
    exact ⟨houter.bind name.name (d.wellFormed_func session.nextId), List.forall_mem_nil _⟩
  | bump | assign | call | breakLoop | returnNone | nothing | nil =>
    exact ⟨hscope, List.forall_mem_nil _⟩
  | returnValue _ hvalue =>
    exact ⟨hscope, List.forall_mem_singleton.mpr (hvalue.wellFormed hscope)⟩
  | shortBranch _ _ _ ih | block _ ih => exact ih hscope
  | branch _ _ _ _ _ ihfirst ihrest | elseIf _ _ _ _ ihfirst ihrest | cons _ _ ihfirst ihrest =>
    obtain ⟨hmiddle, hfirst⟩ := ihfirst hscope
    obtain ⟨hlast, hrest⟩ := ihrest hmiddle
    exact ⟨hlast, List.forall_mem_append.mpr ⟨hfirst, hrest⟩⟩
  | whileLoop _ _ _ ih =>
    obtain ⟨hinner, hreturned⟩ := ih hscope.loop
    exact ⟨⟨hscope.held, hinner.settled⟩, hreturned⟩
  | @forEach _ _ session _ _ iterator _ _ _ _ v hcollection hv _ ih =>
    have hty : v.ty.WellFormed := by
      rw [hv]
      exact (hcollection.wellFormed hscope session.returns hscope.settled).element
    obtain ⟨hinner, hreturned⟩ := ih (hscope.iterator iterator.name hty)
    exact ⟨⟨hscope.held, hinner.settled⟩, hreturned⟩
  | @forTurn _ _ _ _ _ _ iterator _ _ _ _ _ _ _ _ _ v _ _ _ _ hv _ ih =>
    have hty : v.ty.WellFormed := by
      rw [hv]
      exact wellFormed_turnTy _ _
    obtain ⟨hinner, hreturned⟩ := ih (hscope.iterator iterator.name hty)
    exact ⟨⟨hscope.held, hinner.settled⟩, hreturned⟩

/-- Everything is well typed wherever lowering comes. -/
theorem Reached.wellTyped {strictness : Strictness} {scope inner : Scope}
    {session start : Session} {d t : Source.Passage}
    (h : Reached strictness scope session d inner start t)
    (hscope : WellTyped scope session.returns) : WellTyped inner start.returns := by
  induction h with
  | here => exact hscope
  | @funcBody _ session _ _ _ d _ _ _ ih => exact ih (hscope.function d session.nextId)
  | branchBody _ _ _ ih | elseIfBody _ _ _ ih | block _ ih | first _ ih => exact ih hscope
  | branchElse _ _ hbody _ ih | elseIfElse _ _ hbody _ ih => exact ih (hbody.wellTyped hscope).1
  | rest hfirst _ ih => exact ih (hfirst.wellTyped hscope).1
  | whileBody _ _ _ ih => exact ih hscope.loop
  | @forEachBody _ session _ _ _ _ iterator _ _ _ v hcollection hv _ ih =>
    refine ih (hscope.iterator iterator.name ?_)
    rw [hv]
    exact (hcollection.wellFormed hscope session.returns hscope.settled).element
  | @forTurnBody _ _ _ _ _ _ iterator _ _ _ _ _ _ _ _ _ v _ _ _ _ hv _ ih =>
    refine ih (hscope.iterator iterator.name ?_)
    rw [hv]
    exact wellFormed_turnTy _ _

end Croupier
