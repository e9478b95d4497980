import Croupier.Proofs.Lowered
import Croupier.Proofs.Wording

/-!
# Reading a program in other words

Two runs of lowering, one over a program and one over the same program in other words. They go on
side by side. At every moment the one is in a scope that the other has under other names, both are
in the same session, and each rule that holds for the one holds for the other. So they come to the
same end (`Matched`): either both give a program, the same one under other names, or both refuse
it for the same reason at the same place.

One thing is said about a fault that does not come from the program. What is written to and has no
name is called "expression", and that word stays when names change (`Fault.Reworded`).

> `Source.lower_matched`: lowering a program in other words gives the program under other names, or
> the fault in other words.
-/

namespace Croupier

/-! ### Walks -/

/-- A visit under other names. -/
def Visit.rename (r : String → String) : Visit → Visit
  | .block body => .block (Stmt.renameList r body)
  | .statement s => .statement (s.rename r)
  | .declareVar v init => .declareVar (v.rename r) (init.rename r)
  | .declareFunc f body => .declareFunc (f.rename r) (Stmt.renameList r body)
  | .assign target source => .assign (target.rename r) (source.rename r)
  | .returnValue value => .returnValue (value.rename r)
  | .arm test body orElse => .arm (test.rename r) (Stmt.renameList r body) (orElse.rename r)
  | .forEach iterator collection body =>
    .forEach (iterator.rename r) (collection.rename r) (Stmt.renameList r body)
  | .forTurn iterator low high step direction body =>
    .forTurn (iterator.rename r) (low.rename r) (high.rename r) (step.rename r) direction
      (Stmt.renameList r body)
  | .expression e => .expression (e.rename r)
  | .call callee args ty => .call (callee.rename r) (Expr.renameList r args) ty

section Walks

variable (r : String → String)

/-- Going into a visit or not is decided alike, if the choice is made by the renamed visit. -/
theorem Visit.map_meet (follow : Visit → Bool) (visit : Visit) (further : List Visit) :
    (visit.meet (follow ∘ Visit.rename r) further).map (Visit.rename r) =
      (visit.rename r).meet follow (further.map (Visit.rename r)) := by
  unfold Visit.meet
  rw [List.map_cons, apply_ite (List.map (Visit.rename r))]
  rfl

mutual

/-- A walk over a renamed expression meets what the walk over the expression meets, renamed. -/
theorem Expr.visits_rename (follow : Visit → Bool) (e : Expr) :
    (e.rename r).visits follow = (e.visits (follow ∘ Visit.rename r)).map (Visit.rename r) := by
  match e with
  | .int _ | .float _ | .string _ | .bool _ | .var _ | .func _ | .emptyArray _ => rfl
  | .array items ty =>
    rw [Expr.visits, Visit.map_meet, ← Expr.visitsList_rename follow items]
    rfl
  | .object members =>
    rw [Expr.visits, Visit.map_meet, ← Expr.visitsMembers_rename follow members]
    rfl
  | .binary head left right ty =>
    rw [Expr.visits, Visit.map_meet, List.map_append, ← Expr.visits_rename follow left,
      ← Expr.visits_rename follow right]
    rfl
  | .unary head operand ty =>
    rw [Expr.visits, Visit.map_meet, ← Expr.visits_rename follow operand]
    rfl
  | .subscript base index ty =>
    rw [Expr.visits, Visit.map_meet, List.map_append, ← Expr.visits_rename follow base,
      ← Expr.visits_rename follow index]
    rfl
  | .member base field ty =>
    rw [Expr.visits, Visit.map_meet, ← Expr.visits_rename follow base]
    rfl
  | .call callee args ty =>
    rw [Expr.visits, Visit.map_meet, Visit.map_meet, ← Expr.visitsList_rename follow args]
    rfl

theorem Expr.visitsList_rename (follow : Visit → Bool) (es : List Expr) :
    Expr.visitsList follow (Expr.renameList r es) =
      (Expr.visitsList (follow ∘ Visit.rename r) es).map (Visit.rename r) := by
  match es with
  | [] => rfl
  | e :: es =>
    rw [Expr.renameList, Expr.visitsList, Expr.visitsList, List.map_append,
      Expr.visits_rename follow e, Expr.visitsList_rename follow es]

theorem Expr.visitsMembers_rename (follow : Visit → Bool) (ms : List (String × Expr)) :
    Expr.visitsMembers follow (Expr.renameMembers r ms) =
      (Expr.visitsMembers (follow ∘ Visit.rename r) ms).map (Visit.rename r) := by
  match ms with
  | [] => rfl
  | (key, e) :: ms =>
    rw [Expr.renameMembers, Expr.visitsMembers, Expr.visitsMembers, List.map_append,
      Expr.visits_rename follow e, Expr.visitsMembers_rename follow ms]

end

mutual

/-- A walk over a renamed statement meets what the walk over the statement meets, renamed. -/
theorem Stmt.visits_rename (follow : Visit → Bool) (s : Stmt) :
    (s.rename r).visits follow = (s.visits (follow ∘ Visit.rename r)).map (Visit.rename r) := by
  match s with
  | .breakLoop | .returnNone => rfl
  | .declareVar v init =>
    simp only [Stmt.visits, Stmt.rename, Visit.map_meet, init.visits_rename r follow]
    rfl
  | .declareFunc f body =>
    simp only [Stmt.visits, Stmt.rename, Visit.map_meet, Stmt.visitsList_rename follow body]
    rfl
  | .assign target source =>
    simp only [Stmt.visits, Stmt.rename, Visit.map_meet, List.map_append, Expr.visits_rename]
    rfl
  | .bump _ e | .call e | .returnValue e =>
    simp only [Stmt.visits, Stmt.rename, Visit.map_meet, e.visits_rename r follow]
    rfl
  | .branch test body orElse =>
    simp only [Stmt.visits, Stmt.rename, Visit.map_meet, List.map_append, Expr.visits_rename,
      Stmt.visitsList_rename follow body, Else.visits_rename follow orElse]
    rfl
  | .shortBranch test body | .whileLoop test body | .forEach _ test body =>
    simp only [Stmt.visits, Stmt.rename, Visit.map_meet, List.map_append, Expr.visits_rename,
      Stmt.visitsList_rename follow body]
    rfl
  | .forTurn iterator low high step direction body =>
    simp only [Stmt.visits, Stmt.rename, Visit.map_meet, List.map_append, Expr.visits_rename,
      Stmt.visitsList_rename follow body]
    rfl

theorem Else.visits_rename (follow : Visit → Bool) (orElse : Else) :
    (orElse.rename r).visits follow =
      (orElse.visits (follow ∘ Visit.rename r)).map (Visit.rename r) := by
  match orElse with
  | .elseIf test body rest =>
    simp only [Else.visits, Else.rename, Visit.map_meet, List.map_append, Expr.visits_rename,
      Stmt.visitsList_rename follow body, Else.visits_rename follow rest]
    rfl
  | .block body =>
    simp only [Else.visits, Else.rename, Visit.map_meet, Stmt.visitsList_rename follow body]
    rfl

theorem Stmt.visitsList_rename (follow : Visit → Bool) (ss : List Stmt) :
    Stmt.visitsList follow (Stmt.renameList r ss) =
      (Stmt.visitsList (follow ∘ Visit.rename r) ss).map (Visit.rename r) := by
  match ss with
  | [] => rfl
  | s :: ss =>
    rw [Stmt.renameList, Stmt.visitsList, Stmt.visitsList, List.map_append,
      Stmt.visits_rename follow s, Stmt.visitsList_rename follow ss]

end

/-- A walk through a block meets the same things under other names. -/
theorem Stmt.visitsOf_rename (follow : Visit → Bool) (body : List Stmt) :
    Stmt.visitsOf follow (Stmt.renameList r body) =
      (Stmt.visitsOf (follow ∘ Visit.rename r) body).map (Visit.rename r) := by
  rw [Stmt.visitsOf, Stmt.visitsOf, Visit.map_meet, Stmt.visitsList_rename]
  rfl

/-- Whether a function calls itself is a matter of numbers. -/
theorem callsItself_rename (f : Func) (body : List Stmt) :
    callsItself (f.rename r) (Stmt.renameList r body) = callsItself f body := by
  rw [callsItself, callsItself, Stmt.visitsOf_rename, List.any_map]
  congr 1
  funext visit
  cases visit <;> rfl

/-- A renamed body returns values of the same types. -/
theorem returnTypes_rename (returns : Returns) (body : List Stmt) :
    returnTypes returns (Stmt.renameList r body) = returnTypes returns body := by
  simp only [returnTypes]
  rw [Stmt.visitsOf_rename, List.filterMap_map]
  congr 1
  · funext visit
    cases visit with
    | returnValue value => exact congrArg some (value.ty_rename r returns)
    | _ => rfl
  · congr 1
    funext visit
    cases visit <;> rfl

end Walks

/-! ### Faults -/

/-- A cause under other names. -/
def Cause.rename (r : String → String) : Cause → Cause
  | duplicateDeclaration name => duplicateDeclaration (r name)
  | duplicateParameter name => duplicateParameter (r name)
  | undeclared name => undeclared (r name)
  | readOnly name => readOnly (r name)
  | constantReassigned name => constantReassigned (r name)
  | returnMismatch function expected found => returnMismatch (r function) expected found
  | recursionNeedsReturn function => recursionNeedsReturn (r function)
  | recursionNeedsParams function params => recursionNeedsParams (r function) (params.map r)
  | notCallable => notCallable
  | callArity expected actual => callArity expected actual
  | turnArity actual => turnArity actual
  | notBoolean found => notBoolean found
  | bumpNotNumeric found => bumpNotNumeric found
  | argumentNotNumeric intrinsic found => argumentNotNumeric intrinsic found
  | notSubscriptable found => notSubscriptable found
  | functionOperand => functionOperand
  | typeMismatch left right => typeMismatch left right
  | breakOutsideLoop => breakOutsideLoop
  | returnOutsideFunction => returnOutsideFunction
  | zeroStep => zeroStep

/-- What a target without a name is called. -/
def Cause.nameless : Cause := .readOnly "expression"

/-- A fault in other words: its names are changed, except for the word for what has none. -/
inductive Fault.Reworded (ρ : Rewording) : Fault → Fault → Prop where
  | named (cause : Cause) (span : Option Span) :
    Reworded ρ ⟨cause, span⟩ ⟨cause.rename ρ.name, span.map ρ.place⟩
  | nameless (span : Option Span) : Reworded ρ ⟨.nameless, span⟩ ⟨.nameless, span.map ρ.place⟩

/-! ### Two runs side by side -/

/-- Two runs come to the same end: a result, which is changed by `φ`, or a fault in other words. -/
inductive Matched (ρ : Rewording) {α : Type} (φ : α → α) : Except Fault α → Except Fault α → Prop
  where
  | ok (a : α) : Matched ρ φ (.ok a) (.ok (φ a))
  | error {fault fault' : Fault} (h : fault.Reworded ρ fault') :
    Matched ρ φ (.error fault) (.error fault')

namespace Matched

variable {ρ : Rewording} {α β : Type} {φ : α → α} {ψ : β → β}

/-- A refusal in other words is the refusal of the same cause in other words. -/
theorem refuse (cause : Cause) (span : Span) :
    Matched ρ φ (refuse cause span) (refuse (cause.rename ρ.name) (ρ.place span)) :=
  .error (.named cause (some span))

/-- Runs that match go on to match if their next steps do, whatever the first one gave. -/
theorem bind {x y : Except Fault α} {f g : α → Except Fault β} (h : Matched ρ φ x y)
    (hnext : ∀ a, Matched ρ ψ (f a) (g (φ a))) : Matched ρ ψ (x >>= f) (y >>= g) := by
  cases h with
  | ok a => exact hnext a
  | error h => exact .error h

/-- A change of the results that goes with the change of words keeps runs matched. -/
theorem map {x y : Except Fault α} {f g : α → β} (h : Matched ρ φ x y)
    (hresult : ∀ a, g (φ a) = ψ (f a)) : Matched ρ ψ (x.map f) (y.map g) := by
  cases h with
  | ok a =>
    show Matched ρ ψ (.ok (f a)) (.ok (g (φ a)))
    rw [hresult]
    exact .ok (f a)
  | error h => exact .error h

end Matched

/-! ### Rules -/

section Rules

variable (ρ : Rewording) (returns : Returns)

/-- Tests are checked by their types, which have no names. -/
theorem checkBoolean_matched (e : Expr) (span : Span) :
    Matched ρ id (checkBoolean returns e span)
      (checkBoolean returns (e.rename ρ.name) (ρ.place span)) := by
  unfold checkBoolean
  rw [Expr.ty_rename]
  split
  · exact .ok ()
  · exact .refuse (.notBoolean _) span

/-- So are the operands of an operation. -/
theorem checkOperands_matched (left right : Expr) (span : Span) :
    Matched ρ id (checkOperands returns left right span)
      (checkOperands returns (left.rename ρ.name) (right.rename ρ.name) (ρ.place span)) := by
  simp only [checkOperands, Expr.isFunc_rename, Expr.ty_rename]
  split
  · exact .refuse .functionOperand span
  · split
    · exact .ok ()
    · exact .refuse (.typeMismatch _ _) span

/-- An operation gets the same type, or is refused alike. -/
theorem binaryTy_matched (strictness : Strictness) (scope : Scope) (op : BinaryOperator)
    (left right : Expr) (span : Span) :
    Matched ρ id (binaryTy ⟨strictness, returns, scope⟩ op left right span)
      (binaryTy ⟨strictness, returns, scope.rename ρ.name⟩ op (left.rename ρ.name)
        (right.rename ρ.name) (ρ.place span)) := by
  unfold binaryTy
  cases op.opClass with
  | arithmetic =>
    refine (checkOperands_matched ρ returns left right span).bind (fun _ => ?_)
    rw [Expr.ty_rename, Expr.ty_rename]
    exact .ok _
  | comparison => exact (checkOperands_matched ρ returns left right span).bind (fun _ => .ok _)
  | logical =>
    cases strictness with
    | lenient => exact .ok _
    | strict =>
      have hleft := checkBoolean_matched ρ returns left span
      have hright := checkBoolean_matched ρ returns right span
      exact (hleft.bind (fun _ => hright)).bind (fun _ => .ok _)

/-- Subscripts are checked by the type of their base. -/
theorem checkSubscriptable_matched (base : Expr) (span : Span) :
    Matched ρ id (checkSubscriptable returns base span)
      (checkSubscriptable returns (base.rename ρ.name) (ρ.place span)) := by
  unfold checkSubscriptable
  rw [Expr.ty_rename]
  split
  · exact .refuse (.notSubscriptable _) span
  · exact .ok ()

/-- The number of arguments has nothing to do with names. -/
theorem checkArity_matched (f : Func) (actual : Nat) (span : Span) :
    Matched ρ id (checkArity f actual span)
      (checkArity (f.rename ρ.name) actual (ρ.place span)) := by
  unfold checkArity
  rw [Func.isVariadic_rename, Func.arity_rename]
  split
  · exact .ok ()
  · exact .refuse (.callArity _ _) span

/-- The first argument that is no number is the same, at its own place. -/
theorem firstNonNumeric_reword (args : List Expr) (places : List Span) :
    firstNonNumeric returns ((Expr.renameList ρ.name args).zip (places.map ρ.place)) =
      (firstNonNumeric returns (args.zip places)).map (Prod.map id ρ.place) := by
  induction args generalizing places with
  | nil => rfl
  | cons e es ih =>
    cases places with
    | nil => rfl
    | cons place places =>
      rw [Expr.renameList, List.map_cons, List.zip_cons_cons, List.zip_cons_cons, firstNonNumeric,
        firstNonNumeric, Expr.ty_rename, ih places]
      split <;> rfl

/-- Arguments are checked alike: an intrinsic stays one, since a renaming does not touch the
library. -/
theorem checkArguments_matched (f : Func) (args : List Expr) (places : List Span) :
    Matched ρ id (checkArguments returns f args places)
      (checkArguments returns (f.rename ρ.name) (Expr.renameList ρ.name args)
        (places.map ρ.place)) := by
  unfold checkArguments
  rw [ρ.intrinsic?_rename, firstNonNumeric_reword]
  cases f.intrinsic? with
  | none => exact .ok ()
  | some i =>
    dsimp only
    split
    · cases firstNonNumeric returns (args.zip places) with
      | none => exact .ok ()
      | some found => exact .refuse (.argumentNotNumeric i _) _
    · exact .ok ()

/-- A call is accepted or refused alike. -/
theorem callOn_matched (callee : Expr) (args : List Expr) (places : List Span) (span : Span) :
    Matched ρ (Expr.rename ρ.name) (callOn returns callee args places span)
      (callOn returns (callee.rename ρ.name) (Expr.renameList ρ.name args) (places.map ρ.place)
        (ρ.place span)) := by
  cases callee with
  | func f =>
    have hlength : (Expr.renameList ρ.name args).length = args.length := by
      rw [Expr.renameList_eq_map, List.length_map]
    simp only [callOn, Expr.rename, hlength]
    refine (checkArity_matched ρ f args.length span).bind (fun _ => ?_)
    refine (checkArguments_matched ρ returns f args places).bind (fun _ => ?_)
    rw [← ρ.rename_callOf]
    exact .ok _
  | _ => exact .refuse .notCallable span

/-- A name is new in a scope exactly if the renamed one is new in the renamed scope. -/
theorem checkUndeclared_matched (scope : Scope) (name : Ident) :
    Matched ρ id (checkUndeclared scope name)
      (checkUndeclared (scope.rename ρ.name) (name.reword ρ)) := by
  unfold checkUndeclared
  rw [show (name.reword ρ).name = ρ.name name.name from rfl, Scope.has_rename]
  split
  · exact .refuse (.duplicateDeclaration _) name.span
  · exact .ok ()

theorem checkInLoop_matched (scope : Scope) (span : Span) :
    Matched ρ id (checkInLoop scope span) (checkInLoop (scope.rename ρ.name) (ρ.place span)) := by
  unfold checkInLoop
  rw [show (scope.rename ρ.name).inLoop = scope.inLoop from rfl]
  split
  · exact .ok ()
  · exact .refuse .breakOutsideLoop span

theorem checkInFunction_matched (scope : Scope) (span : Span) :
    Matched ρ id (checkInFunction scope span)
      (checkInFunction (scope.rename ρ.name) (ρ.place span)) := by
  unfold checkInFunction
  rw [show (scope.rename ρ.name).inFunction = scope.inFunction from rfl]
  split
  · exact .ok ()
  · exact .refuse .returnOutsideFunction span

/-- A target lies in the renamed variable, with the same access. -/
theorem checkAssignable_matched (target : Expr) (span : Span) :
    Matched ρ id (checkAssignable target span)
      (checkAssignable (target.rename ρ.name) (ρ.place span)) := by
  unfold checkAssignable
  rw [Expr.rootVar?_rename]
  cases target.rootVar? with
  | some v =>
    obtain ⟨id, name, access, ty⟩ := v
    cases access with
    | mutable => exact .ok ()
    | constant => exact .refuse (.constantReassigned name) span
    | readOnly => exact .refuse (.readOnly name) span
  | none =>
    cases target with
    | func f => exact .refuse (.readOnly f.name) span
    | _ => exact .error (.nameless (some span))

theorem checkBump_matched (target : Expr) (span : Span) :
    Matched ρ id (checkBump returns target span)
      (checkBump returns (target.rename ρ.name) (ρ.place span)) := by
  unfold checkBump
  rw [Expr.ty_rename]
  split
  · exact .ok ()
  · exact .refuse (.bumpNotNumeric _) span

theorem turnDirection_matched (step : Expr) (span : Span) :
    Matched ρ id (turnDirection step span)
      (turnDirection (step.rename ρ.name) (ρ.place span)) := by
  unfold turnDirection
  rw [Expr.literalSign?_rename]
  match step.literalSign? with
  | some .eq => exact .refuse .zeroStep span
  | some .lt | some .gt | none => exact .ok _

/-- A parameter is repeated exactly if the renamed one is, since renaming keeps names apart. -/
theorem checkParams_matched (params : List Source.Param) :
    Matched ρ id (checkParams params) (checkParams (params.map (Source.Param.reword ρ))) := by
  have hrepeated := firstRepeated_reword ρ [] params
  unfold checkParams
  rw [List.map_nil] at hrepeated
  rw [hrepeated]
  cases firstRepeated [] params with
  | some name => exact .refuse (.duplicateParameter name.name) name.span
  | none => exact .ok ()

/-- Which parameters lack a type does not depend on what they are called. -/
theorem untyped_reword (params : List Source.Param) :
    ((params.map (Source.Param.reword ρ)).filter (·.ty.isAny)).map (·.name.name) =
      ((params.filter (·.ty.isAny)).map (·.name.name)).map ρ.name := by
  rw [List.filter_map, List.map_map, List.map_map]
  rfl

/-- A function calls itself exactly if the renamed one does, and lacks the same ascriptions. -/
theorem checkRecursion_matched (f : Func) (body : List Stmt) (name : Ident)
    (params : List Source.Param) (paramsSpan : Span) (ascribed : Option Ascription) :
    Matched ρ id (checkRecursion f body name params paramsSpan ascribed)
      (checkRecursion (f.rename ρ.name) (Stmt.renameList ρ.name body) (name.reword ρ)
        (params.map (Source.Param.reword ρ)) (ρ.place paramsSpan) ascribed) := by
  unfold checkRecursion
  rw [callsItself_rename]
  split
  · cases ascribed with
    | none => exact .refuse (.recursionNeedsReturn name.name) name.span
    | some names =>
      simp only [checkAscribed, untyped_reword]
      cases (params.filter (·.ty.isAny)).map (·.name.name) with
      | nil => exact .ok ()
      | cons missing rest =>
        exact .refuse (.recursionNeedsParams name.name (missing :: rest)) paramsSpan
  · exact .ok ()

/-- Results are reconciled by types, and only the name of the function is told in other words. -/
theorem reconcile_matched (function : String) (ascribed : Option Ascription) (returned : List Ty)
    (span : Span) :
    Matched ρ id (reconcile function ascribed returned span)
      (reconcile (ρ.name function) ascribed returned (ρ.place span)) := by
  unfold reconcile
  cases ascribed with
  | none => exact .ok _
  | some names =>
    dsimp only
    cases returned.find? (fun found => !found.admittedBy names.members) with
    | some found => exact .refuse (.returnMismatch function names.members found) span
    | none => exact .ok _

end Rules

/-! ### Expressions -/

section Expressions

variable (ρ : Rewording) (strictness : Strictness) (returns : Returns) (scope : Scope)

mutual

/-- Lowering an expression in other words comes to the same end in other words. -/
theorem Source.Expr.lower_matched (e : Source.Expr) :
    Matched ρ (Expr.rename ρ.name) (e.lower ⟨strictness, returns, scope⟩)
      ((e.reword ρ).lower ⟨strictness, returns, scope.rename ρ.name⟩) := by
  match e with
  | .int _ _ | .float _ _ | .string _ _ | .bool _ _ => exact .ok _
  | .ident _ name =>
    rw [Source.Expr.reword, Source.Expr.lower, Source.Expr.lower,
      show (name.reword ρ).name = ρ.name name.name from rfl, Scope.lookup_rename]
    cases scope.lookup name.name with
    | some entity =>
      show Matched _ _ (.ok _) (.ok (Expr.ofEntity (entity.rename ρ.name)))
      rw [← Expr.rename_ofEntity]
      exact .ok _
    | none => exact .refuse (.undeclared name.name) name.span
  | .binary span op left right =>
    rw [Source.Expr.reword, Source.Expr.lower, Source.Expr.lower]
    refine (Source.Expr.lower_matched left).bind (fun left' => ?_)
    refine (Source.Expr.lower_matched right).bind (fun right' => ?_)
    exact (binaryTy_matched ρ returns strictness scope op left' right' span).bind (fun _ => .ok _)
  | .unary _ op operand =>
    rw [Source.Expr.reword, Source.Expr.lower, Source.Expr.lower]
    refine (Source.Expr.lower_matched operand).bind (fun operand' => ?_)
    rw [Expr.ty_rename]
    exact .ok _
  | .call span callee args =>
    rw [Source.Expr.reword, Source.Expr.lower, Source.Expr.lower, Source.Expr.spans_reword]
    refine (Source.Expr.lower_matched callee).bind (fun callee' => ?_)
    refine (Source.Expr.lowerList_matched args).bind (fun args' => ?_)
    exact callOn_matched ρ returns callee' args' (args.map Source.Expr.span) span
  | .subscript _ base index =>
    rw [Source.Expr.reword, Source.Expr.lower, Source.Expr.lower, Source.Expr.span_reword]
    refine (Source.Expr.lower_matched base).bind (fun base' => ?_)
    refine (checkSubscriptable_matched ρ returns base' base.span).bind (fun _ => ?_)
    refine (Source.Expr.lower_matched index).bind (fun index' => ?_)
    rw [← Expr.rename_subscriptOf]
    exact .ok _
  | .member _ base field =>
    rw [Source.Expr.reword, Source.Expr.lower, Source.Expr.lower]
    exact (Source.Expr.lower_matched base).bind (fun _ => .ok _)
  | .array _ items =>
    rw [Source.Expr.reword, Source.Expr.lower, Source.Expr.lower]
    refine (Source.Expr.lowerList_matched items).bind (fun items' => ?_)
    rw [← Expr.rename_arrayOf]
    exact .ok _
  | .object _ members =>
    rw [Source.Expr.reword, Source.Expr.lower, Source.Expr.lower]
    exact (Source.Expr.lowerMembers_matched members).bind (fun _ => .ok _)

theorem Source.Expr.lowerList_matched (es : List Source.Expr) :
    Matched ρ (Expr.renameList ρ.name) (Source.Expr.lowerList ⟨strictness, returns, scope⟩ es)
      (Source.Expr.lowerList ⟨strictness, returns, scope.rename ρ.name⟩
        (Source.Expr.rewordList ρ es)) := by
  match es with
  | [] => exact .ok _
  | e :: es =>
    rw [Source.Expr.rewordList, Source.Expr.lowerList, Source.Expr.lowerList]
    refine (Source.Expr.lower_matched e).bind (fun e' => ?_)
    exact (Source.Expr.lowerList_matched es).bind (fun _ => .ok _)

theorem Source.Expr.lowerMembers_matched (ms : List (String × Source.Expr)) :
    Matched ρ (Expr.renameMembers ρ.name)
      (Source.Expr.lowerMembers ⟨strictness, returns, scope⟩ ms)
      (Source.Expr.lowerMembers ⟨strictness, returns, scope.rename ρ.name⟩
        (Source.Expr.rewordMembers ρ ms)) := by
  match ms with
  | [] => exact .ok _
  | (key, e) :: ms =>
    rw [Source.Expr.rewordMembers, Source.Expr.lowerMembers, Source.Expr.lowerMembers]
    refine (Source.Expr.lower_matched e).bind (fun e' => ?_)
    exact (Source.Expr.lowerMembers_matched ms).bind (fun _ => .ok _)

end

theorem Source.Expr.lowerCondition_matched (e : Source.Expr) :
    Matched ρ (Expr.rename ρ.name) (e.lowerCondition ⟨strictness, returns, scope⟩)
      ((e.reword ρ).lowerCondition ⟨strictness, returns, scope.rename ρ.name⟩) := by
  unfold Source.Expr.lowerCondition
  rw [Source.Expr.span_reword]
  refine (e.lower_matched ρ strictness returns scope).bind (fun test => ?_)
  exact (checkBoolean_matched ρ returns test e.span).bind (fun _ => .ok _)

end Expressions

/-! ### Statements -/

/-- The same for steps. Both start from the same session, and they leave the same one behind. -/
def StepMatched (ρ : Rewording) {α : Type} (φ : α → α) (x y : Lowering α) : Prop :=
  ∀ s, Matched ρ (Prod.map φ id) (x.outcome s) (y.outcome s)

namespace StepMatched

variable {ρ : Rewording} {α β : Type} {φ : α → α} {ψ : β → β}

theorem pure (a : α) : StepMatched ρ φ (pure a) (pure (φ a)) := fun s => .ok (a, s)

/-- Steps that match one after the other. -/
theorem bind {x y : Lowering α} {f g : α → Lowering β} (h : StepMatched ρ φ x y)
    (hnext : ∀ a, StepMatched ρ ψ (f a) (g (φ a))) : StepMatched ρ ψ (x >>= f) (y >>= g) := by
  intro s
  rw [Lowering.outcome_bind, Lowering.outcome_bind]
  exact (h s).bind (fun (a, t) => hnext a t)

/-- Checks that match are steps that match. -/
theorem checked {x y : Except Fault α} (h : Matched ρ φ x y) :
    StepMatched ρ φ (Lowering.checked x) (Lowering.checked y) := by
  intro s
  rw [Lowering.outcome_checked, Lowering.outcome_checked]
  exact h.map (fun _ => rfl)

/-- What only reads matches if it does so for any results that are settled: they have no names. -/
theorem reading {strictness : Strictness} {scope : Scope} {f g : Setting → Except Fault α}
    (h : ∀ returns, Matched ρ φ (f ⟨strictness, returns, scope⟩)
      (g ⟨strictness, returns, scope.rename ρ.name⟩)) :
    StepMatched ρ φ (Lowering.reading strictness scope f)
      (Lowering.reading strictness (scope.rename ρ.name) g) := by
  intro s
  rw [Lowering.outcome_reading, Lowering.outcome_reading]
  exact (h s.returns).map (fun _ => rfl)

theorem settled : StepMatched ρ id Lowering.settled Lowering.settled := fun s => .ok (s.returns, s)

theorem reserve (count : Nat) :
    StepMatched ρ id (Lowering.reserve count) (Lowering.reserve count) :=
  fun s => .ok (s.nextId, { s with nextId := s.nextId + count })

theorem settle (number : Nat) (result : Ty) :
    StepMatched ρ id (Lowering.settle number result) (Lowering.settle number result) :=
  fun s => .ok ((), { s with returns := (number, result) :: s.returns })

end StepMatched

/-- A typed construct and the scope behind it, under other names. -/
def Renaming.within (r : Renaming) {α : Type} (φ : α → α) : α × Scope → α × Scope :=
  Prod.map φ (Scope.rename r.name)

section Statements

open StepMatched

variable (ρ : Rewording) (strictness : Strictness)

mutual

/-- Lowering a statement in other words comes to the same end in other words. Numbers are given out
alike, since nothing in the counter depends on names. -/
theorem Source.Stmt.lower_matched (scope : Scope) (s : Source.Stmt) :
    StepMatched ρ (ρ.within (Stmt.rename ρ.name)) (s.lower strictness scope)
      ((s.reword ρ).lower strictness (scope.rename ρ.name)) := by
  match s with
  | .declareVar _ constant name init =>
    rw [Source.Stmt.reword, Source.Stmt.lower, Source.Stmt.lower]
    refine (checked (checkUndeclared_matched ρ scope name)).bind (fun _ => ?_)
    refine (reading (init.lower_matched ρ strictness · scope)).bind (fun init' => ?_)
    refine settled.bind (fun returns => (reserve 1).bind (fun id => ?_))
    rw [Expr.ty_rename]
    exact .pure _
  | .declareFunc span name params paramsSpan ascribed body =>
    rw [Source.Stmt.reword, Source.Stmt.lower, Source.Stmt.lower, List.length_map]
    refine (checked (checkUndeclared_matched ρ scope name)).bind (fun _ => ?_)
    refine (checked (checkParams_matched ρ params)).bind (fun _ => ?_)
    refine (reserve _).bind (fun id => ?_)
    rw [paramVars_reword]
    -- The function and its parameters, as the body of the first run sees them.
    let vars := paramVars (id + 1) params
    let f : Func := ⟨id, name.name, .declared vars (ascribed.map Ascription.ty)⟩
    let inner := (scope.bind name.name (.func f)).pushFunction.bindAll vars
    have hbody := Source.Stmt.lowerList_matched inner body
    rw [Scope.rename_bindAll] at hbody
    refine hbody.bind (fun ⟨body', _⟩ => ?_)
    refine (checked (checkRecursion_matched ρ f body' name params paramsSpan ascribed)).bind
      (fun _ => ?_)
    refine settled.bind (fun returns => ?_)
    show StepMatched _ _ (Lowering.checked (reconcile _ _ (returnTypes returns body') _) >>= _)
      (Lowering.checked (reconcile _ _ (returnTypes returns (Stmt.renameList _ body')) _) >>= _)
    rw [returnTypes_rename]
    refine (checked (reconcile_matched ρ name.name ascribed _ span)).bind (fun result => ?_)
    exact (settle id result).bind (fun _ => .pure _)
  | .bump span op target =>
    rw [Source.Stmt.reword, Source.Stmt.lower, Source.Stmt.lower]
    refine (reading (target.lower_matched ρ strictness · scope)).bind (fun target' => ?_)
    refine settled.bind (fun returns => ?_)
    refine (checked (checkBump_matched ρ returns target' span)).bind (fun _ => ?_)
    exact (checked (checkAssignable_matched ρ target' span)).bind (fun _ => .pure _)
  | .assign span target source =>
    rw [Source.Stmt.reword, Source.Stmt.lower, Source.Stmt.lower]
    refine (reading (target.lower_matched ρ strictness · scope)).bind (fun target' => ?_)
    refine (checked (checkAssignable_matched ρ target' span)).bind (fun _ => ?_)
    exact (reading (source.lower_matched ρ strictness · scope)).bind (fun _ => .pure _)
  | .call _ value =>
    rw [Source.Stmt.reword, Source.Stmt.lower, Source.Stmt.lower]
    exact (reading (value.lower_matched ρ strictness · scope)).bind (fun _ => .pure _)
  | .breakLoop span =>
    rw [Source.Stmt.reword, Source.Stmt.lower, Source.Stmt.lower]
    exact (checked (checkInLoop_matched ρ scope span)).bind (fun _ => .pure _)
  | .returnValue span value =>
    rw [Source.Stmt.reword, Source.Stmt.lower, Source.Stmt.lower]
    refine (checked (checkInFunction_matched ρ scope span)).bind (fun _ => ?_)
    exact (reading (value.lower_matched ρ strictness · scope)).bind (fun _ => .pure _)
  | .returnNone span =>
    rw [Source.Stmt.reword, Source.Stmt.lower, Source.Stmt.lower]
    exact (checked (checkInFunction_matched ρ scope span)).bind (fun _ => .pure _)
  | .branch _ test body .nothing =>
    rw [Source.Stmt.reword, Source.Else.reword, Source.Stmt.lower, Source.Stmt.lower]
    refine (reading (test.lowerCondition_matched ρ strictness · scope)).bind (fun _ => ?_)
    exact (Source.Stmt.lowerList_matched scope body).bind (fun _ => .pure _)
  | .branch _ test body (.elseIf test₂ body₂ rest) =>
    simp only [Source.Stmt.reword, Source.Else.reword, Source.Stmt.lower]
    refine (reading (test.lowerCondition_matched ρ strictness · scope)).bind (fun _ => ?_)
    refine (Source.Stmt.lowerList_matched scope body).bind (fun ⟨_, scope'⟩ => ?_)
    exact (Source.Else.lower_matched scope' (.elseIf test₂ body₂ rest)).bind (fun _ => .pure _)
  | .branch _ test body (.block block) =>
    simp only [Source.Stmt.reword, Source.Else.reword, Source.Stmt.lower]
    refine (reading (test.lowerCondition_matched ρ strictness · scope)).bind (fun _ => ?_)
    refine (Source.Stmt.lowerList_matched scope body).bind (fun ⟨_, scope'⟩ => ?_)
    exact (Source.Else.lower_matched scope' (.block block)).bind (fun _ => .pure _)
  | .whileLoop _ test body =>
    rw [Source.Stmt.reword, Source.Stmt.lower, Source.Stmt.lower]
    refine (reading (test.lowerCondition_matched ρ strictness · scope)).bind (fun _ => ?_)
    exact (Source.Stmt.lowerList_matched scope.pushLoop body).bind (fun _ => .pure _)
  | .forEach _ iterator collection body =>
    rw [Source.Stmt.reword, Source.Stmt.lower, Source.Stmt.lower]
    refine (reading (collection.lower_matched ρ strictness · scope)).bind (fun collection' => ?_)
    refine settled.bind (fun returns => (reserve 1).bind (fun id => ?_))
    rw [Expr.ty_rename]
    exact (Source.Stmt.lowerList_matched (scope.pushLoop.bind iterator.name (.var _)) body).bind
      (fun _ => .pure _)
  | .forTurn _ iterator _ [low, high, step] body =>
    simp only [Source.Stmt.reword, Source.Expr.rewordList, Source.Stmt.lower,
      Source.Expr.span_reword]
    refine (reading (low.lower_matched ρ strictness · scope)).bind (fun low' => ?_)
    refine (reading (high.lower_matched ρ strictness · scope)).bind (fun high' => ?_)
    refine (reading (step.lower_matched ρ strictness · scope)).bind (fun step' => ?_)
    refine (checked (turnDirection_matched ρ step' step.span)).bind (fun direction => ?_)
    refine settled.bind (fun returns => (reserve 1).bind (fun id => ?_))
    rw [Expr.ty_rename, Expr.ty_rename]
    exact (Source.Stmt.lowerList_matched (scope.pushLoop.bind iterator.name (.var _)) body).bind
      (fun _ => .pure _)
  | .forTurn _ _ turnSpan [] _
  | .forTurn _ _ turnSpan [_] _
  | .forTurn _ _ turnSpan [_, _] _ =>
    simp only [Source.Stmt.reword, Source.Expr.rewordList, Source.Stmt.lower]
    exact checked (.refuse (.turnArity _) turnSpan)
  | .forTurn _ _ turnSpan (_ :: _ :: _ :: _ :: args) _ =>
    have hlength : (Source.Expr.rewordList ρ args).length = args.length := by
      simpa using congrArg List.length (Source.Expr.spans_reword ρ args)
    simp only [Source.Stmt.reword, Source.Expr.rewordList, Source.Stmt.lower, List.length_cons,
      hlength]
    exact checked (.refuse (.turnArity _) turnSpan)

theorem Source.Else.lower_matched (scope : Scope) (orElse : Source.Else) :
    StepMatched ρ (ρ.within (Else.rename ρ.name)) (orElse.lower strictness scope)
      ((orElse.reword ρ).lower strictness (scope.rename ρ.name)) := by
  match orElse with
  | .nothing =>
    rw [Source.Else.reword, Source.Else.lower, Source.Else.lower]
    exact .pure _
  | .elseIf test body rest =>
    rw [Source.Else.reword, Source.Else.lower, Source.Else.lower]
    refine (reading (test.lowerCondition_matched ρ strictness · scope)).bind (fun _ => ?_)
    refine (Source.Stmt.lowerList_matched scope body).bind (fun ⟨_, scope'⟩ => ?_)
    exact (Source.Else.lower_matched scope' rest).bind (fun _ => .pure _)
  | .block body =>
    rw [Source.Else.reword, Source.Else.lower, Source.Else.lower]
    exact (Source.Stmt.lowerList_matched scope body).bind (fun _ => .pure _)

theorem Source.Stmt.lowerList_matched (scope : Scope) (ss : List Source.Stmt) :
    StepMatched ρ (ρ.within (Stmt.renameList ρ.name)) (Source.Stmt.lowerList strictness scope ss)
      (Source.Stmt.lowerList strictness (scope.rename ρ.name) (Source.Stmt.rewordList ρ ss)) := by
  match ss with
  | [] =>
    rw [Source.Stmt.rewordList, Source.Stmt.lowerList, Source.Stmt.lowerList]
    exact .pure _
  | s :: ss =>
    rw [Source.Stmt.rewordList, Source.Stmt.lowerList, Source.Stmt.lowerList]
    refine (Source.Stmt.lower_matched scope s).bind (fun ⟨_, scope'⟩ => ?_)
    exact (Source.Stmt.lowerList_matched scope' ss).bind (fun _ => .pure _)

end

/-- Two runs over a whole program. -/
theorem Source.lower_matched (tree : List Source.Stmt) :
    Matched ρ (Program.rename ρ.name) (Source.lower strictness tree)
      (Source.lower strictness (Source.reword ρ tree)) := by
  have hruns := Source.Stmt.lowerList_matched ρ strictness .program tree .initial
  rw [Scope.rename_program] at hruns
  rw [Source.lower_eq_outcome, Source.lower_eq_outcome]
  exact hruns.map (fun _ => rfl)

end Statements

end Croupier
