import Croupier.Proofs.Lowered
import Croupier.Proofs.Members

/-!
# Types that belong together

A typed expression keeps the type that was computed for it. Whether it is the right one is a
question about the expression and its direct parts, and `Node.Coherent` asks it for every kind of
node: the type of a sum is what its operands' types promote to, a subscript has the element type
of its base, a test is a truth value, and so on.

The types of the parts are taken from a table of settled results, because a function that is
mentioned has whatever type the table gives it. So coherence depends on the table, but on little
of it: on the results of the functions that the node `Uses`, which are those that are among its
parts and the one that it calls.

> `PhraseLowered.coherent`: lowering an expression produces nodes that are coherent with the
> results settled at that moment.
>
> `Node.Coherent.of_returnTy`: a node stays coherent when the table changes, as long as the
> results of the functions it uses do not.
-/

namespace Croupier

/-! ### Coherence -/

namespace Ty

/-- What arithmetic and comparisons take: two types that are the same, an `int` and a `float`, or
anything and `any`. -/
def Fits (s t : Ty) : Prop :=
  (s == t) = true ∨ (s = int ∧ t = float) ∨ (s = float ∧ t = int) ∨ s = any ∨ t = any

/-- The types of what can stand where a truth value is needed. -/
def MayBeTruth (t : Ty) : Prop := t = boolean ∨ t = any

/-- The types of what can stand where a number is needed. -/
def MayBeNumber (t : Ty) : Prop := t = int ∨ t = float ∨ t = any

end Ty

/-- Operands of arithmetic and of comparisons: neither is a function by itself, and their types
go together. -/
def Expr.FitsWith (returns : Returns) (left right : Expr) : Prop :=
  left.isFunc = false ∧ right.isFunc = false ∧ (left.ty returns).Fits (right.ty returns)

/-- The type of an operation on fitting operands. -/
def BinaryOperator.Coherent (op : BinaryOperator) (returns : Returns) (left right : Expr)
    (ty : Ty) : Prop :=
  match op.opClass with
  | .arithmetic => left.FitsWith returns right ∧
      ty = ((left.ty returns).promote (right.ty returns)).getD .any
  | .comparison => left.FitsWith returns right ∧ ty = .boolean
  | .logical => ty = .boolean

/-- The operation that an intrinsic amounts to: as many operands as it has parameters, numbers
where it wants numbers, and the type that it gives. -/
def Intrinsic.Coherent (i : Intrinsic) (returns : Returns) (operands : List Expr) (ty : Ty) :
    Prop :=
  i.signature.params.length = operands.length ∧ ty = i.signature.returns ∧
    (i.wantsNumbers = true → ∀ e ∈ operands, (e.ty returns).MayBeNumber)

/-- An expression has the type that belongs to it, given the types of its parts. -/
def Expr.Coherent (returns : Returns) : Expr → Prop
  | .binary (.operator op) left right ty => op.Coherent returns left right ty
  | .binary (.intrinsic i) left right ty => i.Coherent returns [left, right] ty
  | .unary (.operator _) operand ty => ty = operand.ty returns
  | .unary (.intrinsic i) operand ty => i.Coherent returns [operand] ty
  | .subscript base _ ty =>
    (base.ty returns ≠ .int ∧ base.ty returns ≠ .float ∧ base.ty returns ≠ .boolean) ∧
      ty = (base.ty returns).element
  | .array items ty => ∃ first rest, items = first :: rest ∧ ty = .array (first.ty returns)
  | .emptyArray element => element = .any
  | .member _ _ ty => ty = .any
  | .call callee args ty =>
    (callee.isVariadic = true ∨ args.length = callee.arity) ∧ ty = callee.returnTy returns
  | .int _ | .float _ | .string _ | .bool _ | .var _ | .func _ | .object _ => True

/-- A statement takes expressions of the types it can work on, and declares variables of the
types of what they will hold. A function whose body calls it has its result ascribed. -/
def Stmt.Coherent (returns : Returns) : Stmt → Prop
  | .declareVar v init => v.ty = init.ty returns
  | .declareFunc f body => callsItself f body = true → f.ascribed ≠ none
  | .bump _ target => (target.ty returns).MayBeNumber
  | .branch test _ _ | .shortBranch test _ | .whileLoop test _ => (test.ty returns).MayBeTruth
  | .forEach iterator collection _ => iterator.ty = (collection.ty returns).element
  | .forTurn iterator low high _ _ _ => iterator.ty = turnTy (low.ty returns) (high.ty returns)
  | .assign _ _ | .call _ | .breakLoop | .returnValue _ | .returnNone => True

/-- A node has the type that belongs to it. -/
def Node.Coherent (returns : Returns) : Node → Prop
  | .expr e => e.Coherent returns
  | .stmt s => s.Coherent returns

/-! ### What coherence depends on -/

/-- The functions whose results matter to a node: those among its parts, and the one it calls. -/
def Node.Uses (x : Node) (f : Func) : Prop :=
  .func f ∈ x.children ∨ ∃ args ty, x = .expr (.call f args ty)

/-- The type of a function depends on the settled results only through its own. -/
theorem Func.ty_eq_of_returnTy {f : Func} {R S : Returns} (h : f.returnTy R = f.returnTy S) :
    f.ty R = f.ty S := by
  unfold Func.returnTy at h
  unfold Func.ty Func.signature Signature.ty at *
  split at h <;> simp_all

/-- Only the type of a function by itself depends on the settled results. -/
theorem Expr.ty_eq_of_func {e : Expr} {R S : Returns}
    (h : ∀ f, e = .func f → f.returnTy R = f.returnTy S) : e.ty R = e.ty S := by
  cases e with
  | func f => exact Func.ty_eq_of_returnTy (h f rfl)
  | _ => rfl

/-- Coherence looks at the types of the parts and at the result of the callee. -/
theorem Node.coherent_congr {x : Node} {R S : Returns}
    (hparts : ∀ e ∈ x.children, e.ty R = e.ty S)
    (hcallee : ∀ f args ty, x = .expr (.call f args ty) → f.returnTy R = f.returnTy S) :
    x.Coherent R ↔ x.Coherent S := by
  cases x with
  | expr e =>
    cases e with
    | int | float | string | bool | var | func | emptyArray | object | member => exact Iff.rfl
    | array items ty =>
      cases items with
      | nil => simp [Coherent, Expr.Coherent]
      | cons first rest =>
        have hfirst := hparts first (by simp [children])
        simp [Coherent, Expr.Coherent, hfirst]
    | binary head left right ty =>
      have hleft := hparts left (by simp [children])
      have hright := hparts right (by simp [children])
      cases head with
      | operator op =>
        simp only [Coherent, Expr.Coherent, BinaryOperator.Coherent, Expr.FitsWith, hleft, hright]
      | intrinsic i =>
        simp [Coherent, Expr.Coherent, Intrinsic.Coherent, hleft, hright]
    | unary head operand ty =>
      have hoperand := hparts operand (by simp [children])
      cases head with
      | operator op => simp [Coherent, Expr.Coherent, hoperand]
      | intrinsic i => simp [Coherent, Expr.Coherent, Intrinsic.Coherent, hoperand]
    | subscript base index ty =>
      have hbase := hparts base (by simp [children])
      simp only [Coherent, Expr.Coherent, hbase]
    | call f args ty =>
      have hresult := hcallee f args ty rfl
      simp only [Coherent, Expr.Coherent, hresult]
  | stmt s =>
    cases s with
    | declareFunc | assign | call | breakLoop | returnValue | returnNone => exact Iff.rfl
    | declareVar v e | bump op e | branch e _ _ | shortBranch e _ | whileLoop e _
    | forEach v e _ =>
      have he := hparts e (by simp [children])
      simp only [Coherent, Stmt.Coherent, he]
    | forTurn v low high step direction body =>
      have hlow := hparts low (by simp [children])
      have hhigh := hparts high (by simp [children])
      simp only [Coherent, Stmt.Coherent, hlow, hhigh]

/-- A node stays coherent when the table changes, as long as the results of the functions it uses
do not. -/
theorem Node.Coherent.of_returnTy {x : Node} {R S : Returns} (h : x.Coherent R)
    (hsame : ∀ f, x.Uses f → f.returnTy R = f.returnTy S) : x.Coherent S := by
  refine (Node.coherent_congr (fun e he => ?_) ?_).mp h
  · refine Expr.ty_eq_of_func (fun f hf => ?_)
    subst hf
    exact hsame f (Or.inl he)
  · intro f args ty hx
    exact hsame f (Or.inr ⟨args, ty, hx⟩)

/-! ### What a scope holds -/

/-- What a name is found to be is bound to it in some frame, and no frame further inside has the
name. -/
theorem Frame.firstOf_eq_some {frames : List Frame} {name : String} {x : Entity}
    (h : Frame.firstOf name frames = some x) :
    ∃ (k : Nat) (frame : Frame), frames[k]? = some frame ∧ (name, x) ∈ frame.bindings ∧
      ∀ (j : Nat) (inner : Frame), j < k → frames[j]? = some inner → inner.get? name = none := by
  induction frames with
  | nil => cases h
  | cons frame frames ih =>
    rw [Frame.firstOf, Option.or_eq_some_iff] at h
    rcases h with hhere | ⟨hnone, hlater⟩
    · obtain ⟨l₁, l₂, hsplit, _⟩ := List.lookup_eq_some_iff.mp hhere
      exact ⟨0, frame, rfl, by simp [hsplit], by simp⟩
    · obtain ⟨k, outer, hk, hmem, hinner⟩ := ih hlater
      refine ⟨k + 1, outer, by simpa using hk, hmem, fun j inner hj hjth => ?_⟩
      cases j with
      | zero =>
        obtain rfl : frame = inner := by simpa using hjth
        exact hnone
      | succ j => exact hinner j inner (by omega) (by simpa using hjth)

/-- A name that is not found is bound in none of the frames. -/
theorem Frame.firstOf_eq_none {frames : List Frame} {name : String}
    (h : Frame.firstOf name frames = none) :
    ∀ frame ∈ frames, frame.get? name = none := by
  induction frames with
  | nil => simp
  | cons frame frames ih =>
    rw [Frame.firstOf, Option.or_eq_none_iff] at h
    intro inner hinner
    rcases List.mem_cons.mp hinner with rfl | hinner
    · exact h.1
    · exact ih h.2 inner hinner

namespace Scope

/-- An entity is bound in some frame of a scope, under whatever name and hidden or not. -/
def Holds (scope : Scope) (entity : Entity) : Prop :=
  ∃ frame ∈ scope.current :: scope.outer, ∃ name, (name, entity) ∈ frame.bindings

/-- What a name stands for is held. -/
theorem holds_of_lookup {scope : Scope} {name : String} {entity : Entity}
    (h : scope.lookup name = some entity) : scope.Holds entity := by
  obtain ⟨k, frame, hk, hbound, _⟩ := Frame.firstOf_eq_some h
  exact ⟨frame, List.mem_of_getElem? hk, name, hbound⟩

/-- Binding a name adds what it is bound to, and takes nothing away. -/
theorem holds_bind {scope : Scope} {name : String} {bound entity : Entity} :
    (scope.bind name bound).Holds entity ↔ entity = bound ∨ scope.Holds entity := by
  constructor
  · rintro ⟨frame, hmem, other, hbound⟩
    rcases List.mem_cons.mp hmem with rfl | hmem
    · rcases List.mem_cons.mp hbound with heq | hbound
      · exact Or.inl (Prod.mk.inj heq).2
      · exact Or.inr ⟨scope.current, List.mem_cons_self, other, hbound⟩
    · exact Or.inr ⟨frame, List.mem_cons_of_mem _ hmem, other, hbound⟩
  · rintro (rfl | ⟨frame, hmem, other, hbound⟩)
    · exact ⟨_, List.mem_cons_self, name, List.mem_cons_self⟩
    · rcases List.mem_cons.mp hmem with rfl | hmem
      · exact ⟨_, List.mem_cons_self, other, List.mem_cons_of_mem _ hbound⟩
      · exact ⟨frame, List.mem_cons_of_mem _ hmem, other, hbound⟩

/-- Entering a loop adds nothing. -/
theorem holds_pushLoop {scope : Scope} {entity : Entity} :
    scope.pushLoop.Holds entity ↔ scope.Holds entity := by
  simp [Holds, pushLoop]

/-- Entering a function adds nothing. -/
theorem holds_pushFunction {scope : Scope} {entity : Entity} :
    scope.pushFunction.Holds entity ↔ scope.Holds entity := by
  simp [Holds, pushFunction]

/-- Binding parameters adds these. -/
theorem holds_bindAll {scope : Scope} {vars : List Var} {entity : Entity} :
    (scope.bindAll vars).Holds entity ↔ (∃ v ∈ vars, entity = .var v) ∨ scope.Holds entity := by
  induction vars generalizing scope with
  | nil => simp [bindAll]
  | cons v vs ih =>
    show ((scope.bind v.name (.var v)).bindAll vs).Holds entity ↔ _
    rw [ih, holds_bind]
    simp [or_assoc, or_left_comm]

/-- Binding parameters adds no function. -/
theorem holds_bindAll_func {scope : Scope} {vars : List Var} {f : Func} :
    (scope.bindAll vars).Holds (.func f) ↔ scope.Holds (.func f) := by
  simp [holds_bindAll]

end Scope

/-- The function of the library behind an intrinsic. -/
def Intrinsic.func (i : Intrinsic) : Func :=
  Library.intrinsic i (Library.constants.length + Intrinsic.all.idxOf i)

/-- A function that is taken for an intrinsic is the library's. -/
def Func.Genuine (f : Func) : Prop := ∀ i, f.intrinsic? = some i → f = i.func

/-- A declared function is never taken for an intrinsic, whatever it is called. -/
theorem Func.genuine_declared {id : Nat} {name : String} {params : List Var}
    {ascribed : Option Ty} : Func.Genuine ⟨id, name, .declared params ascribed⟩ := by
  intro i hi
  exact absurd hi (by simp [Func.intrinsic?, Func.isIntrinsic])

/-- What the library calls an intrinsic is the intrinsic. -/
theorem Library.genuine {name : String} {f : Func} (h : (name, .func f) ∈ Library.bindings) :
    f.Genuine := by
  intro i hi
  simp only [Library.bindings, List.mem_append, List.mem_map, Prod.mk.injEq, Entity.func.injEq,
    List.mem_singleton, reduceCtorEq, and_false, exists_false, false_or] at h
  rcases h with ⟨⟨j, id⟩, hmem, _, rfl⟩ | ⟨_, rfl⟩
  · have hij : Intrinsic.ofSpelling? j.spelling = some i := hi
    rw [Intrinsic.ofSpelling?_spelling, Option.some.injEq] at hij
    have hids : ∀ q ∈ Intrinsic.all.zipIdx Library.constants.length,
        q.2 = Library.constants.length + Intrinsic.all.idxOf q.1 := by decide
    have hid : id = Library.constants.length + Intrinsic.all.idxOf j := hids (j, id) hmem
    rw [← hij, hid]
    rfl
  · have hnone : Library.raise.intrinsic? = none := by decide
    rw [hnone] at hi
    cases hi

/-- In the scope of a program there is nothing but the library. -/
theorem Scope.program_holds {entity : Entity} (h : Scope.program.Holds entity) :
    ∃ name, (name, entity) ∈ Library.bindings := by
  simpa [Scope.Holds, Scope.program, Scope.root, Scope.push] using h

/-! ### What the checks establish -/

section Checks

variable {returns : Returns}

/-- What the check takes for a number may be one. -/
theorem Ty.mayBeNumber_of {t : Ty} (h : t.mayBeNumeric = true) : t.MayBeNumber := by
  unfold Ty.MayBeNumber
  rcases Bool.or_eq_true_iff.mp h with hnum | hany
  · cases t with
    | prim p => cases p <;> simp_all [Ty.isNumeric, Prim.isNumeric]
    | _ => simp [Ty.isNumeric] at hnum
  · exact Or.inr (Or.inr (Ty.isAny_iff.mp hany))

/-- What passes the check for truth values may be one. -/
theorem checkBoolean_eq_ok {e : Expr} {span : Span} (h : checkBoolean returns e span = .ok ()) :
    (e.ty returns).MayBeTruth := by
  unfold checkBoolean at h
  split at h
  next hfits =>
    unfold Ty.compatible at hfits
    rw [Bool.or_eq_true_iff, Bool.or_eq_true_iff] at hfits
    rcases hfits with (hany | hno) | hsame
    · exact Or.inr (Ty.isAny_iff.mp hany)
    · exact absurd hno (by simp [Ty.isAny])
    · exact Or.inl (Ty.eq_prim_of_same hsame)
  next => exact absurd h (by simp [refuse])

/-- Types that are compatible or promoted to a common one fit. -/
theorem Ty.fits_of {s t : Ty} (h : (s.compatible t || (s.promote t).isSome) = true) :
    s.Fits t := by
  unfold Ty.compatible Ty.promote at h
  unfold Ty.Fits
  simp only [Bool.or_eq_true_iff, Ty.isAny_iff] at h
  rcases h with ((hs | ht) | hsame) | hpromoted
  · simp [hs]
  · simp [ht]
  · simp [hsame]
  · split at hpromoted
    next hsame => simp [hsame]
    next =>
      split at hpromoted <;> simp_all

/-- Operands that pass the check fit. -/
theorem checkOperands_eq_ok {left right : Expr} {span : Span}
    (h : checkOperands returns left right span = .ok ()) : left.FitsWith returns right := by
  simp only [checkOperands] at h
  split at h
  next => exact absurd h (by simp [refuse])
  next hfunc =>
    split at h
    next hfits =>
      rw [Bool.not_eq_true, Bool.or_eq_false_iff] at hfunc
      exact ⟨hfunc.1, hfunc.2, Ty.fits_of hfits⟩
    next => exact absurd h (by simp [refuse])

/-- An operation that gets a type is coherent. Only a logical one does not ask its operands to
fit. -/
theorem binaryTy_eq_ok {setting : Setting} {op : BinaryOperator} {left right : Expr} {span : Span}
    {ty : Ty} (h : binaryTy setting op left right span = .ok ty) :
    op.Coherent setting.returns left right ty := by
  unfold binaryTy at h
  unfold BinaryOperator.Coherent
  cases hclass : op.opClass with
  | arithmetic =>
    rw [hclass] at h
    obtain ⟨_, hcheck, hty⟩ := bind_eq_ok_iff.mp h
    cases hty
    exact ⟨checkOperands_eq_ok hcheck, rfl⟩
  | comparison =>
    rw [hclass] at h
    obtain ⟨_, hcheck, hty⟩ := bind_eq_ok_iff.mp h
    cases hty
    exact ⟨checkOperands_eq_ok hcheck, rfl⟩
  | logical =>
    rw [hclass] at h
    obtain ⟨_, _, hty⟩ := bind_eq_ok_iff.mp h
    cases hty
    rfl

/-- What passes the check for subscripts is neither a number nor a truth value. -/
theorem checkSubscriptable_eq_ok {base : Expr} {span : Span}
    (h : checkSubscriptable returns base span = .ok ()) :
    base.ty returns ≠ .int ∧ base.ty returns ≠ .float ∧ base.ty returns ≠ .boolean := by
  unfold checkSubscriptable at h
  split at h
  next => exact absurd h (by simp [refuse])
  next hparts =>
    refine ⟨?_, ?_, ?_⟩ <;>
    · intro hty
      rw [hty] at hparts
      exact hparts rfl

/-- A call that passes the check has as many arguments as the function takes, unless it takes any
number of them. -/
theorem checkArity_eq_ok {f : Func} {actual : Nat} {span : Span}
    (h : checkArity f actual span = .ok ()) : f.isVariadic = true ∨ actual = f.arity := by
  unfold checkArity at h
  split at h
  next hcount => simpa using hcount
  next => exact absurd h (by simp [refuse])

/-- If no argument is reported, all of them may be numbers. Each of them needs a place, since the
arguments are looked at in pairs with their places. -/
theorem firstNonNumeric_eq_none {es : List Expr} {places : List Span}
    (hlen : es.length ≤ places.length) (h : firstNonNumeric returns (es.zip places) = none) :
    ∀ e ∈ es, (e.ty returns).MayBeNumber := by
  induction es generalizing places with
  | nil => simp
  | cons e es ih =>
    cases places with
    | nil => simp at hlen
    | cons place places =>
      rw [List.zip_cons_cons, firstNonNumeric] at h
      split at h
      next hnum =>
        have hrest := ih (by simpa using hlen) h
        intro e' he'
        rcases List.mem_cons.mp he' with rfl | he'
        · exact Ty.mayBeNumber_of hnum
        · exact hrest e' he'
      next => cases h

/-- An intrinsic that wants numbers is called with arguments that may be numbers. -/
theorem checkArguments_eq_ok {f : Func} {i : Intrinsic} {args : List Expr} {places : List Span}
    (hlen : args.length ≤ places.length) (hi : f.intrinsic? = some i)
    (h : checkArguments returns f args places = .ok ()) (hnum : i.wantsNumbers = true) :
    ∀ e ∈ args, (e.ty returns).MayBeNumber := by
  unfold checkArguments at h
  simp only [hi, hnum, if_true] at h
  split at h
  next => exact absurd h (by simp [refuse])
  next hnone => exact firstNonNumeric_eq_none hlen hnone

/-- What passes the check for bumps may be a number. -/
theorem checkBump_eq_ok {target : Expr} {span : Span}
    (h : checkBump returns target span = .ok ()) : (target.ty returns).MayBeNumber := by
  unfold checkBump at h
  split at h
  next hnum => exact Ty.mayBeNumber_of hnum
  next => exact absurd h (by simp [refuse])

end Checks

/-! ### Lowered expressions are coherent -/

/-- The three forms that a call can take. -/
theorem Expr.callOf_cases (returns : Returns) (f : Func) (args : List Expr) :
    (∃ i x, f.intrinsic? = some i ∧ args = [x] ∧
      Expr.callOf returns f args = .unary (.intrinsic i) x (f.returnTy returns)) ∨
    (∃ i x y, f.intrinsic? = some i ∧ args = [x, y] ∧
      Expr.callOf returns f args = .binary (.intrinsic i) x y (f.returnTy returns)) ∨
    Expr.callOf returns f args = .call f args (f.returnTy returns) := by
  unfold Expr.callOf
  split
  next i x hi => exact Or.inl ⟨i, x, hi, rfl, rfl⟩
  next i x y hi => exact Or.inr (Or.inl ⟨i, x, y, hi, rfl, rfl⟩)
  next => exact Or.inr (Or.inr rfl)

/-- A call has itself and the nodes of its arguments, whichever form it takes. -/
theorem Expr.mem_nodes_callOf {returns : Returns} {f : Func} {args : List Expr} {x : Node} :
    x ∈ (Expr.callOf returns f args).nodes ↔
      x = .expr (Expr.callOf returns f args) ∨ x ∈ Expr.nodesList args := by
  rcases Expr.callOf_cases returns f args with
    ⟨i, a, _, rfl, hcall⟩ | ⟨i, a, b, _, rfl, hcall⟩ | hcall
  · rw [hcall]
    simp [Expr.nodes, Expr.nodesList]
  · rw [hcall]
    simp [Expr.nodes, Expr.nodesList]
  · rw [hcall]
    simp [Expr.nodes]

/-- An array has itself and the nodes of its items, also if there are none. -/
theorem Expr.mem_nodes_arrayOf {returns : Returns} {items : List Expr} {x : Node} :
    x ∈ (Expr.arrayOf returns items).nodes ↔
      x = .expr (Expr.arrayOf returns items) ∨ x ∈ Expr.nodesList items := by
  cases items <;> simp [Expr.arrayOf, Expr.nodes, Expr.nodesList]

/-- Lists keep their length. -/
theorem PhraseLowered.length_eq {setting : Setting} {d : Source.Phrase} {d' : Phrase}
    (h : PhraseLowered setting d d') {es : List Source.Expr} {es' : List Expr}
    (hd : d = .list es) (hd' : d' = .list es') : es.length = es'.length := by
  induction h generalizing es es' with
  | listNil => cases hd; cases hd'; rfl
  | listCons hfirst hrest ihfirst ihrest =>
    cases hd
    cases hd'
    rw [List.length_cons, List.length_cons, ihrest rfl rfl]
  | _ => cases hd

/-- Every node of a lowered expression was itself lowered from an expression, in the same
setting. -/
theorem PhraseLowered.of_mem {setting : Setting} {d : Source.Phrase} {d' : Phrase}
    (h : PhraseLowered setting d d') {x : Node} (hx : x ∈ d'.nodes) :
    ∃ e e', x = .expr e' ∧ PhraseLowered setting (.expr e) (.expr e') := by
  -- The node is what the last rule made, or it lies in one of the parts.
  induction h with
  | int span n => exact ⟨_, _, List.mem_singleton.mp hx, .int span n⟩
  | float span y => exact ⟨_, _, List.mem_singleton.mp hx, .float span y⟩
  | string span s => exact ⟨_, _, List.mem_singleton.mp hx, .string span s⟩
  | bool span b => exact ⟨_, _, List.mem_singleton.mp hx, .bool span b⟩
  | @ident span name entity found =>
    refine ⟨.ident span name, Expr.ofEntity entity, ?_, .ident found⟩
    cases entity <;> exact List.mem_singleton.mp hx
  | binary hleft hright hty ihleft ihright =>
    rcases List.mem_cons.mp hx with rfl | hx
    · exact ⟨_, _, rfl, .binary hleft hright hty⟩
    · exact (List.mem_append.mp hx).elim ihleft ihright
  | @unary span op operand operand' hoperand ih =>
    rcases List.mem_cons.mp hx with rfl | hx
    · exact ⟨.unary span op operand, _, rfl, .unary hoperand⟩
    · exact ih hx
  | call hcallee hargs harity hnumbers _ ihargs =>
    rcases Expr.mem_nodes_callOf.mp hx with rfl | hx
    · exact ⟨_, _, rfl, .call hcallee hargs harity hnumbers⟩
    · exact ihargs hx
  | @subscript span base index _ _ hbase hparts hindex ihbase ihindex =>
    rcases List.mem_cons.mp hx with rfl | hx
    · exact ⟨.subscript span base index, _, rfl, .subscript hbase hparts hindex⟩
    · exact (List.mem_append.mp hx).elim ihbase ihindex
  | @member span base field _ hbase ih =>
    rcases List.mem_cons.mp hx with rfl | hx
    · exact ⟨.member span base field, _, rfl, .member hbase⟩
    · exact ih hx
  | @array span items _ hitems ih =>
    rcases Expr.mem_nodes_arrayOf.mp hx with rfl | hx
    · exact ⟨.array span items, _, rfl, .array hitems⟩
    · exact ih hx
  | @object span ms _ hmembers ih =>
    rcases List.mem_cons.mp hx with rfl | hx
    · exact ⟨.object span ms, _, rfl, .object hmembers⟩
    · exact ih hx
  | listNil | membersNil => cases hx
  | listCons _ _ ihfirst ihrest | membersCons _ _ ihfirst ihrest =>
    exact (List.mem_append.mp hx).elim ihfirst ihrest

/-- A function by itself comes from a name, so the scope holds it. -/
theorem PhraseLowered.func_held {setting : Setting} {d : Source.Phrase} {f : Func}
    (h : PhraseLowered setting d (.expr (.func f))) : setting.scope.Holds (.func f) := by
  generalize hd : Phrase.expr (.func f) = d' at h
  cases h with
  | @ident span name entity found =>
    cases entity with
    | var v => cases hd
    | func g =>
      cases hd
      exact Scope.holds_of_lookup found
  | @call span callee args g args' =>
    rcases Expr.callOf_cases setting.returns g args' with
      ⟨i, x, _, _, hcall⟩ | ⟨i, x, y, _, _, hcall⟩ | hcall <;>
    · rw [hcall] at hd
      cases hd
  | @array span items items' => cases items' <;> cases hd
  | _ => cases hd

/-- So is the callee of a call. -/
theorem PhraseLowered.callee_held {setting : Setting} {d : Source.Phrase} {f : Func}
    {args : List Expr} {ty : Ty} (h : PhraseLowered setting d (.expr (.call f args ty))) :
    setting.scope.Holds (.func f) := by
  generalize hd : Phrase.expr (.call f args ty) = d' at h
  cases h with
  | @ident span name entity found => cases entity <;> cases hd
  | @call span callee args g args' hcallee =>
    rcases Expr.callOf_cases setting.returns g args' with
      ⟨i, x, _, _, hcall⟩ | ⟨i, x, y, _, _, hcall⟩ | hcall <;>
    rw [hcall] at hd <;>
    cases hd
    exact hcallee.func_held
  | @array span items items' => cases items' <;> cases hd
  | _ => cases hd

/-- A call has the type that belongs to it, in each of its forms. -/
theorem Expr.callOf_coherent {returns : Returns} {f : Func} {args : List Expr}
    {places : List Span} {span : Span} (hf : f.Genuine) (hlen : args.length ≤ places.length)
    (harity : checkArity f args.length span = .ok ())
    (hnumbers : checkArguments returns f args places = .ok ()) :
    (Expr.callOf returns f args).Coherent returns := by
  have hcount := checkArity_eq_ok harity
  -- An intrinsic is not variadic, so it was called with all its parameters.
  have hop : ∀ i, f.intrinsic? = some i → i.Coherent returns args (f.returnTy returns) := by
    intro i hi
    have horigin : f.origin = .intrinsic i.signature := by
      rw [hf i hi]
      rfl
    simp only [Func.isVariadic, Func.arity, horigin, Bool.false_eq_true, false_or] at hcount
    refine ⟨hcount.symm, ?_, checkArguments_eq_ok hlen hi hnumbers⟩
    simp [Func.returnTy, Func.signature, horigin]
  rcases Expr.callOf_cases returns f args with
    ⟨i, x, hi, rfl, hcall⟩ | ⟨i, x, y, hi, rfl, hcall⟩ | hcall
  · rw [hcall]
    exact hop i hi
  · rw [hcall]
    exact hop i hi
  · rw [hcall]
    exact ⟨hcount, rfl⟩

/-- Lowering an expression produces nodes that are coherent with the results settled at that
moment. -/
theorem PhraseLowered.coherent {setting : Setting} {d : Source.Phrase} {d' : Phrase}
    (hgenuine : ∀ f, setting.scope.Holds (.func f) → f.Genuine)
    (h : PhraseLowered setting d d') : ∀ x ∈ d'.nodes, x.Coherent setting.returns := by
  intro x hx
  obtain ⟨e, e', rfl, he⟩ := h.of_mem hx
  cases he with
  | int | float | string | bool | object => trivial
  | @ident span name entity => cases entity <;> trivial
  | binary _ _ hty => exact binaryTy_eq_ok hty
  | unary | member => rfl
  | call hcallee hargs harity hnumbers =>
    have hlen := hargs.length_eq rfl rfl
    exact Expr.callOf_coherent (hgenuine _ hcallee.func_held) (by simp [hlen]) harity hnumbers
  | subscript _ hparts => exact ⟨checkSubscriptable_eq_ok hparts, rfl⟩
  | @array span items items' =>
    cases items' with
    | nil => rfl
    | cons first rest => exact ⟨first, rest, rfl, rfl⟩

end Croupier
