import Croupier.Proofs.Coherence

/-!
# What being strict changes

A program is read leniently or strictly, and the two ways differ in one rule: strictly, the
operands of `and` and `or` have to be truth values. This module says that nothing else comes of it.
Being strict never makes a program mean something else, it only refuses some programs; which ones
can be seen from what the lenient way makes of them (`Truthful`).

The argument follows two runs over one program. As long as the strict run goes on, both are in the
same scope and in the same session, so whatever the one finds the other finds too; and the strict
run ends before the lenient one only with the complaint that an operand is no truth value
(`Restricts`). What remains is to say when it does so. The rule looks at types that were known when
the operands were read, whereas `Truthful` takes the settled types of the finished program. These
differ in functions only, and a function is no truth value either way.

> `Source.strict_restricts`: a program passes strictly exactly if it passes leniently and is
> truthful, and what does not pass leniently does not pass strictly, for the same reason or because
> of a truth value.
-/

namespace Croupier

/-! ### Truthful programs -/

/-- All operands of `and` and `or` may be truth values. -/
def Truthful (returns : Returns) (nodes : List Node) : Prop :=
  ∀ op left right ty, .expr (.binary (.operator op) left right ty) ∈ nodes → op.opClass = .logical →
    (left.ty returns).MayBeTruth ∧ (right.ty returns).MayBeTruth

namespace Truthful

variable {returns : Returns} {xs ys : List Node}

theorem of_subset (h : Truthful returns ys) (hsub : ∀ x ∈ xs, x ∈ ys) : Truthful returns xs :=
  fun op left right ty hmem => h op left right ty (hsub _ hmem)

theorem tail {x : Node} (h : Truthful returns (x :: xs)) : Truthful returns xs :=
  h.of_subset (fun _ hx => List.mem_cons_of_mem _ hx)

theorem left (h : Truthful returns (xs ++ ys)) : Truthful returns xs :=
  h.of_subset (fun _ hx => List.mem_append_left _ hx)

theorem right (h : Truthful returns (xs ++ ys)) : Truthful returns ys :=
  h.of_subset (fun _ hx => List.mem_append_right _ hx)

theorem nil : Truthful returns [] := by
  intro op left right ty hmem
  cases hmem

theorem append (hx : Truthful returns xs) (hy : Truthful returns ys) :
    Truthful returns (xs ++ ys) := by
  intro op left right ty hmem
  exact (List.mem_append.mp hmem).elim (hx op left right ty) (hy op left right ty)

/-- A statement by itself has no operands. -/
theorem stmt (s : Stmt) (h : Truthful returns xs) : Truthful returns (.stmt s :: xs) := by
  intro op left right ty hmem
  rcases List.mem_cons.mp hmem with heq | hmem
  · cases heq
  · exact h op left right ty hmem

/-- Neither has a function that is mentioned. -/
theorem func (f : Func) : Truthful returns (Expr.func f).nodes := by
  intro op left right ty hmem
  cases List.mem_singleton.mp hmem

end Truthful

/-- Whether an expression may be a truth value does not depend on any results of functions. -/
theorem Expr.mayBeTruth_ty {e : Expr} {R : Returns} (h : (e.ty R).MayBeTruth) (S : Returns) :
    (e.ty S).MayBeTruth := by
  cases e with
  | func f => rcases h with h | h <;> cases h
  | _ => exact h

/-! ### The rule -/

/-- What may be a truth value passes the check. -/
theorem checkBoolean_of_mayBeTruth {returns : Returns} {e : Expr} (h : (e.ty returns).MayBeTruth)
    (span : Span) : checkBoolean returns e span = .ok () := by
  unfold checkBoolean
  rcases h with h | h <;> rw [h] <;> rfl

section Rule

variable {returns : Returns} {scope : Scope} {op : BinaryOperator} {left right : Expr}
  {span : Span} {ty : Ty}

/-- Strictly, an operation has the type that it has leniently, provided that the operands of `and`
and `or` may be truth values. -/
theorem binaryTy_strict_eq_ok :
    binaryTy ⟨.strict, returns, scope⟩ op left right span = .ok ty ↔
      binaryTy ⟨.lenient, returns, scope⟩ op left right span = .ok ty ∧
        (op.opClass = .logical →
          (left.ty returns).MayBeTruth ∧ (right.ty returns).MayBeTruth) := by
  unfold binaryTy
  cases op.opClass with
  | arithmetic | comparison => simp
  | logical =>
    simp only [checkLogical, forall_const]
    constructor
    · intro h
      obtain ⟨_, hchecks, hty⟩ := bind_eq_ok_iff.mp h
      obtain ⟨_, hleft, hright⟩ := bind_eq_ok_iff.mp hchecks
      exact ⟨hty, checkBoolean_eq_ok hleft, checkBoolean_eq_ok hright⟩
    · rintro ⟨hty, hleft, hright⟩
      rw [checkBoolean_of_mayBeTruth hleft, checkBoolean_of_mayBeTruth hright]
      exact hty

end Rule

/-! ### Programs that pass -/

/-- What passes strictly is truthful. -/
theorem PhraseLowered.truthful {returns : Returns} {scope : Scope} {d : Source.Phrase} {d' : Phrase}
    (h : PhraseLowered ⟨.strict, returns, scope⟩ d d') (S : Returns) : Truthful S d'.nodes := by
  intro op left right ty hmem hop
  obtain ⟨e, e', heq, he⟩ := h.of_mem hmem
  generalize hd : Phrase.expr e' = d'' at he
  cases he with
  | binary _ _ hty =>
    cases heq
    cases hd
    obtain ⟨hleft, hright⟩ := (binaryTy_strict_eq_ok.mp hty).2 hop
    exact ⟨Expr.mayBeTruth_ty hleft S, Expr.mayBeTruth_ty hright S⟩
  | @ident _ _ entity => cases heq; cases entity <;> cases hd
  | @call _ _ _ f args' =>
    cases heq
    rcases Expr.callOf_cases returns f args' with
      ⟨i, x, _, _, hcall⟩ | ⟨i, x, y, _, _, hcall⟩ | hcall <;>
    · rw [hcall] at hd
      cases hd
  | @array _ _ items' => cases heq; cases items' <;> cases hd
  | int | float | string | bool | unary | subscript | member | object => cases heq; cases hd

/-- What passes leniently and is truthful passes strictly. -/
theorem PhraseLowered.strict {returns S : Returns} {scope : Scope} {d : Source.Phrase} {d' : Phrase}
    (h : PhraseLowered ⟨.lenient, returns, scope⟩ d d') (htruthful : Truthful S d'.nodes) :
    PhraseLowered ⟨.strict, returns, scope⟩ d d' := by
  induction h with
  | int span n => exact .int span n
  | float span x => exact .float span x
  | string span s => exact .string span s
  | bool span b => exact .bool span b
  | ident found => exact .ident found
  | binary _ _ hty ihleft ihright =>
    refine .binary (ihleft htruthful.tail.left) (ihright htruthful.tail.right) ?_
    refine binaryTy_strict_eq_ok.mpr ⟨hty, fun hop => ?_⟩
    obtain ⟨hleft, hright⟩ := htruthful _ _ _ _ (List.mem_cons_self ..) hop
    exact ⟨Expr.mayBeTruth_ty hleft returns, Expr.mayBeTruth_ty hright returns⟩
  | unary _ ih => exact .unary (ih htruthful.tail)
  | call _ _ harity hnumbers ihcallee ihargs =>
    refine .call (ihcallee (.func _)) (ihargs (htruthful.of_subset fun x hx => ?_)) harity hnumbers
    exact Expr.mem_nodes_callOf.mpr (Or.inr hx)
  | subscript _ hparts _ ihbase ihindex =>
    exact .subscript (ihbase htruthful.tail.left) hparts (ihindex htruthful.tail.right)
  | member _ ih => exact .member (ih htruthful.tail)
  | array _ ih =>
    refine .array (ih (htruthful.of_subset fun x hx => ?_))
    exact Expr.mem_nodes_arrayOf.mpr (Or.inr hx)
  | object _ ih => exact .object (ih htruthful.tail)
  | listNil => exact .listNil
  | listCons _ _ ihfirst ihrest => exact .listCons (ihfirst htruthful.left) (ihrest htruthful.right)
  | membersNil => exact .membersNil
  | membersCons _ _ ihfirst ihrest =>
    exact .membersCons (ihfirst htruthful.left) (ihrest htruthful.right)

/-- What is lowered strictly is truthful, whichever table of results the types are taken from. -/
theorem PassageLowered.truthful {scope scope' : Scope} {session session' : Session}
    {d : Source.Passage} {d' : Passage}
    (h : PassageLowered .strict scope session d d' scope' session') (S : Returns) :
    Truthful S d'.nodes := by
  induction h with
  | declareVar _ he | bump he _ _ | call he | returnValue _ he => exact (he.truthful S).stmt _
  | declareFunc _ _ _ _ _ _ _ ih => exact ih.stmt _
  | assign htarget _ hsource => exact ((htarget.truthful S).append (hsource.truthful S)).stmt _
  | breakLoop | returnNone => exact Truthful.nil.stmt _
  | shortBranch he _ _ ih | whileLoop he _ _ ih | forEach he _ _ ih =>
    exact ((he.truthful S).append ih).stmt _
  | branch htest _ _ _ _ ihbody ihelse | elseIf htest _ _ _ ihbody ihelse =>
    exact (((htest.truthful S).append ihbody).append ihelse).stmt _
  | forTurn hlow hhigh hstep _ _ _ ih =>
    have hargs := ((hlow.truthful S).append (hhigh.truthful S)).append (hstep.truthful S)
    exact (hargs.append ih).stmt _
  | nothing | nil => exact .nil
  | block _ ih => exact ih
  | cons _ _ ihfirst ihrest => exact ihfirst.append ihrest

/-- What is lowered leniently and is truthful is lowered strictly to the same. -/
theorem PassageLowered.strict {S : Returns} {scope scope' : Scope} {session session' : Session}
    {d : Source.Passage} {d' : Passage}
    (h : PassageLowered .lenient scope session d d' scope' session')
    (ht : Truthful S d'.nodes) :
    PassageLowered .strict scope session d d' scope' session' := by
  induction h with
  | declareVar hnew hinit hv => exact .declareVar hnew (hinit.strict ht.tail) hv
  | declareFunc hnew hparams hvars hf _ hrec hresult ih =>
    exact .declareFunc hnew hparams hvars hf (ih ht.tail) hrec hresult
  | bump htarget hnumber hplace => exact .bump (htarget.strict ht.tail) hnumber hplace
  | assign htarget hplace hsource =>
    exact .assign (htarget.strict ht.tail.left) hplace (hsource.strict ht.tail.right)
  | call hvalue => exact .call (hvalue.strict ht.tail)
  | breakLoop hloop => exact .breakLoop hloop
  | returnValue hfunction hvalue => exact .returnValue hfunction (hvalue.strict ht.tail)
  | returnNone hfunction => exact .returnNone hfunction
  | shortBranch htest htruth _ ih =>
    exact .shortBranch (htest.strict ht.tail.left) htruth (ih ht.tail.right)
  | branch htest htruth _ hmore _ ihbody ihelse =>
    exact .branch (htest.strict ht.tail.left.left) htruth (ihbody ht.tail.left.right) hmore
      (ihelse ht.tail.right)
  | whileLoop htest htruth _ ih =>
    exact .whileLoop (htest.strict ht.tail.left) htruth (ih ht.tail.right)
  | forEach hcollection hv _ ih =>
    exact .forEach (hcollection.strict ht.tail.left) hv (ih ht.tail.right)
  | forTurn hlow hhigh hstep hdirection hv _ ih =>
    have hargs := ht.tail.left
    exact .forTurn (hlow.strict hargs.left.left) (hhigh.strict hargs.left.right)
      (hstep.strict hargs.right) hdirection hv (ih ht.tail.right)
  | nothing => exact .nothing
  | elseIf htest htruth _ _ ihbody ihelse =>
    exact .elseIf (htest.strict ht.tail.left.left) htruth (ihbody ht.tail.left.right)
      (ihelse ht.tail.right)
  | block _ ih => exact .block (ih ht)
  | nil => exact .nil
  | cons _ _ ihfirst ihrest => exact .cons (ihfirst ht.left) (ihrest ht.right)

/-! ### Two runs side by side -/

/-- The strict outcome is the lenient one, or the complaint that something is no truth value. -/
def Restricts {α : Type} (lenient strict : Except Fault α) : Prop :=
  strict = lenient ∨ ∃ found span, strict = .error ⟨.notBoolean found, some span⟩

namespace Restricts

variable {α β : Type}

theorem refl (x : Except Fault α) : Restricts x x := Or.inl rfl

/-- The strict run goes on like the lenient one, or has complained already. -/
theorem bind {x y : Except Fault α} {f g : α → Except Fault β} (h : Restricts x y)
    (hnext : ∀ a, Restricts (f a) (g a)) : Restricts (x >>= f) (y >>= g) := by
  rcases h with rfl | ⟨found, span, rfl⟩
  · cases y with
    | error fault => exact .refl _
    | ok a => exact hnext a
  · exact Or.inr ⟨found, span, rfl⟩

/-- The same when results are changed. -/
theorem map {x y : Except Fault α} (h : Restricts x y) (f : α → β) :
    Restricts (x.map f) (y.map f) := by
  rcases h with rfl | ⟨found, span, rfl⟩
  · exact .refl _
  · exact Or.inr ⟨found, span, rfl⟩

/-- A check that wants a truth value, where the lenient run goes on without one. -/
theorem of_checkBoolean (returns : Returns) (e : Expr) (span : Span) :
    Restricts (.ok ()) (checkBoolean returns e span) := by
  unfold checkBoolean
  split
  · exact .refl _
  · exact Or.inr ⟨_, span, rfl⟩

end Restricts

/-- Strictness matters for the operands of `and` and `or` only. -/
theorem binaryTy_restricts (returns : Returns) (scope : Scope) (op : BinaryOperator)
    (left right : Expr) (span : Span) :
    Restricts (binaryTy ⟨.lenient, returns, scope⟩ op left right span)
      (binaryTy ⟨.strict, returns, scope⟩ op left right span) := by
  unfold binaryTy
  cases op.opClass with
  | arithmetic | comparison => exact .refl _
  | logical =>
    have hchecks : Restricts (.ok () >>= fun _ => .ok ()) _ :=
      (Restricts.of_checkBoolean returns left span).bind
        (fun _ => .of_checkBoolean returns right span)
    exact hchecks.bind (fun _ => .refl _)

section Expressions

variable (returns : Returns) (scope : Scope)

mutual

/-- Lowering an expression strictly does what lowering it leniently does, or complains. -/
theorem Source.Expr.lower_restricts (e : Source.Expr) :
    Restricts (e.lower ⟨.lenient, returns, scope⟩) (e.lower ⟨.strict, returns, scope⟩) := by
  match e with
  | .int _ _ | .float _ _ | .string _ _ | .bool _ _ => exact .refl _
  | .ident _ name =>
    rw [Source.Expr.lower, Source.Expr.lower]
    exact .refl _
  | .binary span op left right =>
    rw [Source.Expr.lower, Source.Expr.lower]
    refine (Source.Expr.lower_restricts left).bind (fun left' => ?_)
    refine (Source.Expr.lower_restricts right).bind (fun right' => ?_)
    exact (binaryTy_restricts returns scope op left' right' span).bind (fun _ => .refl _)
  | .unary _ _ operand =>
    rw [Source.Expr.lower, Source.Expr.lower]
    exact (Source.Expr.lower_restricts operand).bind (fun _ => .refl _)
  | .call span callee args =>
    rw [Source.Expr.lower, Source.Expr.lower]
    refine (Source.Expr.lower_restricts callee).bind (fun callee' => ?_)
    exact (Source.Expr.lowerList_restricts args).bind (fun _ => .refl _)
  | .subscript _ base index =>
    rw [Source.Expr.lower, Source.Expr.lower]
    refine (Source.Expr.lower_restricts base).bind (fun base' => ?_)
    refine (Restricts.refl _).bind (fun _ => ?_)
    exact (Source.Expr.lower_restricts index).bind (fun _ => .refl _)
  | .member _ base field =>
    rw [Source.Expr.lower, Source.Expr.lower]
    exact (Source.Expr.lower_restricts base).bind (fun _ => .refl _)
  | .array _ items =>
    rw [Source.Expr.lower, Source.Expr.lower]
    exact (Source.Expr.lowerList_restricts items).bind (fun _ => .refl _)
  | .object _ members =>
    rw [Source.Expr.lower, Source.Expr.lower]
    exact (Source.Expr.lowerMembers_restricts members).bind (fun _ => .refl _)

theorem Source.Expr.lowerList_restricts (es : List Source.Expr) :
    Restricts (Source.Expr.lowerList ⟨.lenient, returns, scope⟩ es)
      (Source.Expr.lowerList ⟨.strict, returns, scope⟩ es) := by
  match es with
  | [] => exact .refl _
  | e :: es =>
    rw [Source.Expr.lowerList, Source.Expr.lowerList]
    refine (Source.Expr.lower_restricts e).bind (fun e' => ?_)
    exact (Source.Expr.lowerList_restricts es).bind (fun _ => .refl _)

theorem Source.Expr.lowerMembers_restricts (ms : List (String × Source.Expr)) :
    Restricts (Source.Expr.lowerMembers ⟨.lenient, returns, scope⟩ ms)
      (Source.Expr.lowerMembers ⟨.strict, returns, scope⟩ ms) := by
  match ms with
  | [] => exact .refl _
  | (key, e) :: ms =>
    rw [Source.Expr.lowerMembers, Source.Expr.lowerMembers]
    refine (Source.Expr.lower_restricts e).bind (fun e' => ?_)
    exact (Source.Expr.lowerMembers_restricts ms).bind (fun _ => .refl _)

end

theorem Source.Expr.lowerCondition_restricts (e : Source.Expr) :
    Restricts (e.lowerCondition ⟨.lenient, returns, scope⟩)
      (e.lowerCondition ⟨.strict, returns, scope⟩) :=
  (e.lower_restricts returns scope).bind (fun _ => .refl _)

end Expressions

/-- The same for steps, whatever session they start from. -/
def StepRestricts {α : Type} (lenient strict : Lowering α) : Prop :=
  ∀ s, Restricts (lenient.outcome s) (strict.outcome s)

namespace StepRestricts

variable {α β : Type}

theorem refl (x : Lowering α) : StepRestricts x x := fun _ => .refl _

/-- Steps that restrict each other one after the other. -/
theorem bind {x y : Lowering α} {f g : α → Lowering β} (h : StepRestricts x y)
    (hnext : ∀ a, StepRestricts (f a) (g a)) : StepRestricts (x >>= f) (y >>= g) := by
  intro s
  rw [Lowering.outcome_bind, Lowering.outcome_bind]
  exact (h s).bind (fun (a, t) => hnext a t)

/-- What only reads restricts as a step if it does so for any results that are settled. -/
theorem reading {scope : Scope} {f : Setting → Except Fault α}
    (h : ∀ returns, Restricts (f ⟨.lenient, returns, scope⟩) (f ⟨.strict, returns, scope⟩)) :
    StepRestricts (Lowering.reading .lenient scope f) (Lowering.reading .strict scope f) := by
  intro s
  rw [Lowering.outcome_reading, Lowering.outcome_reading]
  exact (h s.returns).map _

end StepRestricts

open StepRestricts (refl reading) in
mutual

/-- Lowering a statement strictly does what lowering it leniently does, or complains. -/
theorem Source.Stmt.lower_restricts (scope : Scope) (s : Source.Stmt) :
    StepRestricts (s.lower .lenient scope) (s.lower .strict scope) := by
  match s with
  | .declareVar _ constant name init =>
    rw [Source.Stmt.lower, Source.Stmt.lower]
    refine (refl _).bind (fun _ => ?_)
    exact (reading (init.lower_restricts · scope)).bind (fun _ => refl _)
  | .declareFunc span name params paramsSpan ascribed body =>
    rw [Source.Stmt.lower, Source.Stmt.lower]
    refine (refl _).bind (fun _ => (refl _).bind (fun _ => (refl _).bind (fun id => ?_)))
    exact (Source.Stmt.lowerList_restricts _ body).bind (fun _ => refl _)
  | .bump span op target =>
    rw [Source.Stmt.lower, Source.Stmt.lower]
    exact (reading (target.lower_restricts · scope)).bind (fun _ => refl _)
  | .assign span target source =>
    rw [Source.Stmt.lower, Source.Stmt.lower]
    refine (reading (target.lower_restricts · scope)).bind (fun _ => (refl _).bind (fun _ => ?_))
    exact (reading (source.lower_restricts · scope)).bind (fun _ => refl _)
  | .call _ value =>
    rw [Source.Stmt.lower, Source.Stmt.lower]
    exact (reading (value.lower_restricts · scope)).bind (fun _ => refl _)
  | .breakLoop span | .returnNone span =>
    rw [Source.Stmt.lower, Source.Stmt.lower]
    exact refl _
  | .returnValue span value =>
    rw [Source.Stmt.lower, Source.Stmt.lower]
    refine (refl _).bind (fun _ => ?_)
    exact (reading (value.lower_restricts · scope)).bind (fun _ => refl _)
  | .branch _ test body .nothing =>
    rw [Source.Stmt.lower, Source.Stmt.lower]
    refine (reading (test.lowerCondition_restricts · scope)).bind (fun _ => ?_)
    exact (Source.Stmt.lowerList_restricts scope body).bind (fun _ => refl _)
  | .branch _ test body (.elseIf test₂ body₂ rest) =>
    simp only [Source.Stmt.lower]
    refine (reading (test.lowerCondition_restricts · scope)).bind (fun _ => ?_)
    refine (Source.Stmt.lowerList_restricts scope body).bind (fun ⟨_, scope'⟩ => ?_)
    exact (Source.Else.lower_restricts scope' (.elseIf test₂ body₂ rest)).bind (fun _ => refl _)
  | .branch _ test body (.block block) =>
    simp only [Source.Stmt.lower]
    refine (reading (test.lowerCondition_restricts · scope)).bind (fun _ => ?_)
    refine (Source.Stmt.lowerList_restricts scope body).bind (fun ⟨_, scope'⟩ => ?_)
    exact (Source.Else.lower_restricts scope' (.block block)).bind (fun _ => refl _)
  | .whileLoop _ test body =>
    rw [Source.Stmt.lower, Source.Stmt.lower]
    refine (reading (test.lowerCondition_restricts · scope)).bind (fun _ => ?_)
    exact (Source.Stmt.lowerList_restricts _ body).bind (fun _ => refl _)
  | .forEach _ iterator collection body =>
    rw [Source.Stmt.lower, Source.Stmt.lower]
    refine (reading (collection.lower_restricts · scope)).bind (fun _ => ?_)
    refine (refl _).bind (fun _ => (refl _).bind (fun id => ?_))
    exact (Source.Stmt.lowerList_restricts _ body).bind (fun _ => refl _)
  | .forTurn _ iterator _ [low, high, step] body =>
    rw [Source.Stmt.lower, Source.Stmt.lower]
    refine (reading (low.lower_restricts · scope)).bind (fun _ => ?_)
    refine (reading (high.lower_restricts · scope)).bind (fun _ => ?_)
    refine (reading (step.lower_restricts · scope)).bind (fun _ => ?_)
    refine (refl _).bind (fun _ => (refl _).bind (fun _ => (refl _).bind (fun id => ?_)))
    exact (Source.Stmt.lowerList_restricts _ body).bind (fun _ => refl _)
  | .forTurn _ _ turnSpan [] _
  | .forTurn _ _ turnSpan [_] _
  | .forTurn _ _ turnSpan [_, _] _
  | .forTurn _ _ turnSpan (_ :: _ :: _ :: _ :: _) _ =>
    simp only [Source.Stmt.lower]
    exact refl _

theorem Source.Else.lower_restricts (scope : Scope) (orElse : Source.Else) :
    StepRestricts (orElse.lower .lenient scope) (orElse.lower .strict scope) := by
  match orElse with
  | .nothing =>
    rw [Source.Else.lower, Source.Else.lower]
    exact refl _
  | .elseIf test body rest =>
    rw [Source.Else.lower, Source.Else.lower]
    refine (reading (test.lowerCondition_restricts · scope)).bind (fun _ => ?_)
    refine (Source.Stmt.lowerList_restricts scope body).bind (fun ⟨_, scope'⟩ => ?_)
    exact (Source.Else.lower_restricts scope' rest).bind (fun _ => refl _)
  | .block body =>
    rw [Source.Else.lower, Source.Else.lower]
    exact (Source.Stmt.lowerList_restricts scope body).bind (fun _ => refl _)

theorem Source.Stmt.lowerList_restricts (scope : Scope) (ss : List Source.Stmt) :
    StepRestricts (Source.Stmt.lowerList .lenient scope ss)
      (Source.Stmt.lowerList .strict scope ss) := by
  match ss with
  | [] =>
    rw [Source.Stmt.lowerList, Source.Stmt.lowerList]
    exact refl _
  | s :: ss =>
    rw [Source.Stmt.lowerList, Source.Stmt.lowerList]
    refine (Source.Stmt.lower_restricts scope s).bind (fun ⟨_, scope'⟩ => ?_)
    exact (Source.Stmt.lowerList_restricts scope' ss).bind (fun _ => refl _)

end

/-- Two runs over a whole program. -/
theorem Source.lower_restricts (tree : List Source.Stmt) :
    Restricts (Source.lower .lenient tree) (Source.lower .strict tree) := by
  rw [Source.lower_eq_outcome, Source.lower_eq_outcome]
  exact (Source.Stmt.lowerList_restricts .program tree .initial).map _

/-! ### Whole programs -/

/-- Being strict only restricts. A program is typed strictly as it is typed leniently, provided that
all operands of `and` and `or` may be truth values, and not at all otherwise. If it cannot be typed
leniently, it is refused strictly as well, with the same fault or because of a truth value. -/
theorem Source.strict_restricts (tree : List Source.Stmt) :
    (∀ p, Source.lower .strict tree = .ok p ↔
      Source.lower .lenient tree = .ok p ∧ Truthful p.returns p.nodes) ∧
    (∀ fault, Source.lower .lenient tree = .error fault →
      Source.lower .strict tree = .error fault ∨
        ∃ found span, Source.lower .strict tree = .error ⟨.notBoolean found, span⟩) := by
  have hruns := Source.lower_restricts tree
  refine ⟨fun p => ⟨fun hstrict => ?_, fun ⟨hlenient, htruthful⟩ => ?_⟩, fun fault hlenient => ?_⟩
  · obtain ⟨last, session, hlowered, _⟩ := passageLowered_of_program hstrict
    refine ⟨?_, hlowered.truthful p.returns⟩
    rcases hruns with heq | ⟨found, span, hrefused⟩
    · rw [← heq, hstrict]
    · rw [hstrict] at hrefused
      cases hrefused
  · obtain ⟨last, session, hlowered, hreturns⟩ := passageLowered_of_program hlenient
    rw [(hlowered.strict htruthful).program_given, ← hreturns]
  · rcases hruns with heq | ⟨found, span, hrefused⟩
    · exact Or.inl (heq.trans hlenient)
    · exact Or.inr ⟨found, some span, hrefused⟩

namespace Parity

open Source (label mention number declare)

def call (arg : Source.Expr) : Source.Expr := .call .none (mention "odd") [arg]

/-- `deal odd(n) { return n == 1 }  hand x = odd(3) and odd(true)`. -/
def source : List Source.Stmt :=
  [.declareFunc .none (label "odd") [⟨label "n", none⟩] .none none
      [.returnValue .none (.binary .none .equal (mention "n") (number 1))],
    declare "x" (.binary .none .and (call (number 3)) (call (.bool .none true)))]

def n : Var := ⟨15, "n", .readOnly, .any⟩

def odd : Func := ⟨14, "odd", .declared [n] none⟩

def x : Var := ⟨16, "x", .mutable, .boolean⟩

def typed : Program :=
  ⟨[.declareFunc odd
      [.returnValue (.binary (.operator .equal) (.var n) (.int 1) .boolean)],
    .declareVar x (.binary (.operator .and) (.call odd [.int 3] .boolean)
      (.call odd [.bool true] .boolean) .boolean)], [(14, .boolean)]⟩

/-- The same with `hand y = x or odd  hand z = w` behind it. -/
def doubtful : List Source.Stmt :=
  source ++ [declare "y" (.binary ⟨7, 8⟩ .or (mention "x") (mention "odd")),
    declare "z" (mention "w")]

/-- The result of the function is a truth value, once it is settled, and the function is none. So
the second program is refused leniently for its last statement and strictly for the one before. -/
theorem strict_restricts_parity : Truthful typed.returns typed.nodes ∧
    Source.lower .lenient doubtful = .error ⟨.undeclared "w", some .none⟩ ∧
    (Source.lower .strict doubtful = .error ⟨.undeclared "w", some .none⟩ ∨
      ∃ found span, Source.lower .strict doubtful = .error ⟨.notBoolean found, span⟩) :=
  have hpasses : Source.lower .strict source = .ok typed := rfl
  have hfails : Source.lower .lenient doubtful = .error ⟨.undeclared "w", some .none⟩ := rfl
  ⟨(((Source.strict_restricts source).1 typed).mp hpasses).2, hfails,
    (Source.strict_restricts doubtful).2 _ hfails⟩

end Parity

end Croupier
