import Croupier.Lowering.Stmt

/-!
# Other words for the same program

The author of a program chooses its names and lays out its text. This module says what it is to
choose others. A `Renaming` changes names: it keeps different names different, and it leaves alone
those that the language itself gives, which are the names of the library and of the truth values.
A `Rewording` changes places as well, in any way at all.

Everything in which names occur has a form under other names: source trees (`Source.reword`),
entities, scopes and typed programs (`Program.rename`). Only the names change. Entities keep their
numbers, so two occurrences denote the same entity after the change exactly if they did before, and
they keep their types. Keys and fields of objects are no names.

The lemmas here say how the parts that lowering is made of behave under other names: a look-up
finds what it found before, an intrinsic is still taken for one, and a type is still the same.
-/

namespace Croupier

/-- A change of names that neither makes different names equal nor touches those that the language
gives. -/
structure Renaming where
  name : String → String
  injective : Function.Injective name
  library : ∀ binding ∈ Library.bindings, name binding.1 = binding.1
  truth : name "true" = "true"
  falsity : name "false" = "false"

/-- A change of names and places. -/
structure Rewording extends Renaming where
  place : Span → Span

namespace Renaming

/-- Nothing else takes a name that stays. -/
theorem eq_of_fixed (r : Renaming) {n m : String} (hfixed : r.name m = m) :
    r.name n = m ↔ n = m :=
  ⟨fun h => r.injective (h.trans hfixed.symm), fun h => h ▸ hfixed⟩

/-- The renaming that changes nothing. -/
def identity : Renaming := ⟨id, fun _ _ h => h, fun _ _ => rfl, rfl, rfl⟩

end Renaming

/-! ### Source trees -/

def Ident.reword (ρ : Rewording) (name : Ident) : Ident := ⟨ρ.name name.name, ρ.place name.span⟩

namespace Source

def Param.reword (ρ : Rewording) (p : Param) : Param := ⟨p.name.reword ρ, p.ascribed⟩

mutual

/-- An expression in other words. -/
def Expr.reword (ρ : Rewording) : Expr → Expr
  | .int span n => .int (ρ.place span) n
  | .float span x => .float (ρ.place span) x
  | .string span s => .string (ρ.place span) s
  | .bool span b => .bool (ρ.place span) b
  | .ident span name => .ident (ρ.place span) (name.reword ρ)
  | .binary span op left right => .binary (ρ.place span) op (left.reword ρ) (right.reword ρ)
  | .unary span op operand => .unary (ρ.place span) op (operand.reword ρ)
  | .call span callee args => .call (ρ.place span) (callee.reword ρ) (Expr.rewordList ρ args)
  | .subscript span base index => .subscript (ρ.place span) (base.reword ρ) (index.reword ρ)
  | .member span base field => .member (ρ.place span) (base.reword ρ) field
  | .array span items => .array (ρ.place span) (Expr.rewordList ρ items)
  | .object span members => .object (ρ.place span) (Expr.rewordMembers ρ members)

def Expr.rewordList (ρ : Rewording) : List Expr → List Expr
  | [] => []
  | e :: es => e.reword ρ :: Expr.rewordList ρ es

def Expr.rewordMembers (ρ : Rewording) : List (String × Expr) → List (String × Expr)
  | [] => []
  | (key, e) :: members => (key, e.reword ρ) :: Expr.rewordMembers ρ members

end

mutual

/-- A statement in other words. -/
def Stmt.reword (ρ : Rewording) : Stmt → Stmt
  | .declareVar span constant name init =>
    .declareVar (ρ.place span) constant (name.reword ρ) (init.reword ρ)
  | .declareFunc span name params paramsSpan ascribed body =>
    .declareFunc (ρ.place span) (name.reword ρ) (params.map (Param.reword ρ)) (ρ.place paramsSpan)
      ascribed (Stmt.rewordList ρ body)
  | .bump span op target => .bump (ρ.place span) op (target.reword ρ)
  | .assign span target source => .assign (ρ.place span) (target.reword ρ) (source.reword ρ)
  | .call span value => .call (ρ.place span) (value.reword ρ)
  | .breakLoop span => .breakLoop (ρ.place span)
  | .returnValue span value => .returnValue (ρ.place span) (value.reword ρ)
  | .returnNone span => .returnNone (ρ.place span)
  | .branch span test body orElse =>
    .branch (ρ.place span) (test.reword ρ) (Stmt.rewordList ρ body) (orElse.reword ρ)
  | .whileLoop span test body => .whileLoop (ρ.place span) (test.reword ρ) (Stmt.rewordList ρ body)
  | .forEach span iterator collection body =>
    .forEach (ρ.place span) (iterator.reword ρ) (collection.reword ρ) (Stmt.rewordList ρ body)
  | .forTurn span iterator turnSpan args body =>
    .forTurn (ρ.place span) (iterator.reword ρ) (ρ.place turnSpan) (Expr.rewordList ρ args)
      (Stmt.rewordList ρ body)

/-- Arms in other words. -/
def Else.reword (ρ : Rewording) : Else → Else
  | .nothing => .nothing
  | .elseIf test body orElse =>
    .elseIf (test.reword ρ) (Stmt.rewordList ρ body) (orElse.reword ρ)
  | .block body => .block (Stmt.rewordList ρ body)

def Stmt.rewordList (ρ : Rewording) : List Stmt → List Stmt
  | [] => []
  | s :: ss => s.reword ρ :: Stmt.rewordList ρ ss

end

/-- A program in other words. -/
def reword (ρ : Rewording) (tree : List Source.Stmt) : List Source.Stmt := Stmt.rewordList ρ tree

theorem Expr.span_reword (ρ : Rewording) (e : Expr) : (e.reword ρ).span = ρ.place e.span := by
  cases e <;> rfl

/-- Places are changed one by one. -/
theorem Expr.spans_reword (ρ : Rewording) (es : List Expr) :
    (Expr.rewordList ρ es).map Expr.span = (es.map Expr.span).map ρ.place := by
  induction es with
  | nil => rfl
  | cons e es ih =>
    rw [Expr.rewordList, List.map_cons, List.map_cons, List.map_cons, ih, Expr.span_reword]

end Source

/-! ### Entities and scopes -/

section Rename

variable (r : String → String)

def Var.rename (v : Var) : Var := { v with name := r v.name }

def Func.Origin.rename : Func.Origin → Func.Origin
  | .declared params ascribed => .declared (params.map (Var.rename r)) ascribed
  | .intrinsic signature => .intrinsic signature
  | .variadic result => .variadic result

def Func.rename (f : Func) : Func := ⟨f.id, r f.name, f.origin.rename r⟩

def Entity.rename : Entity → Entity
  | .var v => .var (v.rename r)
  | .func f => .func (f.rename r)

def Frame.rename (frame : Frame) : Frame :=
  { frame with bindings := frame.bindings.map (fun b => (r b.1, b.2.rename r)) }

def Scope.rename (scope : Scope) : Scope :=
  ⟨scope.current.rename r, scope.outer.map (Frame.rename r)⟩

/-! ### Typed programs -/

mutual

/-- A typed expression under other names. -/
def Expr.rename : Expr → Expr
  | .int n => .int n
  | .float x => .float x
  | .string s => .string s
  | .bool b => .bool b
  | .var v => .var (v.rename r)
  | .func f => .func (f.rename r)
  | .array items ty => .array (Expr.renameList items) ty
  | .emptyArray element => .emptyArray element
  | .object members => .object (Expr.renameMembers members)
  | .binary head left right ty => .binary head (Expr.rename left) (Expr.rename right) ty
  | .unary head operand ty => .unary head (Expr.rename operand) ty
  | .subscript base index ty => .subscript (Expr.rename base) (Expr.rename index) ty
  | .member base field ty => .member (Expr.rename base) field ty
  | .call callee args ty => .call (callee.rename r) (Expr.renameList args) ty

def Expr.renameList : List Expr → List Expr
  | [] => []
  | e :: es => Expr.rename e :: Expr.renameList es

def Expr.renameMembers : List (String × Expr) → List (String × Expr)
  | [] => []
  | (key, e) :: members => (key, Expr.rename e) :: Expr.renameMembers members

end

mutual

/-- A typed statement under other names. -/
def Stmt.rename : Stmt → Stmt
  | .declareVar v init => .declareVar (v.rename r) (init.rename r)
  | .declareFunc f body => .declareFunc (f.rename r) (Stmt.renameList body)
  | .assign target source => .assign (target.rename r) (source.rename r)
  | .bump op target => .bump op (target.rename r)
  | .call value => .call (value.rename r)
  | .breakLoop => .breakLoop
  | .returnValue value => .returnValue (value.rename r)
  | .returnNone => .returnNone
  | .branch test body orElse => .branch (test.rename r) (Stmt.renameList body) (Else.rename orElse)
  | .shortBranch test body => .shortBranch (test.rename r) (Stmt.renameList body)
  | .whileLoop test body => .whileLoop (test.rename r) (Stmt.renameList body)
  | .forEach iterator collection body =>
    .forEach (iterator.rename r) (collection.rename r) (Stmt.renameList body)
  | .forTurn iterator low high step direction body =>
    .forTurn (iterator.rename r) (low.rename r) (high.rename r) (step.rename r) direction
      (Stmt.renameList body)

/-- Typed arms under other names. -/
def Else.rename : Else → Else
  | .elseIf test body orElse => .elseIf (test.rename r) (Stmt.renameList body) (Else.rename orElse)
  | .block body => .block (Stmt.renameList body)

def Stmt.renameList : List Stmt → List Stmt
  | [] => []
  | s :: ss => Stmt.rename s :: Stmt.renameList ss

end

/-- A typed program under other names. -/
def Program.rename (p : Program) : Program := ⟨Stmt.renameList r p.body, p.returns⟩

/-! ### What does not depend on names -/

/-- Renaming a function does not change what it takes and gives. -/
theorem Func.signature_rename (returns : Returns) (f : Func) :
    (f.rename r).signature returns = f.signature returns := by
  obtain ⟨id, name, origin⟩ := f
  cases origin with
  | declared params ascribed =>
    simp only [Func.signature, Func.rename, Func.Origin.rename, List.map_map]
    rfl
  | intrinsic | variadic => rfl

theorem Func.arity_rename (f : Func) : (f.rename r).arity = f.arity := by
  obtain ⟨id, name, origin⟩ := f
  cases origin with
  | declared params ascribed => exact List.length_map ..
  | intrinsic | variadic => rfl

theorem Func.isVariadic_rename (f : Func) : (f.rename r).isVariadic = f.isVariadic := by
  obtain ⟨id, name, origin⟩ := f
  cases origin <;> rfl

theorem Func.isIntrinsic_rename (f : Func) : (f.rename r).isIntrinsic = f.isIntrinsic := by
  obtain ⟨id, name, origin⟩ := f
  cases origin <;> rfl

namespace Expr

/-- Types have no names, so renaming does not change them. -/
theorem ty_rename (returns : Returns) (e : Expr) : (e.rename r).ty returns = e.ty returns := by
  cases e with
  | func f => exact congrArg Signature.ty (f.signature_rename r returns)
  | _ => rfl

theorem isFunc_rename (e : Expr) : (e.rename r).isFunc = e.isFunc := by
  cases e <;> rfl

/-- Renaming does not change the sign of a literal. -/
theorem literalSign?_rename : ∀ e : Expr, (e.rename r).literalSign? = e.literalSign?
  | .unary (.operator .negate) operand _ =>
    congrArg (Option.map Ordering.swap) (literalSign?_rename operand)
  | .unary (.operator .not) _ _ | .unary (.intrinsic _) _ _ => rfl
  | .int _ | .float _ | .string _ | .bool _ | .var _ | .func _ | .array _ _ | .emptyArray _
  | .object _ | .binary _ _ _ _ | .subscript _ _ _ | .member _ _ _ | .call _ _ _ => rfl

/-- A target lies in the same variable, under its other name. -/
theorem rootVar?_rename : ∀ e : Expr, (e.rename r).rootVar? = e.rootVar?.map (Var.rename r)
  | .subscript base _ _ | .member base _ _ => rootVar?_rename base
  | .int _ | .float _ | .string _ | .bool _ | .var _ | .func _ | .array _ _ | .emptyArray _
  | .object _ | .binary _ _ _ _ | .unary _ _ _ | .call _ _ _ => rfl

theorem renameList_eq_map (es : List Expr) : renameList r es = es.map (rename r) := by
  induction es with
  | nil => rfl
  | cons e es ih => rw [renameList, ih, List.map_cons]

theorem rename_ofEntity (x : Entity) : (ofEntity x).rename r = ofEntity (x.rename r) := by
  cases x <;> rfl

theorem rename_arrayOf (returns : Returns) (items : List Expr) :
    (arrayOf returns items).rename r = arrayOf returns (renameList r items) := by
  cases items with
  | nil => rfl
  | cons item items => rw [arrayOf, rename, renameList, arrayOf, ty_rename]

theorem rename_subscriptOf (returns : Returns) (base index : Expr) :
    (subscriptOf returns base index).rename r =
      subscriptOf returns (base.rename r) (index.rename r) := by
  rw [subscriptOf, rename, subscriptOf, ty_rename]

end Expr

end Rename

/-! ### Intrinsics and the library -/

namespace Renaming

variable (r : Renaming)

/-- A renaming does not touch intrinsics. -/
theorem name_spelling (i : Intrinsic) : r.name i.spelling = i.spelling := by
  have hmem : i.spelling ∈ Library.bindings.map Prod.fst := by cases i <;> decide
  obtain ⟨binding, hbinding, hname⟩ := List.mem_map.mp hmem
  rw [← hname]
  exact r.library binding hbinding

/-- A name is taken for that of an intrinsic exactly if it was before. -/
theorem ofSpelling?_name (n : String) :
    Intrinsic.ofSpelling? (r.name n) = Intrinsic.ofSpelling? n := by
  unfold Intrinsic.ofSpelling?
  congr 1
  funext i
  have hsame := r.eq_of_fixed (n := n) (r.name_spelling i)
  rw [Bool.eq_iff_iff, beq_iff_eq, beq_iff_eq, eq_comm, hsame, eq_comm]

/-- A function is taken for an intrinsic exactly if it was before. -/
theorem intrinsic?_rename (f : Func) : (f.rename r.name).intrinsic? = f.intrinsic? := by
  rw [Func.intrinsic?, Func.intrinsic?, Func.isIntrinsic_rename]
  exact congrArg (fun found => if f.isIntrinsic then found else none) (r.ofSpelling?_name f.name)

/-- A renamed call is the call of the renamed function. -/
theorem rename_callOf (returns : Returns) (f : Func) (args : List Expr) :
    (Expr.callOf returns f args).rename r.name =
      Expr.callOf returns (f.rename r.name) (Expr.renameList r.name args) := by
  have hty : (f.rename r.name).returnTy returns = f.returnTy returns :=
    congrArg Signature.returns (f.signature_rename r.name returns)
  unfold Expr.callOf
  rw [r.intrinsic?_rename, hty]
  cases f.intrinsic? with
  | none => rfl
  | some i =>
    match args with
    | [] | [_] | [_, _] | _ :: _ :: _ :: _ => rfl

/-- The library stays as it is, entities included. -/
theorem rename_binding {binding : String × Entity} (h : binding ∈ Library.bindings) :
    (r.name binding.1, binding.2.rename r.name) = binding := by
  have hname := r.library binding h
  unfold Library.bindings at h
  rcases List.mem_append.mp h with h | h
  · rcases List.mem_append.mp h with h | h
    · obtain ⟨v, _, rfl⟩ := List.mem_map.mp h
      simp only [Entity.rename, Var.rename, hname]
    · obtain ⟨⟨i, id⟩, _, rfl⟩ := List.mem_map.mp h
      simp only [Entity.rename, Func.rename, Library.intrinsic, Func.Origin.rename,
        r.name_spelling]
  · obtain rfl := List.mem_singleton.mp h
    simp only [Entity.rename, Func.rename, Library.raise, Func.Origin.rename] at hname ⊢
    rw [hname]

end Renaming

/-! ### Looking up -/

namespace Frame

/-- A renamed frame has under renamed names what the frame has, since different names stay
different. -/
theorem get?_rename (r : Renaming) (frame : Frame) (n : String) :
    (frame.rename r.name).get? (r.name n) = (frame.get? n).map (Entity.rename r.name) := by
  obtain ⟨bindings, inLoop, inFunction⟩ := frame
  simp only [get?, rename]
  induction bindings with
  | nil => rfl
  | cons binding bindings ih =>
    obtain ⟨m, entity⟩ := binding
    by_cases h : n = m
    · simp [h]
    · have hname : r.name n ≠ r.name m := fun heq => h (r.injective heq)
      rw [List.map_cons, List.lookup_cons, List.lookup_cons, beq_eq_false_iff_ne.mpr h,
        beq_eq_false_iff_ne.mpr hname]
      exact ih

/-- So the search through renamed frames finds what was found before, renamed. -/
theorem firstOf_rename (r : Renaming) (n : String) (frames : List Frame) :
    firstOf (r.name n) (frames.map (rename r.name)) =
      (firstOf n frames).map (Entity.rename r.name) := by
  induction frames with
  | nil => rfl
  | cons frame frames ih =>
    rw [List.map_cons, firstOf, firstOf, ih, get?_rename]
    cases frame.get? n <;> rfl

end Frame

namespace Scope

theorem lookup_rename (r : Renaming) (scope : Scope) (n : String) :
    (scope.rename r.name).lookup (r.name n) = (scope.lookup n).map (Entity.rename r.name) :=
  Frame.firstOf_rename r n (scope.current :: scope.outer)

theorem has_rename (r : Renaming) (scope : Scope) (n : String) :
    (scope.rename r.name).has (r.name n) = scope.has n := by
  unfold has
  rw [show (scope.rename r.name).current = scope.current.rename r.name from rfl,
    Frame.get?_rename, Option.isSome_map]

theorem rename_bindAll (r : String → String) (vars : List Var) (scope : Scope) :
    (scope.bindAll vars).rename r = (scope.rename r).bindAll (vars.map (Var.rename r)) := by
  unfold bindAll
  induction vars generalizing scope with
  | nil => rfl
  | cons v vars ih => exact ih (scope.bind v.name (.var v))

/-- Reading starts from the same scope. -/
theorem rename_program (r : Renaming) : program.rename r.name = program := by
  have hbindings : Library.bindings.map (fun b => (r.name b.1, b.2.rename r.name)) =
      Library.bindings :=
    (List.map_congr_left fun _ hb => r.rename_binding hb).trans (List.map_id' _)
  simp only [program, root, push, rename, Frame.rename, List.map_cons, List.map_nil, hbindings]

end Scope

/-! ### Parameters -/

section Params

variable (ρ : Rewording)

/-- Parameters in other words become variables in other words. -/
theorem paramVars_reword (id : Nat) (params : List Source.Param) :
    paramVars id (params.map (Source.Param.reword ρ)) =
      (paramVars id params).map (Var.rename ρ.name) := by
  induction params generalizing id with
  | nil => rfl
  | cons p ps ih => exact congrArg (List.cons _) (ih (id + 1))

/-- The first parameter that is repeated is the same one, in other words. -/
theorem firstRepeated_reword (seen : List String) (params : List Source.Param) :
    firstRepeated (seen.map ρ.name) (params.map (Source.Param.reword ρ)) =
      (firstRepeated seen params).map (Ident.reword ρ) := by
  induction params generalizing seen with
  | nil => rfl
  | cons p ps ih =>
    have hseen : (seen.map ρ.name).contains (p.reword ρ).name.name = seen.contains p.name.name := by
      rw [Bool.eq_iff_iff, List.contains_iff_mem, List.contains_iff_mem]
      refine ⟨fun h => ?_, List.mem_map_of_mem⟩
      obtain ⟨n, hn, heq⟩ := List.mem_map.mp h
      exact ρ.injective heq ▸ hn
    rw [List.map_cons, firstRepeated, firstRepeated, hseen]
    split
    · rfl
    · exact ih (p.name.name :: seen)

end Params

end Croupier
