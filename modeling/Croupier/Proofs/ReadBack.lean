import Croupier.Proofs.Resolution

/-!
# Reading a typed program back

Lowering gives every construct a new form: names become entities, a call of an intrinsic becomes
an operation, an array without items and an `if` with one arm get constructors of their own. This
module shows that it does nothing else. `Program.readBack` writes a typed program as a source
tree again, with entities by name, and `Source.bare` takes from a source tree what a typed
program does not keep: the places, the ascriptions, and whether an `else` with nothing in it was
written behind an `else if`.

> `Source.readBack_lower`: what lowering makes of a program reads back as that program.

Reading back a name gives the name that was written, because scopes hold entities under their own
names (`Scope.Named`). So the statement covers shadowed names as well.
-/

namespace Croupier

/-! ### Bare trees -/

namespace Source

/-- A parameter of which only the name is known. -/
def Param.named (name : String) : Param := ⟨label name, none⟩

mutual

/-- An expression without places. -/
def Expr.bare : Expr → Expr
  | .int _ n => .int .none n
  | .float _ x => .float .none x
  | .string _ s => .string .none s
  | .bool _ b => .bool .none b
  | .ident _ name => mention name.name
  | .binary _ op left right => .binary .none op left.bare right.bare
  | .unary _ op operand => .unary .none op operand.bare
  | .call _ callee args => .call .none callee.bare (Expr.bareList args)
  | .subscript _ base index => .subscript .none base.bare index.bare
  | .member _ base field => .member .none base.bare field
  | .array _ items => .array .none (Expr.bareList items)
  | .object _ members => .object .none (Expr.bareMembers members)

def Expr.bareList : List Expr → List Expr
  | [] => []
  | e :: es => e.bare :: Expr.bareList es

def Expr.bareMembers : List (String × Expr) → List (String × Expr)
  | [] => []
  | (key, e) :: members => (key, e.bare) :: Expr.bareMembers members

end

mutual

/-- A statement without places and ascriptions. -/
def Stmt.bare : Stmt → Stmt
  | .declareVar _ constant name init => .declareVar .none constant (label name.name) init.bare
  | .declareFunc _ name params _ _ body =>
    .declareFunc .none (label name.name) (params.map (fun p => .named p.name.name)) .none none
      (Stmt.bareList body)
  | .bump _ op target => .bump .none op target.bare
  | .assign _ target source => .assign .none target.bare source.bare
  | .call _ value => .call .none value.bare
  | .breakLoop _ => .breakLoop .none
  | .returnValue _ value => .returnValue .none value.bare
  | .returnNone _ => .returnNone .none
  | .branch _ test body .nothing => .branch .none test.bare (Stmt.bareList body) .nothing
  | .branch _ test body orElse => .branch .none test.bare (Stmt.bareList body) orElse.bare
  | .whileLoop _ test body => .whileLoop .none test.bare (Stmt.bareList body)
  | .forEach _ iterator collection body =>
    .forEach .none (label iterator.name) collection.bare (Stmt.bareList body)
  | .forTurn _ iterator _ args body =>
    .forTurn .none (label iterator.name) .none (Expr.bareList args) (Stmt.bareList body)

/-- Arms without places. Behind the last `else if` of a chain there is always an `else`, with
nothing in it if none was written. -/
def Else.bare : Else → Else
  | .nothing => .block []
  | .elseIf test body orElse => .elseIf test.bare (Stmt.bareList body) orElse.bare
  | .block body => .block (Stmt.bareList body)

def Stmt.bareList : List Stmt → List Stmt
  | [] => []
  | s :: ss => s.bare :: Stmt.bareList ss

end

/-- An `if` that has further arms keeps them when its places are forgotten. -/
theorem Stmt.bare_branch {span : Span} {test : Expr} {body : List Stmt} {orElse : Else}
    (hmore : orElse ≠ .nothing) : (Stmt.branch span test body orElse).bare =
      .branch .none test.bare (Stmt.bareList body) orElse.bare := by
  rw [Stmt.bare]
  exact hmore

def Phrase.bare : Phrase → Phrase
  | expr e => .expr e.bare
  | list es => .list (Expr.bareList es)
  | members ms => .members (Expr.bareMembers ms)

def Passage.bare : Passage → Passage
  | stmt s => .stmt s.bare
  | arms e => .arms e.bare
  | block ss => .block (Stmt.bareList ss)

/-- A program without places and ascriptions. -/
def bare (tree : List Source.Stmt) : List Source.Stmt := Stmt.bareList tree

end Source

/-! ### Reading back -/

open Source (label mention)

mutual

/-- How an expression is written. -/
def Expr.readBack : Expr → Source.Expr
  | .int n => .int .none n
  | .float x => .float .none x
  | .string s => .string .none s
  | .bool b => .bool .none b
  | .var v => mention v.name
  | .func f => mention f.name
  | .array items _ => .array .none (Expr.readBackList items)
  | .emptyArray _ => .array .none []
  | .object members => .object .none (Expr.readBackMembers members)
  | .binary (.operator op) left right _ => .binary .none op left.readBack right.readBack
  | .binary (.intrinsic i) left right _ =>
    .call .none (mention i.spelling) [left.readBack, right.readBack]
  | .unary (.operator op) operand _ => .unary .none op operand.readBack
  | .unary (.intrinsic i) operand _ => .call .none (mention i.spelling) [operand.readBack]
  | .subscript base index _ => .subscript .none base.readBack index.readBack
  | .member base field _ => .member .none base.readBack field
  | .call callee args _ => .call .none (mention callee.name) (Expr.readBackList args)

def Expr.readBackList : List Expr → List Source.Expr
  | [] => []
  | e :: es => e.readBack :: Expr.readBackList es

def Expr.readBackMembers : List (String × Expr) → List (String × Source.Expr)
  | [] => []
  | (key, e) :: members => (key, e.readBack) :: Expr.readBackMembers members

end

mutual

/-- How a statement is written. -/
def Stmt.readBack : Stmt → Source.Stmt
  | .declareVar v init =>
    .declareVar .none (v.access == .constant) (label v.name) init.readBack
  | .declareFunc f body =>
    .declareFunc .none (label f.name) (f.params.map (fun v => .named v.name)) .none none
      (Stmt.readBackList body)
  | .assign target source => .assign .none target.readBack source.readBack
  | .bump op target => .bump .none op target.readBack
  | .call value => .call .none value.readBack
  | .breakLoop => .breakLoop .none
  | .returnValue value => .returnValue .none value.readBack
  | .returnNone => .returnNone .none
  | .branch test body orElse =>
    .branch .none test.readBack (Stmt.readBackList body) orElse.readBack
  | .shortBranch test body => .branch .none test.readBack (Stmt.readBackList body) .nothing
  | .whileLoop test body => .whileLoop .none test.readBack (Stmt.readBackList body)
  | .forEach iterator collection body =>
    .forEach .none (label iterator.name) collection.readBack (Stmt.readBackList body)
  | .forTurn iterator low high step _ body =>
    .forTurn .none (label iterator.name) .none [low.readBack, high.readBack, step.readBack]
      (Stmt.readBackList body)

/-- How further arms are written. -/
def Else.readBack : Else → Source.Else
  | .elseIf test body orElse => .elseIf test.readBack (Stmt.readBackList body) orElse.readBack
  | .block body => .block (Stmt.readBackList body)

def Stmt.readBackList : List Stmt → List Source.Stmt
  | [] => []
  | s :: ss => s.readBack :: Stmt.readBackList ss

end

def Phrase.readBack : Phrase → Source.Phrase
  | expr e => .expr e.readBack
  | list es => .list (Expr.readBackList es)
  | members ms => .members (Expr.readBackMembers ms)

def Passage.readBack : Passage → Source.Passage
  | stmt s => .stmt s.readBack
  | arms e => .arms e.readBack
  | block ss => .block (Stmt.readBackList ss)

/-- How a program is written. -/
def Program.readBack (p : Program) : List Source.Stmt := Stmt.readBackList p.body

/-! ### Scopes hold entities under their names -/

/-- Whatever a name stands for is called so. -/
def Scope.Named (scope : Scope) : Prop := ∀ name x, scope.lookup name = some x → x.name = name

namespace Scope.Named

variable {scope scope' : Scope}

theorem program : Scope.program.Named := by
  intro name x h
  obtain ⟨k, frame, hk, hmem, _⟩ := Frame.firstOf_eq_some h
  exact (Reflects.initial.proper frame (List.mem_of_getElem? hk) _ hmem).1.symm

/-- Binding an entity under its own name keeps to names. -/
theorem bind (h : scope.Named) {name : String} {x : Entity} (hx : x.name = name) :
    (scope.bind name x).Named := by
  intro other y hy
  by_cases hname : other = name
  · rw [hname, lookup_bind_self] at hy
    cases hy
    exact hx.trans hname.symm
  · rw [lookup_bind_of_ne _ _ hname] at hy
    exact h other y hy

/-- Parameters are bound under their own names. -/
theorem bindAll (h : scope.Named) (vars : List Var) : (scope.bindAll vars).Named := by
  induction vars generalizing scope with
  | nil => exact h
  | cons v vs ih => exact ih (h.bind rfl)

theorem pushLoop (h : scope.Named) : scope.pushLoop.Named := by
  intro name x hx
  rw [lookup_pushLoop] at hx
  exact h name x hx

theorem pushFunction (h : scope.Named) : scope.pushFunction.Named := by
  intro name x hx
  rw [lookup_pushFunction] at hx
  exact h name x hx

/-- Statements bind what they declare under its name. -/
theorem behind {strictness : Strictness} {session session' : Session} {d : Source.Passage}
    {d' : Passage} (h : PassageLowered strictness scope session d d' scope' session')
    (hnamed : scope.Named) : scope'.Named :=
  h.scope_of_bind (fun _ _ _ hx hbefore => hbefore.bind hx) hnamed

end Scope.Named

/-! ### Lowered expressions -/

theorem Expr.readBack_ofEntity (x : Entity) : (Expr.ofEntity x).readBack = mention x.name := by
  cases x <;> rfl

/-- An array is read back from its items, also if there are none. -/
theorem Expr.readBack_arrayOf (returns : Returns) (items : List Expr) :
    (Expr.arrayOf returns items).readBack = .array .none (Expr.readBackList items) := by
  cases items <;> rfl

/-- A function that is taken for an intrinsic has its name. -/
theorem Func.spelling_of_intrinsic? {f : Func} {i : Intrinsic} (h : f.intrinsic? = some i) :
    i.spelling = f.name := by
  unfold Func.intrinsic? at h
  split at h
  next =>
    have hfound := List.find?_some h
    simpa using hfound
  next => cases h

/-- A call is written alike in each of its forms. -/
theorem Expr.readBack_callOf (returns : Returns) (f : Func) (args : List Expr) :
    (Expr.callOf returns f args).readBack =
      .call .none (mention f.name) (Expr.readBackList args) := by
  rcases Expr.callOf_cases returns f args with
    ⟨i, x, hi, rfl, hcall⟩ | ⟨i, x, y, hi, rfl, hcall⟩ | hcall
  · rw [hcall, ← Func.spelling_of_intrinsic? hi]
    rfl
  · rw [hcall, ← Func.spelling_of_intrinsic? hi]
    rfl
  · rw [hcall]
    rfl

/-- What became of an expression reads back as the expression. -/
theorem PhraseLowered.readBack_eq {setting : Setting} {d : Source.Phrase} {d' : Phrase}
    (h : PhraseLowered setting d d') (hnamed : setting.scope.Named) : d'.readBack = d.bare := by
  induction h with
  | int | float | string | bool | listNil | membersNil => rfl
  | ident found =>
    rw [Phrase.readBack, Expr.readBack_ofEntity, hnamed _ _ found]
    rfl
  | binary _ _ _ ihleft ihright | subscript _ _ _ ihleft ihright =>
    have hleft := Source.Phrase.expr.inj ihleft
    have hright := Source.Phrase.expr.inj ihright
    simp only [Phrase.readBack, Expr.readBack, Expr.subscriptOf, Source.Phrase.bare,
      Source.Expr.bare, hleft, hright]
  | unary _ ih | member _ ih =>
    have hpart := Source.Phrase.expr.inj ih
    simp only [Phrase.readBack, Expr.readBack, Expr.memberOf, Source.Phrase.bare,
      Source.Expr.bare, hpart]
  | call _ _ _ _ ihcallee ihargs =>
    have hcallee := Source.Phrase.expr.inj ihcallee
    have hargs := Source.Phrase.list.inj ihargs
    rw [Phrase.readBack, Expr.readBack_callOf, Source.Phrase.bare, Source.Expr.bare, ← hcallee,
      hargs, Expr.readBack]
  | array _ ih =>
    have hitems := Source.Phrase.list.inj ih
    rw [Phrase.readBack, Expr.readBack_arrayOf, Source.Phrase.bare, Source.Expr.bare, hitems]
  | object _ ih =>
    have hmembers := Source.Phrase.members.inj ih
    rw [Phrase.readBack, Expr.readBack, Source.Phrase.bare, Source.Expr.bare, hmembers]
  | listCons _ _ ihfirst ihrest =>
    have hfirst := Source.Phrase.expr.inj ihfirst
    have hrest := Source.Phrase.list.inj ihrest
    rw [Phrase.readBack, Expr.readBackList, Source.Phrase.bare, Source.Expr.bareList, hfirst, hrest]
  | membersCons _ _ ihfirst ihrest =>
    have hfirst := Source.Phrase.expr.inj ihfirst
    have hrest := Source.Phrase.members.inj ihrest
    rw [Phrase.readBack, Expr.readBackMembers, Source.Phrase.bare, Source.Expr.bareMembers, hfirst,
      hrest]

/-! ### Lowered statements -/

/-- Parameters are read back with their names. -/
theorem paramVars_named (id : Nat) (params : List Source.Param) :
    (paramVars id params).map (fun v => Source.Param.named v.name) =
      params.map (fun p => .named p.name.name) := by
  have hnames := congrArg (List.map Source.Param.named) (paramVars_names id params)
  rw [List.map_map, List.map_map] at hnames
  exact hnames

/-- What became of an expression in a setting, as part of a statement. -/
theorem PhraseLowered.readBack_expr {strictness : Strictness} {returns : Returns} {scope : Scope}
    {e : Source.Expr} {e' : Expr}
    (h : PhraseLowered ⟨strictness, returns, scope⟩ (.expr e) (.expr e')) (hnamed : scope.Named) :
    e'.readBack = e.bare :=
  Source.Phrase.expr.inj (h.readBack_eq hnamed)

/-- What became of a passage reads back as the passage. -/
theorem PassageLowered.readBack_eq {strictness : Strictness} {scope scope' : Scope}
    {session session' : Session} {d : Source.Passage} {d' : Passage}
    (h : PassageLowered strictness scope session d d' scope' session') (hnamed : scope.Named) :
    d'.readBack = d.bare := by
  induction h with
  | @declareVar _ _ _ constant _ _ _ _ _ hinit hv =>
    subst hv
    have hconstant :
        ((if constant then Access.constant else .mutable) == .constant) = constant := by
      cases constant <;> rfl
    simp only [Passage.readBack, Stmt.readBack, Source.Passage.bare, Source.Stmt.bare, hconstant,
      hinit.readBack_expr hnamed]
  | declareFunc _ _ hvars hf _ _ _ ih =>
    subst hvars hf
    have hbody := Source.Passage.block.inj (ih ((hnamed.bind (by rfl)).pushFunction.bindAll _))
    simp only [Passage.readBack, Stmt.readBack, Source.Passage.bare, Source.Stmt.bare, Func.params,
      paramVars_named, hbody]
  | bump htarget _ _ =>
    simp only [Passage.readBack, Stmt.readBack, Source.Passage.bare, Source.Stmt.bare,
      htarget.readBack_expr hnamed]
  | assign htarget _ hsource =>
    simp only [Passage.readBack, Stmt.readBack, Source.Passage.bare, Source.Stmt.bare,
      htarget.readBack_expr hnamed, hsource.readBack_expr hnamed]
  | call hvalue | returnValue _ hvalue =>
    simp only [Passage.readBack, Stmt.readBack, Source.Passage.bare, Source.Stmt.bare,
      hvalue.readBack_expr hnamed]
  | breakLoop | returnNone | nothing | nil => rfl
  | shortBranch htest _ _ ih =>
    have hbody := Source.Passage.block.inj (ih hnamed)
    simp only [Passage.readBack, Stmt.readBack, Source.Passage.bare, Source.Stmt.bare,
      htest.readBack_expr hnamed, hbody]
  | branch htest _ hfirst hmore _ ihbody ihelse =>
    have hbody := Source.Passage.block.inj (ihbody hnamed)
    have helse := Source.Passage.arms.inj (ihelse (hnamed.behind hfirst))
    simp only [Passage.readBack, Stmt.readBack, Source.Passage.bare, Source.Stmt.bare_branch hmore,
      htest.readBack_expr hnamed, hbody, helse]
  | whileLoop htest _ _ ih =>
    have hbody := Source.Passage.block.inj (ih hnamed.pushLoop)
    simp only [Passage.readBack, Stmt.readBack, Source.Passage.bare, Source.Stmt.bare,
      htest.readBack_expr hnamed, hbody]
  | forEach hcollection hv _ ih =>
    have hbody := Source.Passage.block.inj (ih (hnamed.pushLoop.bind (congrArg Var.name hv)))
    simp only [Passage.readBack, Stmt.readBack, Source.Passage.bare, Source.Stmt.bare,
      hcollection.readBack_expr hnamed, hbody, congrArg Var.name hv]
  | forTurn hlow hhigh hstep _ hv _ ih =>
    have hbody := Source.Passage.block.inj (ih (hnamed.pushLoop.bind (congrArg Var.name hv)))
    simp only [Passage.readBack, Stmt.readBack, Source.Passage.bare, Source.Stmt.bare,
      Source.Expr.bareList, hlow.readBack_expr hnamed, hhigh.readBack_expr hnamed,
      hstep.readBack_expr hnamed, hbody, congrArg Var.name hv]
  | elseIf htest _ hfirst _ ihbody ihelse =>
    have hbody := Source.Passage.block.inj (ihbody hnamed)
    have helse := Source.Passage.arms.inj (ihelse (hnamed.behind hfirst))
    simp only [Passage.readBack, Else.readBack, Source.Passage.bare, Source.Else.bare,
      htest.readBack_expr hnamed, hbody, helse]
  | block _ ih =>
    have hbody := Source.Passage.block.inj (ih hnamed)
    simp only [Passage.readBack, Else.readBack, Source.Passage.bare, Source.Else.bare, hbody]
  | cons hfirst _ ihfirst ihrest =>
    have hstmt := Source.Passage.stmt.inj (ihfirst hnamed)
    have hblock := Source.Passage.block.inj (ihrest (hnamed.behind hfirst))
    simp only [Passage.readBack, Stmt.readBackList, Source.Passage.bare, Source.Stmt.bareList,
      hstmt, hblock]

/-! ### Whole programs -/

/-- Lowering loses nothing, repeats nothing and leaves everything in its order: what it makes of a
program reads back as that program, without places and ascriptions. -/
theorem Source.readBack_lower {strictness : Strictness} {tree : List Source.Stmt} {p : Program}
    (h : Source.lower strictness tree = .ok p) : p.readBack = Source.bare tree := by
  obtain ⟨last, session, hlowered, _⟩ := passageLowered_of_program h
  exact Source.Passage.block.inj (hlowered.readBack_eq .program)

namespace Echo

/-- `all in k = []  for i in turn(0, hypot(3, 4), 1) { if i == 1 { break } else if i < 2 { … } }`.
The arm at the end declares a function under the name of an intrinsic, with a parameter under the
name of the iterator, and calls it. -/
def source : List Source.Stmt :=
  [.declareVar ⟨0, 13⟩ true ⟨"k", ⟨7, 8⟩⟩ (.array ⟨11, 13⟩ []),
    .forTurn ⟨14, 118⟩ ⟨"i", ⟨18, 19⟩⟩ ⟨23, 45⟩
      [.int ⟨28, 29⟩ 0,
       .call ⟨31, 42⟩ (.ident ⟨31, 36⟩ ⟨"hypot", ⟨31, 36⟩⟩) [.int ⟨37, 38⟩ 3, .int ⟨40, 41⟩ 4],
       .int ⟨43, 44⟩ 1]
      [.branch ⟨48, 116⟩
        (.binary ⟨51, 57⟩ .equal (.ident ⟨51, 52⟩ ⟨"i", ⟨51, 52⟩⟩) (.int ⟨56, 57⟩ 1))
        [.breakLoop ⟨60, 65⟩]
        (.elseIf (.binary ⟨76, 81⟩ .less (.ident ⟨76, 77⟩ ⟨"i", ⟨76, 77⟩⟩) (.int ⟨80, 81⟩ 2))
          [.declareFunc ⟨84, 107⟩ ⟨"max", ⟨89, 92⟩⟩ [⟨⟨"i", ⟨93, 94⟩⟩, none⟩] ⟨92, 95⟩ none
            [.returnValue ⟨98, 106⟩ (.ident ⟨105, 106⟩ ⟨"i", ⟨105, 106⟩⟩)],
           .call ⟨108, 114⟩ (.call ⟨108, 114⟩ (.ident ⟨108, 111⟩ ⟨"max", ⟨108, 111⟩⟩)
            [.ident ⟨112, 113⟩ ⟨"i", ⟨112, 113⟩⟩])]
          .nothing)]]

def k : Var := ⟨14, "k", .constant, .array .any⟩

def i : Var := ⟨15, "i", .mutable, .float⟩

def parameter : Var := ⟨17, "i", .readOnly, .any⟩

def max : Func := ⟨16, "max", .declared [parameter] none⟩

def typed : Program :=
  ⟨[.declareVar k (.emptyArray .any),
    .forTurn i (.int 0) (.binary (.intrinsic .hypot) (.int 3) (.int 4) .float) (.int 1) .ascending
      [.branch (.binary (.operator .equal) (.var i) (.int 1) .boolean) [.breakLoop]
        (.elseIf (.binary (.operator .less) (.var i) (.int 2) .boolean)
          [.declareFunc max [.returnValue (.var parameter)], .call (.call max [.var i] .any)]
          (.block []))]], [(16, .any)]⟩

theorem readBack_typed :
    Source.lower .strict source = .ok typed ∧ typed.readBack = Source.bare source :=
  have hlower : Source.lower .strict source = .ok typed := rfl
  ⟨hlower, Source.readBack_lower hlower⟩

end Echo

end Croupier
