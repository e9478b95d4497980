import Croupier.Proofs.Frames

/-!
# What statements bind

Statements are read in a scope and leave one behind, and the next statement is read in that. The
two differ in little. The loops and functions among the statements open frames and close them
again, and nothing of these is left. What is left stands in the innermost frame: what it bound
before, and what the statements declare in it, the arms of an `if` included. `Scope.ExtendedBy` is
this relation between the scopes before and behind.

Nothing is ever bound over. This holds of the frame that the statements stand in and of every frame
that is opened on the way, so it is said of every place that lowering comes to (`Reached`): where a
statement binds names, the frames that it binds them in do not have them yet
(`Source.Stmt.binds`).

> `Source.frame_extended`: behind statements the innermost frame binds what it has bound before
> and the entities that the statements declare, each under its name. The frames around it, and
> what is known about loops and functions, are as before, and no name is bound over.
-/

namespace Croupier

/-! ### Entities that are declared -/

mutual

/-- The entities that a statement declares in the frame in which it stands. -/
def Stmt.declared : Stmt → List Entity
  | .declareVar v _ => [.var v]
  | .declareFunc f _ => [.func f]
  | .branch _ body orElse => Stmt.declaredList body ++ orElse.declared
  | .shortBranch _ body => Stmt.declaredList body
  | .assign _ _ | .bump _ _ | .call _ | .breakLoop | .returnValue _ | .returnNone
  | .whileLoop _ _ | .forEach _ _ _ | .forTurn _ _ _ _ _ _ => []

/-- The entities that the further arms of an `if` declare in the frame around it. -/
def Else.declared : Else → List Entity
  | .elseIf _ body orElse => Stmt.declaredList body ++ orElse.declared
  | .block body => Stmt.declaredList body

/-- The entities that statements declare in the frame in which they follow each other. -/
def Stmt.declaredList : List Stmt → List Entity
  | [] => []
  | s :: ss => s.declared ++ Stmt.declaredList ss

end

def Passage.declared : Passage → List Entity
  | .stmt s => s.declared
  | .arms e => e.declared
  | .block ss => Stmt.declaredList ss

/-- A typed passage declares entities of the names that are declared in the passage as written, in
the same order. -/
theorem PassageLowered.declared_names {strictness : Strictness} {scope scope' : Scope}
    {session session' : Session} {d : Source.Passage} {d' : Passage}
    (h : PassageLowered strictness scope session d d' scope' session') :
    d'.declared.map Entity.name = d.declares := by
  induction h with
  | declareVar _ _ hv =>
    subst hv
    rfl
  | declareFunc _ _ _ hf =>
    subst hf
    rfl
  | bump | assign | call | breakLoop | returnValue | returnNone | whileLoop | forEach | forTurn
  | nothing | nil => rfl
  | shortBranch _ _ _ ih =>
    rw [Source.Passage.declares, Source.Stmt.declares, Source.Else.declares, List.append_nil]
    exact ih
  | block _ ih => exact ih
  | branch _ _ _ _ _ ihfirst ihrest | elseIf _ _ _ _ ihfirst ihrest | cons _ _ ihfirst ihrest =>
    exact List.map_append.trans (congr (congrArg (· ++ ·) ihfirst) ihrest)

/-! ### Extended scopes -/

/-- One scope differs from another in that its innermost frame binds these entities as well, each
under its name. -/
structure Scope.ExtendedBy (scope scope' : Scope) (xs : List Entity) : Prop where
  bound : ∀ name x, scope'.current.get? name = some x ↔
    scope.current.get? name = some x ∨ (x ∈ xs ∧ x.name = name)
  fresh : ∀ x ∈ xs, scope.has x.name = false
  distinct : (xs.map Entity.name).Nodup
  outer : scope'.outer = scope.outer
  inLoop : scope'.inLoop = scope.inLoop
  inFunction : scope'.inFunction = scope.inFunction

namespace Scope.ExtendedBy

variable {scope scope' scope'' : Scope} {xs ys : List Entity}

/-- A scope extends itself by nothing. -/
theorem nil (scope : Scope) : scope.ExtendedBy scope [] where
  bound _ _ := by simp
  fresh _ hx := by cases hx
  distinct := List.nodup_nil
  outer := rfl
  inLoop := rfl
  inFunction := rfl

/-- Binding a name that is new to the innermost frame extends the scope by what it is bound to. -/
theorem bind {name : String} {x : Entity} (hname : x.name = name)
    (hnew : scope.has name = false) : scope.ExtendedBy (scope.bind name x) [x] where
  bound other y := by
    have hnone : scope.current.get? name = none := by simpa [Scope.has] using hnew
    simp only [Scope.bind, Frame.get?_bind, List.mem_singleton]
    by_cases hother : other = name
    · rw [if_pos hother, hother, hnone]
      constructor
      · rintro ⟨rfl⟩
        exact Or.inr ⟨rfl, hname⟩
      · rintro (hno | ⟨rfl, _⟩)
        · cases hno
        · rfl
    · rw [if_neg hother]
      constructor
      · exact Or.inl
      · rintro (hold | ⟨rfl, heq⟩)
        · exact hold
        · exact absurd (heq.symm.trans hname) hother
  fresh y hy := by
    cases List.mem_singleton.mp hy
    rw [hname]
    exact hnew
  distinct := by simp
  outer := rfl
  inLoop := rfl
  inFunction := rfl

/-- A name that is new behind was new before. -/
theorem has_mono (h : scope.ExtendedBy scope' xs) {name : String}
    (hnew : scope'.has name = false) : scope.has name = false := by
  cases hold : scope.current.get? name with
  | none => simp [Scope.has, hold]
  | some x =>
    have hstill := (h.bound name x).mpr (Or.inl hold)
    simp [Scope.has, hstill] at hnew

/-- Extending twice extends by all that was added. -/
theorem append (h : scope.ExtendedBy scope' xs) (h' : scope'.ExtendedBy scope'' ys) :
    scope.ExtendedBy scope'' (xs ++ ys) where
  bound name x := by
    rw [h'.bound, h.bound, List.mem_append]
    grind
  fresh x hx := by
    rcases List.mem_append.mp hx with hx | hx
    · exact h.fresh x hx
    · exact h.has_mono (h'.fresh x hx)
  distinct := by
    rw [List.map_append]
    refine List.nodup_append.mpr ⟨h.distinct, h'.distinct, fun n hn m hm heq => ?_⟩
    obtain ⟨x, hx, rfl⟩ := List.mem_map.mp hn
    obtain ⟨y, hy, rfl⟩ := List.mem_map.mp hm
    -- What has been bound in the meantime is not new.
    have hbound := (h.bound y.name x).mpr (Or.inr ⟨hx, heq⟩)
    have hnew := h'.fresh y hy
    simp [Scope.has, hbound] at hnew
  outer := h'.outer.trans h.outer
  inLoop := h'.inLoop.trans h.inLoop
  inFunction := h'.inFunction.trans h.inFunction

end Scope.ExtendedBy

/-- What passes the check is not yet bound in the innermost frame. -/
theorem checkUndeclared_has {scope : Scope} {name : Ident}
    (h : checkUndeclared scope name = .ok ()) : scope.has name.name = false := by
  rw [Scope.has, checkUndeclared_eq_ok h]
  rfl

/-- A passage extends the scope by the entities that it declares. -/
theorem PassageLowered.extended {strictness : Strictness} {scope scope' : Scope}
    {session session' : Session} {d : Source.Passage} {d' : Passage}
    (h : PassageLowered strictness scope session d d' scope' session') :
    scope.ExtendedBy scope' d'.declared := by
  induction h with
  | declareVar hnew _ hv => exact .bind (congrArg Var.name hv) (checkUndeclared_has hnew)
  | declareFunc hnew _ _ hf => exact .bind (congrArg Func.name hf) (checkUndeclared_has hnew)
  | bump | assign | call | breakLoop | returnValue | returnNone | whileLoop | forEach | forTurn
  | nothing | nil => exact .nil _
  | shortBranch _ _ _ ih | block _ ih => exact ih
  | branch _ _ _ _ _ ihfirst ihrest | elseIf _ _ _ _ ihfirst ihrest | cons _ _ ihfirst ihrest =>
    exact ihfirst.append ihrest

/-! ### Every place where a name is bound -/

/-- The names of variables that are bound one after the other, each with the scope in which it is
bound. -/
def Scope.bindSteps (scope : Scope) : List Var → List (Scope × String)
  | [] => []
  | v :: vs => (scope, v.name) :: (scope.bind v.name (.var v)).bindSteps vs

/-- The names that a statement binds itself, when it is read in this scope and `id` is the next
free number, each with the scope in which it is bound. What its parts bind does not count. -/
def Source.Stmt.binds (scope : Scope) (id : Nat) : Source.Stmt → List (Scope × String)
  | .declareVar _ _ name _ => [(scope, name.name)]
  | .declareFunc span name params paramsSpan ascribed body =>
    let d : Source.FuncDecl := ⟨span, name, params, paramsSpan, ascribed, body⟩
    (scope, name.name) :: (scope.bind name.name (.func (d.func id))).pushFunction.bindSteps
      (paramVars (id + 1) params)
  | .forEach _ iterator _ _ | .forTurn _ iterator _ _ _ => [(scope.pushLoop, iterator.name)]
  | .bump _ _ _ | .assign _ _ _ | .call _ _ | .breakLoop _ | .returnValue _ _ | .returnNone _
  | .branch _ _ _ _ | .whileLoop _ _ _ => []

/-- A name is bound in a frame that does not have it. -/
def BindsNew (b : Scope × String) : Prop := b.1.has b.2 = false

/-- Parameters with names of their own are bound one after the other, and each name is new to the
frame. -/
theorem Scope.bindSteps_new {vars : List Var} (hdistinct : (vars.map Var.name).Nodup)
    {scope : Scope} (hnew : ∀ v ∈ vars, scope.has v.name = false) :
    ∀ b ∈ scope.bindSteps vars, BindsNew b := by
  induction vars generalizing scope with
  | nil =>
    intro b hb
    cases hb
  | cons v vs ih =>
    obtain ⟨hother, hrest⟩ := List.nodup_cons.mp hdistinct
    intro b hb
    rcases List.mem_cons.mp hb with rfl | hb
    · exact hnew v List.mem_cons_self
    · refine ih hrest (fun w hw => ?_) b hb
      have hne : w.name ≠ v.name := fun heq => hother (heq ▸ List.mem_map_of_mem hw)
      rw [Scope.has_bind, beq_eq_false_iff_ne.mpr hne, hnew w (List.mem_cons_of_mem _ hw)]
      rfl

/-- A statement that is lowered binds no name over. -/
theorem PassageLowered.binds_new {strictness : Strictness} {scope scope' : Scope}
    {session session' : Session} {s : Source.Stmt} {d' : Passage}
    (h : PassageLowered strictness scope session (.stmt s) d' scope' session') :
    ∀ b ∈ s.binds scope session.nextId, BindsNew b := by
  cases h with
  | declareVar hnew =>
    intro b hb
    cases List.mem_singleton.mp hb
    exact checkUndeclared_has hnew
  | declareFunc hnew hparams =>
    intro b hb
    rcases List.mem_cons.mp hb with rfl | hb
    · exact checkUndeclared_has hnew
    · -- The parameters differ, and there is nothing else in the frame of the function.
      refine Scope.bindSteps_new ?_ (fun _ _ => rfl) b hb
      rw [paramVars_names]
      exact checkParams_eq_ok hparams
  | forEach | forTurn =>
    intro b hb
    cases List.mem_singleton.mp hb
    rfl
  | bump | assign | call | breakLoop | returnValue | returnNone | shortBranch | branch
  | whileLoop =>
    intro b hb
    cases hb

/-- Lowering comes to no statement that binds a name over, unless it fails. -/
theorem Reached.binds_new {strictness : Strictness} {scope scope' inner : Scope}
    {session session' start : Session} {ss : List Source.Stmt} {ss' : List Stmt} {s : Source.Stmt}
    (hrun : Source.Stmt.lowerList strictness scope ss session = .ok (ss', scope') session')
    (h : Reached strictness scope session (.block ss) inner start (.stmt s)) :
    ∀ b ∈ s.binds inner start.nextId, BindsNew b := by
  cases hs : s.lower strictness inner start with
  | ok result stop => exact (passageLowered_of_lower s hs).binds_new
  | error fault stop =>
    obtain ⟨_, hfails⟩ := h.fails ⟨stop, hs⟩
    rw [hrun] at hfails
    cases hfails

/-- Behind statements the innermost frame binds what it has bound before, and each entity that they
declare in it under its name. Nothing else about the scope has changed, and neither in this frame
nor in one that was opened on the way has a name been bound over. -/
theorem Source.frame_extended {strictness : Strictness} {scope scope' : Scope}
    {session session' : Session} {ss : List Source.Stmt} {ss' : List Croupier.Stmt}
    (h : Source.Stmt.lowerList strictness scope ss session = .ok (ss', scope') session') :
    scope.ExtendedBy scope' (Croupier.Stmt.declaredList ss') ∧
    (Croupier.Stmt.declaredList ss').map Entity.name = Source.Stmt.declaresList ss ∧
    ∀ inner start s, Reached strictness scope session (.block ss) inner start (.stmt s) →
      ∀ b ∈ s.binds inner start.nextId, BindsNew b := by
  have hlowered := passageLowered_of_lowerList ss h
  exact ⟨hlowered.extended, hlowered.declared_names, fun _ _ _ hreached => hreached.binds_new h⟩

namespace Annex

open Source (label mention number declare)

/-- `z < 1`. -/
def test : Source.Expr := .binary .none .less (mention "z") (number 1)

/-- `deal g(b, z) { hand c = b }`. -/
def dealG : Source.Stmt :=
  .declareFunc .none (label "g") [⟨label "b", none⟩, ⟨label "z", none⟩] .none none
    [declare "c" (mention "b")]

/-- `if z < 1 { hand b = z } else { deal g(b, z) { hand c = b } }`, and behind it
`for z in turn(0, 2, 1) { hand b = z }`. -/
def source : List Source.Stmt :=
  [.branch .none test [declare "b" (mention "z")] (.block [dealG]),
    .forTurn .none (label "z") .none [number 0, number 2, number 1]
      [declare "b" (mention "z")]]

def z : Var := ⟨20, "z", .mutable, .int⟩

def b : Var := ⟨21, "b", .mutable, .int⟩

def g : Func :=
  ⟨22, "g", .declared [⟨23, "b", .readOnly, .any⟩, ⟨24, "z", .readOnly, .any⟩] none⟩

/-- The body of a loop that has declared `z`. -/
def around : Scope := Scope.program.pushLoop.bind "z" (.var z)

def typed : List Stmt :=
  [.branch (.binary (.operator .less) (.var z) (.int 1) .boolean) [.declareVar b (.var z)]
      (.block [.declareFunc g
        [.declareVar ⟨25, "c", .mutable, .any⟩ (.var ⟨23, "b", .readOnly, .any⟩)]]),
    .forTurn ⟨26, "z", .mutable, .int⟩ (.int 0) (.int 2) (.int 1) .ascending
      [.declareVar ⟨27, "b", .mutable, .int⟩ (.var ⟨26, "z", .mutable, .int⟩)]]

/-- Of four declarations, two parameters and an iterator, two stay in the frame. When `g` is
declared `b` is already there, and still it can be the name of a parameter. -/
theorem frame_extended_annex : ∃ scope' session',
    Source.Stmt.lowerList .strict around source ⟨21, []⟩ = .ok (typed, scope') session' ∧
    around.ExtendedBy scope' [.var b, .func g] ∧
    Reached .strict around ⟨21, []⟩ (.block source) (around.bind "b" (.var b)) ⟨22, []⟩
      (.stmt dealG) ∧
    ∀ bound ∈ dealG.binds (around.bind "b" (.var b)) 22, BindsNew bound := by
  have hrun : ∃ scope' session', Source.Stmt.lowerList .strict around source ⟨21, []⟩ =
      .ok (typed, scope') session' := ⟨_, _, rfl⟩
  obtain ⟨scope', session', hrun⟩ := hrun
  have hreached : Reached .strict around ⟨21, []⟩ (.block source) (around.bind "b" (.var b))
      ⟨22, []⟩ (.stmt dealG) := by
    have hfirst : PassageLowered .strict around ⟨21, []⟩ (.block [declare "b" (mention "z")])
        (.block [.declareVar b (.var z)]) (around.bind "b" (.var b)) ⟨22, []⟩ :=
      passageLowered_of_lowerList _ rfl
    exact .first (.branchElse (phraseLowered_of_lower test rfl) rfl hfirst
      (.block (.first .here)))
  obtain ⟨hextended, _, hnew⟩ := Source.frame_extended hrun
  exact ⟨scope', session', hrun, hextended, hreached, hnew _ _ _ hreached⟩

end Annex

end Croupier
