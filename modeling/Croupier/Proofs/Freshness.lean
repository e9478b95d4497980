import Croupier.Proofs.Recursion

/-!
# Everything is declared once and settled once

Two decisions of the compiler look at numbers alone: whether an assignment assigns a variable to
itself, and whether a function calls itself. They are right only if a number stands for one
entity. Likewise the result of a function is written into a table once, and whoever looks it up
takes it for granted that it is not written again.

Numbers are taken from a counter. In the order in which a typed program introduces its entities
they are therefore consecutive, and they begin where those of the library end
(`PassageLowered.numbered`). This is said of programs that are accepted; there is no other
program to look at.

Results are settled on the way, however, and a run that is refused in the end has settled some
as well. So what is said of them is said of every run, through the session that it leaves behind:
the table keeps all that was ever written into it, the latest first (`Source.settlings`). A step
of lowering has two ways to end, and `Lowering.Ends` says what holds in both.

> `Source.declared_once`: the entities that a typed program introduces have numbers of their own,
> the functions among them are exactly those that were settled, and no run settles anything twice
> or anything that it has not declared.
-/

namespace Croupier

/-! ### Numbers -/

/-- The entities that a node introduces. -/
def Node.introduces : Node → List Entity
  | .stmt (.declareVar v _) => [.var v]
  | .stmt (.declareFunc f _) => .func f :: f.params.map .var
  | .stmt (.forEach v _ _) | .stmt (.forTurn v _ _ _ _ _) => [.var v]
  | _ => []

/-- The entities that a passage introduces: variables, functions with their parameters, and
iterators, at any depth. -/
def Passage.introduced (d : Passage) : List Entity := d.nodes.flatMap Node.introduces

/-- The entities that a program introduces. -/
def Program.introduced (p : Program) : List Entity := p.nodes.flatMap Node.introduces

/-- Expressions introduce nothing. -/
theorem Expr.introduces_nodes (e : Expr) : e.nodes.flatMap Node.introduces = [] := by
  rw [List.flatMap_eq_nil_iff]
  intro x hx
  cases x with
  | expr _ => rfl
  | stmt s => exact absurd hx (Expr.stmt_not_mem_nodes s e)

/-- Besides what it introduces itself, a statement introduces what its blocks do. -/
theorem Stmt.introduces_nodes (s : Stmt) :
    s.nodes.flatMap Node.introduces =
      (Node.stmt s).introduces ++ s.inside.flatMap Node.introduces := by
  cases s <;> simp [Stmt.nodes, Stmt.inside, Expr.introduces_nodes]

/-- The same for an arm behind the first one. -/
theorem Else.introduces_nodes (test : Expr) (body : List Stmt) (orElse : Else) :
    (Else.elseIf test body orElse).nodes.flatMap Node.introduces =
      (Stmt.branch test body orElse).inside.flatMap Node.introduces :=
  Stmt.introduces_nodes (.branch test body orElse)

/-- Parameters take consecutive numbers. -/
theorem paramVars_ids (id : Nat) (params : List Source.Param) :
    (paramVars id params).map Var.id = List.range' id params.length := by
  induction params generalizing id with
  | nil => rfl
  | cons p ps ih =>
    rw [paramVars, List.map_cons, ih, List.length_cons, List.range'_succ]

/-- The numbers of the entities are those that the counter gives out between two sessions, each
of them once and in order. -/
def NumberedBetween (session session' : Session) (xs : List Entity) : Prop :=
  ∃ count, xs.map Entity.id = List.range' session.nextId count ∧
    session'.nextId = session.nextId + count

namespace NumberedBetween

variable {a b c : Session} {xs ys : List Entity}

theorem nil (a : Session) : NumberedBetween a a [] := ⟨0, rfl, rfl⟩

/-- What two parts introduce is numbered from where the first one starts to where the second one
ends. -/
theorem append (h : NumberedBetween a b xs) (h' : NumberedBetween b c ys) :
    NumberedBetween a c (xs ++ ys) := by
  obtain ⟨m, hxs, hb⟩ := h
  obtain ⟨n, hys, hc⟩ := h'
  refine ⟨m + n, ?_, by omega⟩
  rw [List.map_append, hxs, hys, hb, List.range'_append_1]

/-- Entities that take the next numbers. -/
theorem reserve (a : Session) {count : Nat} (h : xs.map Entity.id = List.range' a.nextId count) :
    NumberedBetween a { a with nextId := a.nextId + count } xs :=
  ⟨count, h, rfl⟩

end NumberedBetween

/-- The numbers that lowering gives out are those of the entities that are introduced, in the same
order. -/
theorem PassageLowered.numbered {strictness : Strictness} {scope scope' : Scope}
    {session session' : Session} {d : Source.Passage} {d' : Passage}
    (h : PassageLowered strictness scope session d d' scope' session') :
    NumberedBetween session session' d'.introduced := by
  induction h with
  | nothing | nil => exact .nil _
  | bump | assign | call | breakLoop | returnValue | returnNone =>
    rw [Passage.introduced, Passage.nodes, Stmt.introduces_nodes]
    exact .nil _
  | declareVar _ _ hv =>
    rw [Passage.introduced, Passage.nodes, Stmt.introduces_nodes, hv]
    exact .reserve _ rfl
  | @declareFunc _ _ session _ _ _ params _ _ _ _ vars f _ _ _ hvars hf _ _ _ ih =>
    rw [Passage.introduced, Passage.nodes, Stmt.introduces_nodes]
    refine NumberedBetween.append (.reserve session ?_) ih
    -- The function has the first of the numbers, its parameters have those behind it.
    have hparams : (vars.map Entity.var).map Entity.id =
        List.range' (session.nextId + 1) params.length := by
      rw [List.map_map, hvars]
      exact paramVars_ids (session.nextId + 1) params
    rw [hf, List.range'_succ, ← hparams]
    rfl
  | whileLoop _ _ _ ih | shortBranch _ _ _ ih =>
    rw [Passage.introduced, Passage.nodes, Stmt.introduces_nodes]
    exact ih
  | forEach _ hv _ ih | forTurn _ _ _ _ hv _ ih =>
    rw [Passage.introduced, Passage.nodes, Stmt.introduces_nodes, hv]
    exact NumberedBetween.append (.reserve _ rfl) ih
  | branch _ _ _ _ _ ihfirst ihrest =>
    rw [Passage.introduced, Passage.nodes, Stmt.introduces_nodes, Stmt.inside,
      List.flatMap_append]
    exact ihfirst.append ihrest
  | elseIf _ _ _ _ ihfirst ihrest =>
    rw [Passage.introduced, Passage.nodes, Else.introduces_nodes, Stmt.inside,
      List.flatMap_append]
    exact ihfirst.append ihrest
  | block _ ih => exact ih
  | cons _ _ ihfirst ihrest =>
    rw [Passage.introduced, Passage.nodes, Stmt.nodesList, List.flatMap_append]
    exact ihfirst.append ihrest

/-! ### Settled functions -/

/-- The results that are settled between two sessions are those of the functions with these
numbers, each of them once. -/
def SettledBetween (session session' : Session) (ids : List Nat) : Prop :=
  ∃ new, session'.returns = new ++ session.returns ∧ (new.map Prod.fst).Perm ids

namespace SettledBetween

variable {a b c : Session} {is js : List Nat}

theorem nil (h : b.returns = a.returns) : SettledBetween a b [] := ⟨[], h, .nil⟩

/-- Two parts settle together what each of them settles. -/
theorem append (h : SettledBetween a b is) (h' : SettledBetween b c js) :
    SettledBetween a c (is ++ js) := by
  obtain ⟨new, hb, his⟩ := h
  obtain ⟨new', hc, hjs⟩ := h'
  refine ⟨new' ++ new, by rw [hc, hb, List.append_assoc], ?_⟩
  rw [List.map_append]
  exact (hjs.append his).trans List.perm_append_comm

end SettledBetween

/-- The results that lowering settles are those of the functions that are declared. -/
theorem PassageLowered.settled {strictness : Strictness} {scope scope' : Scope}
    {session session' : Session} {d : Source.Passage} {d' : Passage}
    (h : PassageLowered strictness scope session d d' scope' session') :
    SettledBetween session session' (d'.functions.map (fun g => g.1.id)) := by
  induction h with
  | nothing | nil => exact .nil rfl
  | declareVar | bump | assign | call | breakLoop | returnValue | returnNone =>
    rw [Passage.functions, Passage.nodes, Stmt.function?_nodes rfl]
    exact .nil rfl
  | @declareFunc _ _ session _ _ _ _ _ _ _ _ _ _ result _ _ _ hf _ _ _ ih =>
    obtain ⟨new, hnew, hperm⟩ := ih
    refine ⟨(session.nextId, result) :: new, congrArg _ hnew, ?_⟩
    rw [hf]
    exact hperm.cons session.nextId
  | whileLoop _ _ _ ih | forEach _ _ _ ih | forTurn _ _ _ _ _ _ ih | shortBranch _ _ _ ih =>
    rw [Passage.functions, Passage.nodes, Stmt.function?_nodes rfl]
    exact ih
  | branch _ _ _ _ _ ihfirst ihrest =>
    rw [Passage.functions, Passage.nodes, Stmt.function?_nodes rfl, Stmt.inside,
      List.filterMap_append, List.map_append]
    exact ihfirst.append ihrest
  | elseIf _ _ _ _ ihfirst ihrest =>
    rw [Passage.functions, Passage.nodes, Else.nodes, List.filterMap_cons_none rfl,
      List.filterMap_append, List.filterMap_append, Expr.function?_nodes, List.map_append]
    exact ihfirst.append ihrest
  | block _ ih => exact ih
  | cons _ _ ihfirst ihrest =>
    rw [Passage.functions, Passage.nodes, Stmt.nodesList, List.filterMap_append, List.map_append]
    exact ihfirst.append ihrest

/-! ### Runs that may fail -/

namespace Lowering

section Ends

variable {α β : Type} {P Q : Session → Prop} {s : Session}

/-- The session that a step leaves behind, whether it gives a result or a fault. -/
def behind (x : Lowering α) (s : Session) : Session :=
  match x s with
  | .ok _ t => t
  | .error _ t => t

/-- However a step ends that starts in this session, the session behind it has the property. -/
def Ends (P : Session → Prop) (x : Lowering α) (s : Session) : Prop := P (x.behind s)

namespace Ends

/-- A step that only checks leaves the session as it is, and goes on if the check succeeds. -/
theorem checked {result : Except Fault α} {f : α → Lowering β} (hstop : P s)
    (hgo : ∀ a, result = .ok a → Ends P (f a) s) : Ends P (Lowering.checked result >>= f) s := by
  cases result with
  | error fault => exact hstop
  | ok a => exact hgo a rfl

/-- A step that only reads leaves the session as it is, and goes on if it succeeds. -/
theorem reading {strictness : Strictness} {scope : Scope} {g : Setting → Except Fault α}
    {f : α → Lowering β} (hstop : P s)
    (hgo : ∀ a, g ⟨strictness, s.returns, scope⟩ = .ok a → Ends P (f a) s) :
    Ends P (Lowering.reading strictness scope g >>= f) s :=
  Ends.checked hstop hgo

/-- Of a longer step it is enough to know something about the session behind it. -/
theorem run {x : Lowering α} {f : α → Lowering β} (hx : Ends Q x s) (hstop : ∀ t, Q t → P t)
    (hgo : ∀ a t, x s = .ok a t → Q t → Ends P (f a) t) : Ends P (x >>= f) s := by
  unfold Ends behind at hx ⊢
  show P (match EStateM.bind x f s with | .ok _ t => t | .error _ t => t)
  unfold EStateM.bind
  cases hrun : x s with
  | error fault t =>
    rw [hrun] at hx
    exact hstop t hx
  | ok a t =>
    rw [hrun] at hx
    exact hgo a t hrun hx

/-- Nothing more happens to the session behind the longer step. -/
theorem last {x : Lowering α} {f : α → Lowering β} (hx : Ends Q x s)
    (hquiet : ∀ a t, (f a).behind t = t) (h : ∀ t, Q t → P t) : Ends P (x >>= f) s := by
  refine hx.run h (fun a t _ ht => ?_)
  unfold Ends
  rw [hquiet]
  exact h t ht

end Ends

end Ends

end Lowering

/-! ### What a run settles -/

section Settling

variable {strictness : Strictness} {scope scope' : Scope} {session session' mid last : Session}
  {d d' : Source.Passage}

/-- Lowering the passage comes to this declaration, and the function that it declares takes the
number. -/
def Declares (strictness : Strictness) (scope : Scope) (session : Session) (d : Source.Passage)
    (f : Source.FuncDecl) (id : Nat) : Prop :=
  ∃ outer start, Reached strictness scope session d outer start (.stmt f.stmt) ∧
    checkUndeclared outer f.name = .ok () ∧ checkParams f.params = .ok () ∧ id = start.nextId

/-- What lowering a passage has settled by the time of the last session: results of functions that
it declares, none of them twice. -/
structure SettlesOnce (strictness : Strictness) (scope : Scope) (session : Session)
    (d : Source.Passage) (last : Session) : Prop where
  nextId_le : session.nextId ≤ last.nextId
  entries : ∃ new, last.returns = new ++ session.returns ∧ (new.map Prod.fst).Nodup ∧
    ∀ id ∈ new.map Prod.fst, session.nextId ≤ id ∧ id < last.nextId ∧
      ∃ f, Declares strictness scope session d f id

namespace SettlesOnce

theorem refl : SettlesOnce strictness scope session d session :=
  ⟨Nat.le_refl _, [], rfl, .nil, by simp⟩

/-- Taking numbers settles nothing. -/
theorem reserve (count : Nat) : SettlesOnce strictness scope session d
    { session with nextId := session.nextId + count } :=
  ⟨Nat.le_add_right _ _, [], rfl, .nil, by simp⟩

/-- What a part has settled, the whole has. -/
theorem within (h : SettlesOnce strictness scope' session' d' last)
    (hnext : session.nextId ≤ session'.nextId) (hreturns : session'.returns = session.returns)
    (hway : ∀ {inner start t}, Reached strictness scope' session' d' inner start t →
      Reached strictness scope session d inner start t) :
    SettlesOnce strictness scope session d last := by
  obtain ⟨hle, new, hnew, hnodup, hids⟩ := h
  refine ⟨Nat.le_trans hnext hle, new, by rw [hnew, hreturns], hnodup, fun id hid => ?_⟩
  obtain ⟨hlow, hhigh, f, outer, start, hreached, hchecks⟩ := hids id hid
  exact ⟨Nat.le_trans hnext hlow, hhigh, f, outer, start, hway hreached, hchecks⟩

/-- Two parts that follow each other settle different functions. -/
theorem andThen {first rest : Source.Passage}
    (h : SettlesOnce strictness scope session first mid)
    (h' : SettlesOnce strictness scope' mid rest last)
    (hfirst : ∀ {inner start t}, Reached strictness scope session first inner start t →
      Reached strictness scope session d inner start t)
    (hrest : ∀ {inner start t}, Reached strictness scope' mid rest inner start t →
      Reached strictness scope session d inner start t) :
    SettlesOnce strictness scope session d last := by
  obtain ⟨hle, new, hnew, hnodup, hids⟩ := h
  obtain ⟨hle', new', hnew', hnodup', hids'⟩ := h'
  refine ⟨Nat.le_trans hle hle', new' ++ new, by rw [hnew', hnew, List.append_assoc], ?_, ?_⟩
  · rw [List.map_append, List.nodup_append]
    refine ⟨hnodup', hnodup, fun id' hid' id hid heq => ?_⟩
    have hhigh := (hids id hid).2.1
    have hlow := (hids' id' hid').1
    omega
  · intro id hid
    rw [List.map_append, List.mem_append] at hid
    rcases hid with hid | hid
    · obtain ⟨hlow, hhigh, f, outer, start, hreached, hchecks⟩ := hids' id hid
      exact ⟨Nat.le_trans hle hlow, hhigh, f, outer, start, hrest hreached, hchecks⟩
    · obtain ⟨hlow, hhigh, f, outer, start, hreached, hchecks⟩ := hids id hid
      exact ⟨hlow, Nat.lt_of_lt_of_le hhigh hle', f, outer, start, hfirst hreached, hchecks⟩

/-- Behind its body a function is settled itself. Its number was taken before those of the
functions in the body. -/
theorem function {f : Source.FuncDecl} (result : Ty) (hnew : checkUndeclared scope f.name = .ok ())
    (hparams : checkParams f.params = .ok ())
    (h : SettlesOnce strictness (f.inner scope session.nextId) (f.entered session)
      (.block f.body) last) :
    SettlesOnce strictness scope session (.stmt f.stmt)
      { last with returns := (session.nextId, result) :: last.returns } := by
  obtain ⟨hle, new, hreturns, hnodup, hids⟩ := h
  have hentered : session.nextId < (f.entered session).nextId := by
    show session.nextId < session.nextId + (f.params.length + 1)
    omega
  have hlast : session.nextId < last.nextId := Nat.lt_of_lt_of_le hentered hle
  refine ⟨Nat.le_of_lt hlast, (session.nextId, result) :: new, congrArg _ hreturns, ?_, ?_⟩
  · refine List.nodup_cons.mpr ⟨fun hmem => ?_, hnodup⟩
    have hlow := (hids _ hmem).1
    omega
  · intro id hid
    rcases List.mem_cons.mp hid with rfl | hid
    · exact ⟨Nat.le_refl _, hlast, f, scope, session, .here, hnew, hparams, rfl⟩
    · obtain ⟨hlow, hhigh, g, outer, start, hreached, hchecks⟩ := hids id hid
      exact ⟨by omega, hhigh, g, outer, start, .funcBody hnew hparams hreached, hchecks⟩

end SettlesOnce

end Settling

open Lowering in
mutual

/-- However lowering a statement ends, with a statement or with a fault, what it has settled by then
are results of functions declared in it, each of them once. A fault may leave the session in the
middle of a body; so each case goes through the steps of lowering, and says at each step what holds
if it is the last one. -/
theorem Source.Stmt.lower_ends (strictness : Strictness) (scope : Scope) (session : Session)
    (s : Source.Stmt) :
    Ends (SettlesOnce strictness scope session (.stmt s)) (s.lower strictness scope) session := by
  match s with
  | .declareVar span constant name init =>
    rw [Source.Stmt.lower]
    exact .checked .refl (fun _ _ => .reading .refl (fun _ _ => .reserve 1))
  | .bump span op target =>
    rw [Source.Stmt.lower]
    exact .reading .refl (fun _ _ => .checked .refl (fun _ _ => .checked .refl (fun _ _ => .refl)))
  | .assign span target source =>
    rw [Source.Stmt.lower]
    exact .reading .refl (fun _ _ => .checked .refl (fun _ _ => .reading .refl (fun _ _ => .refl)))
  | .call span value =>
    rw [Source.Stmt.lower]
    exact .reading .refl (fun _ _ => .refl)
  | .breakLoop span | .returnNone span =>
    rw [Source.Stmt.lower]
    exact .checked .refl (fun _ _ => .refl)
  | .returnValue span value =>
    rw [Source.Stmt.lower]
    exact .checked .refl (fun _ _ => .reading .refl (fun _ _ => .refl))
  -- A part that is lowered on its own settles what it settles, also if it is refused on the way.
  | .declareFunc span name params paramsSpan ascribed body =>
    let f : Source.FuncDecl := ⟨span, name, params, paramsSpan, ascribed, body⟩
    rw [Source.Stmt.lower]
    refine .checked .refl (fun _ hnew => .checked .refl (fun _ hparams => ?_))
    have hwithin : ∀ t, SettlesOnce strictness (f.inner scope session.nextId) (f.entered session)
        (.block body) t → SettlesOnce strictness scope session (.stmt f.stmt) t :=
      fun _ h => h.within (Nat.le_add_right _ _) rfl (.funcBody hnew hparams)
    refine (Source.Stmt.lowerList_ends strictness _ _ body).run hwithin (fun _ t _ hbody => ?_)
    refine .checked (hwithin t hbody) (fun _ _ => .checked (hwithin t hbody) (fun result _ => ?_))
    exact @SettlesOnce.function _ _ _ _ f result hnew hparams hbody
  | .branch span test body orElse =>
    have hbody := Source.Stmt.lowerList_ends strictness scope session body
    have helse := fun scope session => Source.Else.lower_ends strictness scope session orElse
    by_cases hmore : orElse = .nothing
    · subst hmore
      rw [Source.Stmt.lower]
      refine .reading .refl (fun _ hcondition => ?_)
      obtain ⟨htest, htruth⟩ := lowerCondition_eq_ok hcondition
      exact hbody.last (fun _ _ => rfl)
        (fun _ h => h.within (Nat.le_refl _) rfl (.branchBody htest htruth))
    · rw [Source.Stmt.lower]
      swap
      · exact hmore
      refine .reading .refl (fun _ hcondition => ?_)
      obtain ⟨htest, htruth⟩ := lowerCondition_eq_ok hcondition
      refine hbody.run (fun _ h => h.within (Nat.le_refl _) rfl (.branchBody htest htruth))
        (fun (_, behind) mid hrun hfirst => ?_)
      have hlowered := passageLowered_of_lowerList body hrun
      exact (helse behind mid).last (fun _ _ => rfl) (fun _ h =>
        hfirst.andThen h (.branchBody htest htruth) (.branchElse htest htruth hlowered))
  | .whileLoop span test body =>
    rw [Source.Stmt.lower]
    refine .reading .refl (fun _ hcondition => ?_)
    obtain ⟨htest, htruth⟩ := lowerCondition_eq_ok hcondition
    exact (Source.Stmt.lowerList_ends strictness scope.pushLoop session body).last
      (fun _ _ => rfl) (fun _ h => h.within (Nat.le_refl _) rfl (.whileBody htest htruth))
  | .forEach span iterator collection body =>
    rw [Source.Stmt.lower]
    refine .reading .refl (fun _ hcollection => ?_)
    have hcollection := phraseLowered_of_lower collection hcollection
    exact (Source.Stmt.lowerList_ends strictness _ _ body).last (fun _ _ => rfl)
      (fun _ h => h.within (Nat.le_add_right _ _) rfl (.forEachBody hcollection rfl))
  | .forTurn span iterator turnSpan [low, high, step] body =>
    rw [Source.Stmt.lower]
    refine .reading .refl (fun _ hlow => .reading .refl (fun _ hhigh => ?_))
    refine .reading .refl (fun _ hstep => .checked .refl (fun _ hdirection => ?_))
    have hlow := phraseLowered_of_lower low hlow
    have hhigh := phraseLowered_of_lower high hhigh
    have hstep := phraseLowered_of_lower step hstep
    exact (Source.Stmt.lowerList_ends strictness _ _ body).last (fun _ _ => rfl)
      (fun _ h => h.within (Nat.le_add_right _ _) rfl
        (.forTurnBody hlow hhigh hstep hdirection rfl))
  -- With any other number of arguments nothing is lowered.
  | .forTurn span iterator turnSpan [] body
  | .forTurn span iterator turnSpan [_] body
  | .forTurn span iterator turnSpan [_, _] body
  | .forTurn span iterator turnSpan (_ :: _ :: _ :: _ :: _) body =>
    rw [Source.Stmt.lower]
    · exact .refl
    · simp

theorem Source.Else.lower_ends (strictness : Strictness) (scope : Scope) (session : Session)
    (orElse : Source.Else) :
    Ends (SettlesOnce strictness scope session (.arms orElse)) (orElse.lower strictness scope)
      session := by
  match orElse with
  | .nothing =>
    rw [Source.Else.lower]
    exact .refl
  | .elseIf test body rest =>
    rw [Source.Else.lower]
    refine .reading .refl (fun _ hcondition => ?_)
    obtain ⟨htest, htruth⟩ := lowerCondition_eq_ok hcondition
    refine (Source.Stmt.lowerList_ends strictness scope session body).run
      (fun _ h => h.within (Nat.le_refl _) rfl (.elseIfBody htest htruth))
      (fun (_, behind) mid hrun hfirst => ?_)
    have hlowered := passageLowered_of_lowerList body hrun
    exact (Source.Else.lower_ends strictness behind mid rest).last (fun _ _ => rfl) (fun _ h =>
      hfirst.andThen h (.elseIfBody htest htruth) (.elseIfElse htest htruth hlowered))
  | .block body =>
    rw [Source.Else.lower]
    exact (Source.Stmt.lowerList_ends strictness scope session body).last (fun _ _ => rfl)
      (fun _ h => h.within (Nat.le_refl _) rfl .block)

theorem Source.Stmt.lowerList_ends (strictness : Strictness) (scope : Scope) (session : Session)
    (ss : List Source.Stmt) :
    Ends (SettlesOnce strictness scope session (.block ss))
      (Source.Stmt.lowerList strictness scope ss) session := by
  match ss with
  | [] =>
    rw [Source.Stmt.lowerList]
    exact .refl
  | s :: ss =>
    rw [Source.Stmt.lowerList]
    refine (Source.Stmt.lower_ends strictness scope session s).run
      (fun _ h => h.within (Nat.le_refl _) rfl .first) (fun (_, behind) mid hrun hfirst => ?_)
    have hlowered := passageLowered_of_lower s hrun
    exact (Source.Stmt.lowerList_ends strictness behind mid ss).last (fun _ _ => rfl)
      (fun _ h => hfirst.andThen h .first (.rest hlowered))

end

/-! ### Whole programs -/

/-- The numbers of the functions whose results are settled in the course of lowering a program, the
latest first, whether the program is accepted or not. -/
def Source.settlings (strictness : Strictness) (tree : List Source.Stmt) : List Nat :=
  ((Source.Stmt.lowerList strictness .program tree).behind .initial).returns.map Prod.fst

/-- In a program that is accepted the settlings are the results that it comes with. -/
theorem Source.settlings_of_lower {strictness : Strictness} {tree : List Source.Stmt} {p : Program}
    (h : Source.lower strictness tree = .ok p) :
    Source.settlings strictness tree = p.returns.map Prod.fst := by
  unfold Source.settlings Lowering.behind
  unfold Source.lower at h
  split at h
  next hrun =>
    cases h
    rw [hrun]
  next => cases h

/-- The numbers of the library are those before the first that is given out. -/
theorem Library.id_lt_size : ∀ b ∈ Library.bindings, b.2.id < Library.size := by decide

/-- The numbers of the entities that a typed program introduces are consecutive, from the first
that the library has not used. -/
theorem Program.introduced_ids {strictness : Strictness} {tree : List Source.Stmt} {p : Program}
    (h : Source.lower strictness tree = .ok p) :
    ∃ count, p.introduced.map Entity.id = List.range' Library.size count := by
  obtain ⟨last, session, hlowered, _⟩ := passageLowered_of_program h
  obtain ⟨count, hids, _⟩ := hlowered.numbered
  exact ⟨count, hids⟩

/-- The results that a typed program comes with are those of its functions. -/
theorem Program.returns_perm {strictness : Strictness} {tree : List Source.Stmt} {p : Program}
    (h : Source.lower strictness tree = .ok p) :
    (p.returns.map Prod.fst).Perm (p.functions.map (fun g => g.1.id)) := by
  obtain ⟨last, session, hlowered, hreturns⟩ := passageLowered_of_program h
  obtain ⟨new, hnew, hperm⟩ := hlowered.settled
  rw [hreturns, hnew, Session.initial, List.append_nil]
  exact hperm

/-- A function of a typed program has a settled result, and takes what its parameters are. -/
theorem Program.function_ty {strictness : Strictness} {tree : List Source.Stmt} {p : Program}
    (h : Source.lower strictness tree = .ok p) {g : Func × List Stmt} (hg : g ∈ p.functions) :
    ∃ result, p.returns.lookup g.1.id = some result ∧
      g.1.ty p.returns = .func (g.1.params.map Var.ty) result := by
  have hid : g.1.id ∈ p.returns.map Prod.fst :=
    (Program.returns_perm h).mem_iff.mpr (List.mem_map_of_mem hg)
  obtain ⟨entry, hentry, hsame⟩ := List.mem_map.mp hid
  obtain ⟨result, hresult⟩ := Option.isSome_iff_exists.mp
    (List.lookup_isSome_iff.mpr ⟨entry, hentry, beq_iff_eq.mpr hsame.symm⟩)
  refine ⟨result, hresult, ?_⟩
  obtain ⟨x, hx, hfunction⟩ := List.mem_filterMap.mp hg
  obtain ⟨body, rfl⟩ : ∃ body, x = .stmt (.declareFunc g.1 body) := by
    unfold Node.function? at hfunction
    split at hfunction
    next f body =>
      cases hfunction
      exact ⟨body, rfl⟩
    next => cases hfunction
  obtain ⟨_, _, _, _, _, hrule⟩ := Program.of_mem_lower h hx
  cases hrule with
  | declareFunc _ _ _ hf =>
    unfold Func.ty Func.signature Func.params
    rw [hresult, hf]
    rfl

/-- Everything is declared once and settled once. The variables, functions, parameters and
iterators that a typed program introduces have different numbers, and none of these is in the
library; the functions whose results were settled are exactly those that the program declares,
each settled once; and each of these has the types of its parameters, in order, as parameter types.
No run settles a result twice, whether it ends well or not, and what it settles is the result of a
function that it has declared and never one of the library. -/
theorem Source.declared_once (strictness : Strictness) (tree : List Source.Stmt) :
    (∀ p, Source.lower strictness tree = .ok p →
      (p.introduced.map Entity.id).Nodup ∧
      (∀ x ∈ p.introduced, ∀ b ∈ Library.bindings, x.id ≠ b.2.id) ∧
      (Source.settlings strictness tree).Perm (p.functions.map (fun g => g.1.id)) ∧
      ∀ g ∈ p.functions, ∃ result, p.returns.lookup g.1.id = some result ∧
        g.1.ty p.returns = .func (g.1.params.map Var.ty) result) ∧
    (Source.settlings strictness tree).Nodup ∧
    ∀ id ∈ Source.settlings strictness tree, (∀ b ∈ Library.bindings, b.2.id ≠ id) ∧
      ∃ f ∈ Source.functions tree, Declares strictness .program .initial (.block tree) f id := by
  refine ⟨fun p h => ?_, ?_⟩
  · obtain ⟨count, hids⟩ := Program.introduced_ids h
    refine ⟨?_, fun x hx b hb => ?_, ?_, fun g hg => Program.function_ty h hg⟩
    · rw [hids]
      exact List.nodup_range' 1
    · have hmem : x.id ∈ List.range' Library.size count := hids ▸ List.mem_map_of_mem hx
      have hlow := (List.mem_range'_1.mp hmem).1
      have hhigh := Library.id_lt_size b hb
      omega
    · rw [Source.settlings_of_lower h]
      exact Program.returns_perm h
  · obtain ⟨_, new, hnew, hnodup, hids⟩ :=
      Source.Stmt.lowerList_ends strictness .program .initial tree
    have hsettlings : Source.settlings strictness tree = new.map Prod.fst := by
      rw [Source.settlings, hnew, Session.initial, List.append_nil]
    rw [hsettlings]
    refine ⟨hnodup, fun id hid => ?_⟩
    obtain ⟨hlow, _, f, hdeclares⟩ := hids id hid
    refine ⟨fun b hb heq => ?_, f, ?_, hdeclares⟩
    · have hhigh := Library.id_lt_size b hb
      have hstart : Session.initial.nextId = Library.size := rfl
      omega
    · obtain ⟨_, _, hreached, _⟩ := hdeclares
      exact hreached.functions_subset List.mem_cons_self

namespace Nesting

open Source (label mention number declare)

/-- `deal outer(n: Int) { deal inner(n) { for n in turn(0, 9, 1) { while false { all in n = n } }
return n }  return returned }`. -/
def outer (returned : Source.Expr) : Source.Stmt :=
  .declareFunc .none (label "outer") [⟨label "n", some [.int]⟩] .none none
    [.declareFunc .none (label "inner") [⟨label "n", none⟩] .none none
      [.forTurn .none (label "n") .none [number 0, number 9, number 1]
        [.whileLoop .none (.bool .none false)
          [.declareVar .none true (label "n") (mention "n")]],
       .returnValue .none (mention "n")],
     .returnValue .none returned]

/-- With one more `n` behind the function. -/
def source : List Source.Stmt :=
  [outer (.call .none (mention "inner") [mention "n"]),
    declare "n" (.call .none (mention "outer") [number 1])]

/-- The inner function is all right, the outer one is not. -/
def refused : List Source.Stmt := [outer (mention "m")]

def taken : Var := ⟨15, "n", .readOnly, .int⟩

def passed : Var := ⟨17, "n", .readOnly, .any⟩

def counted : Var := ⟨18, "n", .mutable, .int⟩

def inner : Func := ⟨16, "inner", .declared [passed] none⟩

/-- What becomes of `source`. -/
def typed : Program :=
  ⟨[.declareFunc ⟨14, "outer", .declared [taken] none⟩
      [.declareFunc inner
        [.forTurn counted (.int 0) (.int 9) (.int 1) .ascending
          [.whileLoop (.bool false) [.declareVar ⟨19, "n", .constant, .int⟩ (.var counted)]],
         .returnValue (.var passed)],
       .returnValue (.call inner [.var taken] .any)],
    .declareVar ⟨20, "n", .mutable, .any⟩
      (.call ⟨14, "outer", .declared [taken] none⟩ [.int 1] .any)],
    [(14, .any), (16, .any)]⟩

/-- Five things of one name are told apart, and both functions are settled. Where the outer function
is refused, the inner one has been settled before and nothing else has. -/
theorem declared_once_typed :
    (typed.introduced.map Entity.id).Nodup ∧
    (∀ x ∈ typed.introduced, ∀ b ∈ Library.bindings, x.id ≠ b.2.id) ∧
    (Source.settlings .strict source).Perm [14, 16] ∧
    (∃ result, inner.ty typed.returns = .func [.any] result) ∧
    Source.settlings .strict refused = [16] ∧ (Source.settlings .strict refused).Nodup ∧
    ∃ f ∈ Source.functions refused, Declares .strict .program .initial (.block refused) f 16 := by
  have hlowered : Source.lower .strict source = .ok typed := rfl
  obtain ⟨hnodup, hlibrary, hsettled, htypes⟩ :=
    (Source.declared_once .strict source).1 typed hlowered
  obtain ⟨honce, hdeclared⟩ := (Source.declared_once .strict refused).2
  obtain ⟨result, _, hty⟩ := htypes (inner, _) (.tail _ (.head _))
  have hrefused : Source.settlings .strict refused = [16] := rfl
  exact ⟨hnodup, hlibrary, hsettled, ⟨result, hty⟩, hrefused, honce,
    (hdeclared 16 (hrefused ▸ List.mem_cons_self)).2⟩

end Nesting

end Croupier
