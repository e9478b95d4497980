import Croupier.Proofs.SimplifyExec
import Croupier.Proofs.Telling

/-!
# Iterators as ordinary variables

`Croupier.Proofs.Execution` has every loop put back what its iterator held before. Here an iterator
is a variable like any other, and when a loop is over it holds what it held last (`Stmt.run`). The
store at the end then says more: a turn that never begins has still written to its iterator, and
simplifying removes such a turn.

Nobody can tell, as long as each iterator is used in its own loop only. This is `Program.Confined`.
It is said through the list of hidden variables, which at first are all iterators; inside a loop its
own iterator is hidden no longer, everything that is read must not be hidden, and the iterator of a
loop must be. Stores that agree off the hidden variables (`Store.AgreeOff`) let both ways of running
a program end alike, and what was put back is hidden again.

> `Program.simplify_runsTo`: a simplified program ends with the same outcome, and every variable
> that is no iterator holds the same.
>
> `Program.confined_of_lower`: in a lowered program each iterator is used in its own loop only.
-/

namespace Croupier

open Command

mutual

/-- What a statement does if nothing is put back behind a loop. -/
def Stmt.run (rounds : Nat) : Stmt → Command
  | .branch test body orElse =>
    choose test.truth (Stmt.runList rounds body) (Else.run rounds orElse)
  | .shortBranch test body => choose test.truth (Stmt.runList rounds body) skip
  | .whileLoop test body => whileLoop test.truth (Stmt.runList rounds body) rounds
  | .forEach iterator collection body => fun σ =>
    (collection.items σ).bind fun items =>
      forItems iterator.id (Stmt.runList rounds body) items σ
  | .forTurn iterator low high step direction body => fun σ =>
    (low.number σ).bind fun l => (high.number σ).bind fun h => (step.number σ).bind fun d =>
      turn iterator.id l h d direction (Stmt.runList rounds body) rounds σ
  | s => s.exec rounds

/-- What the further arms of an `if` do. -/
def Else.run (rounds : Nat) : Else → Command
  | .elseIf test body orElse =>
    choose test.truth (Stmt.runList rounds body) (Else.run rounds orElse)
  | .block body => Stmt.runList rounds body

/-- What statements do one after the other. -/
def Stmt.runList (rounds : Nat) : List Stmt → Command
  | [] => skip
  | s :: ss => (Stmt.run rounds s).andThen (Stmt.runList rounds ss)

end

/-- A program takes a store to an outcome and a store, iterators included. -/
def Program.RunsTo (p : Program) (σ : Store) (outcome : Outcome) (τ : Store) : Prop :=
  ∃ rounds, Stmt.runList rounds p.body σ = some (outcome, τ)

/-! ### Stores that agree -/

/-- The variables hold the same, unless they are hidden. -/
def Store.AgreeOff (hidden : List Nat) (σ σ' : Store) : Prop := ∀ id, id ∉ hidden → σ id = σ' id

/-- The variables that are still hidden in the loop with this iterator. -/
def hiddenWithin (hidden : List Nat) (id : Nat) : List Nat := hidden.filter (fun i => i != id)

/-- Inside a loop everything is hidden that is hidden outside, apart from its iterator. -/
theorem mem_hiddenWithin {hidden : List Nat} {id i : Nat} :
    i ∈ hiddenWithin hidden id ↔ i ∈ hidden ∧ i ≠ id := by
  simp [hiddenWithin]

theorem hiddenWithin_subset (hidden : List Nat) (id : Nat) : hiddenWithin hidden id ⊆ hidden :=
  List.filter_subset_self _

namespace Store.AgreeOff

variable {hidden few : List Nat} {σ σ' : Store}

theorem refl (hidden : List Nat) (σ : Store) : AgreeOff hidden σ σ := fun _ _ => rfl

theorem symm (h : AgreeOff hidden σ σ') : AgreeOff hidden σ' σ := fun id hid => (h id hid).symm

theorem trans {σ'' : Store} (h : AgreeOff hidden σ σ') (h' : AgreeOff hidden σ' σ'') :
    AgreeOff hidden σ σ'' :=
  fun id hid => (h id hid).trans (h' id hid)

/-- The fewer are hidden, the more has to agree. -/
theorem mono (h : AgreeOff few σ σ') (hsub : few ⊆ hidden) : AgreeOff hidden σ σ' :=
  fun id hid => h id (fun hmem => hid (hsub hmem))

/-- A variable that is written to in both stores need not be hidden any longer. -/
theorem set_own (h : AgreeOff hidden σ σ') (id : Nat) (x : Option Value) :
    AgreeOff (hiddenWithin hidden id) (σ.set id x) (σ'.set id x) := by
  intro i hi
  unfold Store.set
  by_cases hid : i = id
  · rw [if_pos hid, if_pos hid]
  · rw [if_neg hid, if_neg hid]
    exact h i (fun hmem => hi (mem_hiddenWithin.mpr ⟨hmem, hid⟩))

theorem set (h : AgreeOff hidden σ σ') (id : Nat) (x : Option Value) :
    AgreeOff hidden (σ.set id x) (σ'.set id x) :=
  (h.set_own id x).mono (hiddenWithin_subset hidden id)

/-- Writing to a hidden variable on one side goes unnoticed. -/
theorem set_hidden (h : AgreeOff hidden σ σ') {id : Nat} (hid : id ∈ hidden) (x : Option Value) :
    AgreeOff hidden (σ.set id x) σ' := by
  intro i hi
  have hne : i ≠ id := fun heq => hi (heq ▸ hid)
  rw [Store.set, if_neg hne]
  exact h i hi

end Store.AgreeOff

/-! ### Commands that end alike -/

/-- Both get nowhere, or both get to the same outcome and to stores that agree. -/
def EndAlike (hidden : List Nat) : Option (Outcome × Store) → Option (Outcome × Store) → Prop :=
  Option.Rel (fun r r' => r.1 = r'.1 ∧ r.2.AgreeOff hidden r'.2)

/-- What it means to end alike, with both sides taken apart. -/
theorem EndAlike.cases {hidden : List Nat} {r r' : Option (Outcome × Store)}
    (h : EndAlike hidden r r') :
    (r = none ∧ r' = none) ∨
      ∃ outcome τ τ', r = some (outcome, τ) ∧ r' = some (outcome, τ') ∧ τ.AgreeOff hidden τ' := by
  cases h with
  | none => exact .inl ⟨rfl, rfl⟩
  | @some first second h =>
    obtain ⟨outcome, τ⟩ := first
    obtain ⟨outcome', τ'⟩ := second
    obtain ⟨rfl, hagree⟩ := h
    exact .inr ⟨outcome, τ, τ', rfl, rfl, hagree⟩

/-- Hiding more asks for less. -/
theorem EndAlike.mono {hidden few : List Nat} {r r' : Option (Outcome × Store)}
    (h : EndAlike few r r') (hsub : few ⊆ hidden) : EndAlike hidden r r' := by
  rcases h.cases with ⟨rfl, rfl⟩ | ⟨outcome, τ, τ', rfl, rfl, hagree⟩
  · exact .none
  · exact .some ⟨rfl, hagree.mono hsub⟩

namespace Command

/-- From stores that agree, both commands end alike. -/
def AlikeOff (hidden : List Nat) (c d : Command) : Prop :=
  ∀ σ σ', σ.AgreeOff hidden σ' → EndAlike hidden (c σ) (d σ')

namespace AlikeOff

variable {hidden : List Nat} {c c' d d' : Command}

theorem skip : AlikeOff hidden skip skip := fun _ _ h => .some ⟨rfl, h⟩

theorem nowhere : AlikeOff hidden (fun _ => none) (fun _ => none) := fun _ _ _ => .none

/-- Writing what does not depend on hidden variables. -/
theorem write (id : Nat) {value : Store → Option Value}
    (hvalue : ∀ {σ σ' : Store}, σ.AgreeOff hidden σ' → value σ = value σ') :
    AlikeOff hidden (write id value) (write id value) := by
  intro σ σ' h
  unfold Command.write
  rw [hvalue h]
  cases value σ' with
  | none => exact .none
  | some x => exact .some ⟨rfl, h.set id (some x)⟩

/-- One command after the other, where the second one starts from stores that agree again. -/
theorem andThen (hc : AlikeOff hidden c c') (hd : AlikeOff hidden d d') :
    AlikeOff hidden (c.andThen d) (c'.andThen d') := by
  intro σ σ' h
  unfold Command.andThen
  rcases (hc σ σ' h).cases with ⟨hfirst, hfirst'⟩ | ⟨outcome, τ, τ', hfirst, hfirst', hagree⟩ <;>
    rw [hfirst, hfirst']
  · exact .none
  · cases outcome with
    | normal => exact hd τ τ' hagree
    | broken => exact .some ⟨rfl, hagree⟩

/-- A choice whose test does not depend on hidden variables. -/
theorem choose {test : Store → Option Bool}
    (htest : ∀ {σ σ' : Store}, σ.AgreeOff hidden σ' → test σ = test σ')
    (hc : AlikeOff hidden c c') (hd : AlikeOff hidden d d') :
    AlikeOff hidden (choose test c d) (choose test c' d') := by
  intro σ σ' h
  unfold Command.choose
  rw [htest h]
  match test σ' with
  | none => exact .none
  | some true => exact hc σ σ' h
  | some false => exact hd σ σ' h

/-- Inside the round fewer variables may be hidden than behind it. -/
theorem round {few : List Nat} {σ σ' : Store} (hsub : few ⊆ hidden)
    (hfirst : EndAlike few (c σ) (c' σ')) (hothers : AlikeOff hidden d d') :
    EndAlike hidden (c.round d σ) (c'.round d' σ') := by
  unfold Command.round
  rcases hfirst.cases with ⟨hfirst, hfirst'⟩ | ⟨outcome, τ, τ', hfirst, hfirst', hagree⟩ <;>
    rw [hfirst, hfirst']
  · exact .none
  · cases outcome with
    | normal => exact hothers τ τ' (hagree.mono hsub)
    | broken => exact .some ⟨rfl, hagree.mono hsub⟩

/-- A loop whose test does not depend on hidden variables, by induction on the rounds. -/
theorem whileLoop {test : Store → Option Bool}
    (htest : ∀ {σ σ' : Store}, σ.AgreeOff hidden σ' → test σ = test σ')
    (hc : AlikeOff hidden c c') (rounds : Nat) :
    AlikeOff hidden (whileLoop test c rounds) (whileLoop test c' rounds) := by
  induction rounds with
  | zero => exact nowhere
  | succ rounds ih =>
    refine .choose htest (fun σ σ' h => ?_) .skip
    exact AlikeOff.round (List.Subset.refl _) (hc σ σ' h) ih

/-- Every round begins by writing to the iterator, so there it is not hidden. -/
theorem forItems {id : Nat} (hc : AlikeOff (hiddenWithin hidden id) c c') (items : List Value) :
    AlikeOff hidden (forItems id c items) (forItems id c' items) := by
  induction items with
  | nil => exact .skip
  | cons x items ih =>
    intro σ σ' h
    exact AlikeOff.round (hiddenWithin_subset hidden id) (hc _ _ (h.set_own id (some x))) ih

/-- A turn begins by writing to its iterator, once and for all its rounds. -/
theorem turn {id : Nat} (hc : AlikeOff (hiddenWithin hidden id) c c') (low high step : Int)
    (direction : Direction) (rounds : Nat) :
    AlikeOff hidden (turn id low high step direction c rounds)
      (turn id low high step direction c' rounds) := by
  have hshown : ∀ {σ σ' : Store}, σ.AgreeOff (hiddenWithin hidden id) σ' → σ id = σ' id :=
    fun h => h id (fun hmem => (mem_hiddenWithin.mp hmem).2 rfl)
  have hwith : ∀ (op : BinaryOperator) (n : Int) {σ σ' : Store},
      σ.AgreeOff (hiddenWithin hidden id) σ' → op.withVar id n σ = op.withVar id n σ' := by
    intro op n σ σ' h
    rw [BinaryOperator.withVar, BinaryOperator.withVar, hshown h]
  have htest : ∀ {σ σ' : Store}, σ.AgreeOff (hiddenWithin hidden id) σ' →
      (direction.operator.withVar id high σ).bind Value.bool? =
        (direction.operator.withVar id high σ').bind Value.bool? :=
    fun h => by rw [hwith direction.operator high h]
  have hloop := AlikeOff.whileLoop htest (hc.andThen (.write id (hwith .add step))) rounds
  intro σ σ' h
  exact (hloop _ _ (h.set_own id (some (.int low)))).mono (hiddenWithin_subset hidden id)

/-- What is put back is hidden. -/
theorem owning {id : Nat} (hid : id ∈ hidden) (hc : AlikeOff hidden c d) :
    AlikeOff hidden (owning id c) d := by
  intro σ σ' h
  unfold Command.owning
  rcases (hc σ σ' h).cases with ⟨hc, hd⟩ | ⟨outcome, τ, τ', hc, hd, hagree⟩ <;> rw [hc, hd]
  · exact .none
  · exact .some ⟨rfl, hagree.set_hidden hid (σ id)⟩

end AlikeOff

end Command

/-! ### Expressions that avoid variables -/

/-- No hidden variable is mentioned. -/
def Expr.Avoids (hidden : List Nat) (e : Expr) : Prop :=
  ∀ v : Var, .expr (.var v) ∈ e.nodes → v.id ∉ hidden

mutual

/-- The value of an expression depends on the variables that it mentions, and on no others. -/
theorem Expr.eval_congr {σ σ' : Store} (e : Expr)
    (h : ∀ v : Var, .expr (.var v) ∈ e.nodes → σ v.id = σ' v.id) : e.eval σ = e.eval σ' := by
  match e with
  | .int _ | .float _ | .string _ | .bool _ | .func _ | .emptyArray _ | .call _ _ _
  | .binary (.intrinsic _) _ _ _ | .unary (.intrinsic _) _ _ => rfl
  | .var v => exact h v List.mem_cons_self
  | .array items _ =>
    rw [Expr.eval, Expr.eval,
      Expr.evalList_congr items (fun v hv => h v (List.mem_cons_of_mem _ hv))]
  | .object members =>
    rw [Expr.eval, Expr.eval,
      Expr.evalMembers_congr members (fun v hv => h v (List.mem_cons_of_mem _ hv))]
  | .binary (.operator op) left right _ =>
    rw [Expr.eval, Expr.eval,
      left.eval_congr (fun v hv => h v (List.mem_cons_of_mem _ (List.mem_append_left _ hv))),
      right.eval_congr (fun v hv => h v (List.mem_cons_of_mem _ (List.mem_append_right _ hv)))]
  | .unary (.operator op) operand _ =>
    rw [Expr.eval, Expr.eval, operand.eval_congr (fun v hv => h v (List.mem_cons_of_mem _ hv))]
  | .subscript base index _ =>
    rw [Expr.eval, Expr.eval,
      base.eval_congr (fun v hv => h v (List.mem_cons_of_mem _ (List.mem_append_left _ hv))),
      index.eval_congr (fun v hv => h v (List.mem_cons_of_mem _ (List.mem_append_right _ hv)))]
  | .member base field _ =>
    rw [Expr.eval, Expr.eval, base.eval_congr (fun v hv => h v (List.mem_cons_of_mem _ hv))]

theorem Expr.evalList_congr {σ σ' : Store} (es : List Expr)
    (h : ∀ v : Var, .expr (.var v) ∈ Expr.nodesList es → σ v.id = σ' v.id) :
    Expr.evalList σ es = Expr.evalList σ' es := by
  match es with
  | [] => rfl
  | e :: es =>
    rw [Expr.evalList, Expr.evalList, e.eval_congr (fun v hv => h v (List.mem_append_left _ hv)),
      Expr.evalList_congr es (fun v hv => h v (List.mem_append_right _ hv))]

theorem Expr.evalMembers_congr {σ σ' : Store} (members : List (String × Expr))
    (h : ∀ v : Var, .expr (.var v) ∈ Expr.nodesMembers members → σ v.id = σ' v.id) :
    Expr.evalMembers σ members = Expr.evalMembers σ' members := by
  match members with
  | [] => rfl
  | (key, e) :: members =>
    rw [Expr.evalMembers, Expr.evalMembers,
      e.eval_congr (fun v hv => h v (List.mem_append_left _ hv)),
      Expr.evalMembers_congr members (fun v hv => h v (List.mem_append_right _ hv))]

end

namespace Expr.Avoids

variable {hidden : List Nat} {e : Expr}

/-- An expression that avoids the hidden variables has one value in stores that agree. -/
theorem eval_eq (h : e.Avoids hidden) {σ σ' : Store} (hagree : σ.AgreeOff hidden σ') :
    e.eval σ = e.eval σ' :=
  e.eval_congr (fun v hv => hagree v.id (h v hv))

theorem truth_eq (h : e.Avoids hidden) {σ σ' : Store} (hagree : σ.AgreeOff hidden σ') :
    e.truth σ = e.truth σ' := by
  rw [truth, truth, h.eval_eq hagree]

theorem number_eq (h : e.Avoids hidden) {σ σ' : Store} (hagree : σ.AgreeOff hidden σ') :
    e.number σ = e.number σ' := by
  rw [number, number, h.eval_eq hagree]

theorem items_eq (h : e.Avoids hidden) {σ σ' : Store} (hagree : σ.AgreeOff hidden σ') :
    e.items σ = e.items σ' := by
  rw [items, items, h.eval_eq hagree]

/-- Simplifying brings no new mentions. -/
theorem simplify (h : e.Avoids hidden) (returns : Returns) :
    (e.simplify returns).Avoids hidden :=
  fun v hv => h v (@Expr.mention_kept returns e (.var v) hv)

end Expr.Avoids

/-! ### Iterators in their own loops -/

mutual

/-- Nothing that is hidden is mentioned, and the iterators of loops are hidden outside of them. -/
def Stmt.Confined (hidden : List Nat) : Stmt → Prop
  | .declareVar _ e | .bump _ e | .call e | .returnValue e => e.Avoids hidden
  | .assign target source => target.Avoids hidden ∧ source.Avoids hidden
  | .breakLoop | .returnNone => True
  | .declareFunc _ body => Stmt.ConfinedList hidden body
  | .branch test body orElse =>
    test.Avoids hidden ∧ Stmt.ConfinedList hidden body ∧ orElse.Confined hidden
  | .shortBranch test body | .whileLoop test body =>
    test.Avoids hidden ∧ Stmt.ConfinedList hidden body
  | .forEach iterator collection body =>
    iterator.id ∈ hidden ∧ collection.Avoids hidden ∧
      Stmt.ConfinedList (hiddenWithin hidden iterator.id) body
  | .forTurn iterator low high step _ body =>
    iterator.id ∈ hidden ∧ (low.Avoids hidden ∧ high.Avoids hidden ∧ step.Avoids hidden) ∧
      Stmt.ConfinedList (hiddenWithin hidden iterator.id) body

/-- The same for the further arms of an `if`. -/
def Else.Confined (hidden : List Nat) : Else → Prop
  | .elseIf test body orElse =>
    test.Avoids hidden ∧ Stmt.ConfinedList hidden body ∧ orElse.Confined hidden
  | .block body => Stmt.ConfinedList hidden body

/-- The same for statements that follow each other. -/
def Stmt.ConfinedList (hidden : List Nat) : List Stmt → Prop
  | [] => True
  | s :: ss => s.Confined hidden ∧ Stmt.ConfinedList hidden ss

end

/-- The iterator of a node, if it is a loop that has one. -/
def Node.iterator? : Node → Option Nat
  | .stmt (.forEach v _ _) | .stmt (.forTurn v _ _ _ _ _) => some v.id
  | _ => none

/-- The iterators of a program. -/
def Program.iterators (p : Program) : List Nat := p.nodes.filterMap Node.iterator?

/-- Each iterator is used in its own loop only. -/
def Program.Confined (p : Program) : Prop := Stmt.ConfinedList p.iterators p.body

mutual

/-- A confined statement does the same in both ways, as far as can be told. -/
theorem Stmt.exec_alike {hidden : List Nat} (rounds : Nat) (s : Stmt) (h : s.Confined hidden) :
    AlikeOff hidden (s.exec rounds) (s.run rounds) := by
  match s with
  | .declareVar v init =>
    exact .write v.id (fun hagree => Expr.Avoids.eval_eq h hagree)
  | .assign target source =>
    obtain ⟨_, hsource⟩ := h
    cases target with
    | var v => exact .write v.id hsource.eval_eq
    | _ => exact .nowhere
  | .bump op target =>
    cases target with
    | var v =>
      have hv : v.id ∉ hidden := h v List.mem_cons_self
      refine .write v.id (fun hagree => ?_)
      rw [BinaryOperator.withVar, BinaryOperator.withVar, hagree v.id hv]
    | _ => exact .nowhere
  | .call value =>
    intro σ σ' hagree
    have hvalue : value.eval σ = value.eval σ' := Expr.Avoids.eval_eq h hagree
    show EndAlike hidden ((value.eval σ).map _) ((value.eval σ').map _)
    rw [hvalue]
    cases value.eval σ' with
    | none => exact .none
    | some x => exact .some ⟨rfl, hagree⟩
  | .breakLoop => exact fun σ σ' hagree => .some ⟨rfl, hagree⟩
  | .declareFunc _ _ | .returnValue _ | .returnNone => exact .nowhere
  | .branch test body orElse =>
    obtain ⟨htest, hbody, helse⟩ := h
    exact .choose htest.truth_eq (Stmt.execList_alike rounds body hbody)
      (Else.exec_alike rounds orElse helse)
  | .shortBranch test body =>
    obtain ⟨htest, hbody⟩ := h
    exact .choose htest.truth_eq (Stmt.execList_alike rounds body hbody) .skip
  | .whileLoop test body =>
    obtain ⟨htest, hbody⟩ := h
    exact .whileLoop htest.truth_eq (Stmt.execList_alike rounds body hbody) rounds
  | .forEach iterator collection body =>
    obtain ⟨hid, hcollection, hbody⟩ := h
    intro σ σ' hagree
    show EndAlike hidden ((collection.items σ).bind _) ((collection.items σ').bind _)
    rw [hcollection.items_eq hagree]
    cases collection.items σ' with
    | none => exact .none
    | some items =>
      have hloop := AlikeOff.forItems (Stmt.execList_alike rounds body hbody) items
      exact hloop.owning hid σ σ' hagree
  | .forTurn iterator low high step direction body =>
    obtain ⟨hid, ⟨hlow, hhigh, hstep⟩, hbody⟩ := h
    intro σ σ' hagree
    show EndAlike hidden ((low.number σ).bind _) ((low.number σ').bind _)
    rw [hlow.number_eq hagree, hhigh.number_eq hagree, hstep.number_eq hagree]
    match low.number σ', high.number σ', step.number σ' with
    | none, _, _ | some _, none, _ | some _, some _, none => exact .none
    | some l, some u, some d =>
      have hloop := AlikeOff.turn (Stmt.execList_alike rounds body hbody) l u d direction rounds
      exact hloop.owning hid σ σ' hagree

theorem Else.exec_alike {hidden : List Nat} (rounds : Nat) (e : Else) (h : e.Confined hidden) :
    AlikeOff hidden (e.exec rounds) (e.run rounds) := by
  match e with
  | .elseIf test body orElse =>
    obtain ⟨htest, hbody, helse⟩ := h
    exact .choose htest.truth_eq (Stmt.execList_alike rounds body hbody)
      (Else.exec_alike rounds orElse helse)
  | .block body => exact Stmt.execList_alike rounds body h

theorem Stmt.execList_alike {hidden : List Nat} (rounds : Nat) (ss : List Stmt)
    (h : Stmt.ConfinedList hidden ss) :
    AlikeOff hidden (Stmt.execList rounds ss) (Stmt.runList rounds ss) := by
  match ss with
  | [] => exact .skip
  | s :: ss =>
    obtain ⟨hfirst, hrest⟩ := h
    exact (Stmt.exec_alike rounds s hfirst).andThen (Stmt.execList_alike rounds ss hrest)

end

/-! ### Simplifying -/

/-- Statements that follow each other are confined one by one. -/
theorem Stmt.confinedList_append {hidden : List Nat} {ss ts : List Stmt}
    (hs : Stmt.ConfinedList hidden ss) (ht : Stmt.ConfinedList hidden ts) :
    Stmt.ConfinedList hidden (ss ++ ts) := by
  induction ss with
  | nil => exact ht
  | cons s ss ih => exact ⟨hs.1, ih hs.2⟩

/-- Arms are confined if the statements are that they amount to. -/
theorem Else.confinedList_statements {hidden : List Nat} (e : Else) :
    Stmt.ConfinedList hidden e.statements ↔ e.Confined hidden := by
  cases e with
  | elseIf test body orElse => exact and_iff_left trivial
  | block body => exact Iff.rfl

/-- The same for any passage. -/
def Passage.Confined (hidden : List Nat) : Passage → Prop
  | .stmt s => s.Confined hidden
  | .arms e => e.Confined hidden
  | .block ss => Stmt.ConfinedList hidden ss

/-- What is left of a confined passage is confined: nothing new is mentioned, and what is left of
a loop stays in the loop. -/
theorem PassageSimplified.confined {returns : Returns} {d d' : Passage} {hidden : List Nat}
    (h : PassageSimplified returns d d') (hd : d.Confined hidden) : d'.Confined hidden := by
  induction h generalizing hidden with
  | declareVar | bump | call | returnValue => exact ⟨Expr.Avoids.simplify hd returns, trivial⟩
  | assign => exact ⟨⟨hd.1.simplify returns, hd.2.simplify returns⟩, trivial⟩
  | breakLoop | returnNone => exact ⟨trivial, trivial⟩
  | assignSelf | shortPassed | whileNever | forEachNever | forTurnNever | nil => trivial
  | declareFunc _ ih => exact ⟨ih hd, trivial⟩
  | branch _ _ _ ihbody ihelse =>
    exact ⟨⟨hd.1.simplify returns, ihbody hd.2.1, ihelse hd.2.2⟩, trivial⟩
  | branchTaken _ _ ih => exact ih hd.2.1
  | branchPassed _ _ ih => exact (Else.confinedList_statements _).mpr (ih hd.2.2)
  | shortBranch _ _ ih | whileLoop _ _ ih => exact ⟨⟨hd.1.simplify returns, ih hd.2⟩, trivial⟩
  | shortTaken _ _ ih => exact ih hd.2
  | forEach _ _ ih => exact ⟨⟨hd.1, hd.2.1.simplify returns, ih hd.2.2⟩, trivial⟩
  | forTurn _ _ ih =>
    obtain ⟨hid, ⟨hlow, hhigh, hstep⟩, hbody⟩ := hd
    have hbounds := And.intro (hlow.simplify returns)
      (And.intro (hhigh.simplify returns) (hstep.simplify returns))
    exact ⟨⟨hid, hbounds, ih hbody⟩, trivial⟩
  | @elseIf test body orElse ss _ ih =>
    refine (Else.confinedList_statements _).mp ?_
    rw [Else.statements_ofList]
    exact ih hd
  | block _ ih => exact ih hd
  | cons _ _ ihfirst ihrest => exact Stmt.confinedList_append (ihfirst hd.1) (ihrest hd.2)

/-- If each iterator is used in its own loop only and no variable is named `true` or `false`, then
a simplified program ends with the same outcome, and whatever is no iterator holds the same. -/
theorem Program.simplify_runsTo {p : Program} {σ τ : Store} {outcome : Outcome}
    (hnames : NoTruthNames p.nodes) (hconfined : p.Confined) (h : p.RunsTo σ outcome τ) :
    ∃ τ', p.simplify.RunsTo σ outcome τ' ∧ ∀ id, id ∉ p.iterators → τ' id = τ id := by
  obtain ⟨rounds, hrun⟩ := h
  have hagree := Store.AgreeOff.refl p.iterators σ
  have hsimplified : Stmt.ConfinedList p.iterators p.simplify.body :=
    (passageSimplified_list p.returns p.body).confined hconfined
  -- From the plain run to the one that puts iterators back, there to the simplified program, and
  -- from it to its plain run.
  rcases (Stmt.execList_alike rounds p.body hconfined σ σ hagree).cases with
    ⟨_, hnone⟩ | ⟨outcome', υ, τ₁, hexec, hplain, hbefore⟩
  · rw [hnone] at hrun
    cases hrun
  rw [hplain] at hrun
  cases hrun
  have hkept := Stmt.execList_simplify p.returns rounds p.body hnames σ _ hexec
  rcases (Stmt.execList_alike rounds p.simplify.body hsimplified σ σ hagree).cases with
    ⟨hnone, _⟩ | ⟨outcome'', υ', τ', hexec', hplain', hafter⟩
  · cases hnone.symm.trans hkept
  cases hexec'.symm.trans hkept
  exact ⟨τ', ⟨rounds, hplain'⟩, hafter.symm.trans hbefore⟩

/-- What an iterator itself holds may change: a turn that is over before it starts has written to
it. -/
example :
    let i : Var := ⟨14, "i", .mutable, .int⟩
    let p : Program := ⟨[.forTurn i (.int 5) (.int 3) (.int 1) .ascending []], []⟩
    ∃ τ τ', p.RunsTo (fun _ => none) .normal τ ∧ p.simplify.RunsTo (fun _ => none) .normal τ' ∧
      τ 14 = some (.int 5) ∧ τ' 14 = none :=
  ⟨_, _, ⟨1, rfl⟩, ⟨1, rfl⟩, rfl, rfl⟩

/-! ### Lowered programs -/

/-- The iterators of a passage, at any depth. -/
def Passage.iterators (d : Passage) : List Nat := d.nodes.filterMap Node.iterator?

/-- Expressions have no iterators. -/
theorem Expr.iterators_nodes (e : Expr) : e.nodes.filterMap Node.iterator? = [] := by
  rw [List.filterMap_eq_nil_iff]
  intro x hx
  cases x with
  | expr _ => rfl
  | stmt s => exact absurd hx (Expr.stmt_not_mem_nodes s e)

/-- Besides its own iterator, a statement has those in its blocks. -/
theorem Stmt.iterators_nodes (s : Stmt) :
    s.nodes.filterMap Node.iterator? =
      (Node.stmt s).iterator?.toList ++ s.inside.filterMap Node.iterator? := by
  cases s <;>
    simp [Stmt.nodes, Stmt.inside, Node.iterator?, List.filterMap_cons, Expr.iterators_nodes]

/-- The same for an arm behind the first one. -/
theorem Else.iterators_nodes (test : Expr) (body : List Stmt) (orElse : Else) :
    (Else.elseIf test body orElse).nodes.filterMap Node.iterator? =
      (Stmt.branch test body orElse).inside.filterMap Node.iterator? :=
  Stmt.iterators_nodes (.branch test body orElse)

/-- An iterator is introduced by its loop. -/
theorem Node.introduces_iterator {x : Node} {id : Nat} (h : x.iterator? = some id) :
    ∃ y ∈ x.introduces, y.id = id := by
  unfold Node.iterator? at h
  split at h
  next v _ _ =>
    cases h
    exact ⟨.var v, List.mem_singleton_self _, rfl⟩
  next v _ _ _ _ _ =>
    cases h
    exact ⟨.var v, List.mem_singleton_self _, rfl⟩
  next => cases h

/-- Iterators have numbers that were given out meanwhile. -/
theorem PassageLowered.iterators_between {strictness : Strictness} {scope scope' : Scope}
    {session session' : Session} {d : Source.Passage} {d' : Passage}
    (h : PassageLowered strictness scope session d d' scope' session') :
    ∀ id ∈ d'.iterators, session.nextId ≤ id ∧ id < session'.nextId := by
  intro id hid
  obtain ⟨x, hx, hiterator⟩ := List.mem_filterMap.mp hid
  obtain ⟨y, hy, rfl⟩ := Node.introduces_iterator hiterator
  obtain ⟨count, hids, hlast⟩ := h.numbered
  have hmem : y.id ∈ d'.introduced.map Entity.id :=
    List.mem_map_of_mem (List.mem_flatMap.mpr ⟨x, hx, hy⟩)
  rw [hids, List.mem_range'_1] at hmem
  omega

/-- Of the numbers from `low` up to `high`, the iterators in the list are hidden, and no others. -/
def HidesBetween (hidden : List Nat) (low high : Nat) (iterators : List Nat) : Prop :=
  ∀ id, low ≤ id → id < high → (id ∈ hidden ↔ id ∈ iterators)

namespace HidesBetween

variable {hidden xs ys : List Nat} {low mid high : Nat}

/-- Fewer numbers ask for less. -/
theorem drop (h : HidesBetween hidden low high xs) (hle : low ≤ mid) :
    HidesBetween hidden mid high xs :=
  fun id hlow hhigh => h id (Nat.le_trans hle hlow) hhigh

/-- A passage in two parts hides in each of them what belongs to it. -/
theorem split (h : HidesBetween hidden low high (xs ++ ys)) (hle : low ≤ mid) (hle' : mid ≤ high)
    (hxs : ∀ id ∈ xs, id < mid) (hys : ∀ id ∈ ys, mid ≤ id) :
    HidesBetween hidden low mid xs ∧ HidesBetween hidden mid high ys := by
  constructor
  · intro id hlow hmid
    rw [h id hlow (by omega), List.mem_append]
    exact or_iff_left (fun hid => absurd (hys id hid) (by omega))
  · intro id hmid hhigh
    rw [h id (by omega) hhigh, List.mem_append]
    exact or_iff_right (fun hid => absurd (hxs id hid) (by omega))

/-- The iterator of a loop, which has the first of the numbers, is hidden outside of the loop and
not inside. -/
theorem loop (h : HidesBetween hidden low high (low :: xs)) (hlt : low < high) :
    low ∈ hidden ∧ HidesBetween (hiddenWithin hidden low) (low + 1) high xs := by
  refine ⟨(h low (Nat.le_refl _) hlt).mpr List.mem_cons_self, fun id hlow hhigh => ?_⟩
  have hne : id ≠ low := by omega
  rw [mem_hiddenWithin, h id (by omega) hhigh, List.mem_cons]
  simp [hne]

end HidesBetween

/-- No variable of the scope is hidden. -/
def Scope.Shows (scope : Scope) (hidden : List Nat) : Prop :=
  ∀ v, scope.Holds (.var v) → v.id ∉ hidden

namespace Scope.Shows

variable {scope : Scope} {hidden : List Nat}

/-- Binding adds to a scope what it shows, as long as it is not hidden. -/
theorem bind (h : scope.Shows hidden) (name : String) {x : Entity}
    (hx : ∀ v, x = .var v → v.id ∉ hidden) : (scope.bind name x).Shows hidden := by
  intro v hv
  rcases holds_bind.mp hv with heq | hv
  · exact hx v heq.symm
  · exact h v hv

/-- The scope in which the body of a loop with an iterator is read. -/
theorem iterator (h : scope.Shows hidden) (name : String) (v : Var) :
    (scope.pushLoop.bind name (.var v)).Shows (hiddenWithin hidden v.id) := by
  intro w hw hhidden
  obtain ⟨hmem, hne⟩ := mem_hiddenWithin.mp hhidden
  rcases holds_bind.mp hw with heq | hw
  · cases heq
    exact hne rfl
  · exact h w (holds_pushLoop.mp hw) hmem

/-- The scope in which the body of a function is read. -/
theorem function (h : scope.Shows hidden) (name : String) (f : Func) {vars : List Var}
    (hvars : ∀ v ∈ vars, v.id ∉ hidden) :
    ((scope.bind name (.func f)).pushFunction.bindAll vars).Shows hidden := by
  intro v hv
  rcases holds_bindAll.mp hv with ⟨w, hw, heq⟩ | hv
  · cases heq
    exact hvars v hw
  · have hbound : (scope.bind name (.func f)).Shows hidden := h.bind name (by simp)
    exact hbound v (holds_pushFunction.mp hv)

end Scope.Shows

/-- What is read in a scope mentions nothing that the scope does not show. -/
theorem PhraseLowered.avoids {setting : Setting} {e : Source.Expr} {e' : Expr} {hidden : List Nat}
    (h : PhraseLowered setting (.expr e) (.expr e')) (hshows : setting.scope.Shows hidden) :
    e'.Avoids hidden := by
  intro v hv
  obtain ⟨_, _, heq, hmention⟩ := h.of_mem hv
  cases heq
  obtain ⟨name, hfound⟩ := PhraseLowered.mention_found (x := .var v) hmention
  exact hshows v (Scope.holds_of_lookup hfound)

/-- Parameters have the numbers behind that of their function. -/
theorem mem_paramVars_between {id : Nat} {params : List Source.Param} {v : Var}
    (h : v ∈ paramVars id params) : id ≤ v.id ∧ v.id < id + params.length := by
  have hmem : v.id ∈ (paramVars id params).map Var.id := List.mem_map_of_mem h
  rw [paramVars_ids, List.mem_range'_1] at hmem
  exact hmem

/-- Passages that are lowered one after the other hide each what belongs to it. -/
theorem PassageLowered.hides_split {strictness : Strictness} {scope scope' scope'' : Scope}
    {session session' session'' : Session} {d e : Source.Passage} {d' e' : Passage}
    {hidden : List Nat} (hfirst : PassageLowered strictness scope session d d' scope' session')
    (hrest : PassageLowered strictness scope' session' e e' scope'' session'')
    (h : HidesBetween hidden session.nextId session''.nextId (d'.iterators ++ e'.iterators)) :
    HidesBetween hidden session.nextId session'.nextId d'.iterators ∧
      HidesBetween hidden session'.nextId session''.nextId e'.iterators :=
  h.split hfirst.extends.nextId_le hrest.extends.nextId_le
    (fun id hid => (hfirst.iterators_between id hid).2)
    (fun id hid => (hrest.iterators_between id hid).1)

/-- What is lowered is confined, and what is behind it is still shown. The induction carries both
which variables the scope shows and which of the numbers to be given out are hidden: those that
iterators will get. -/
theorem PassageLowered.confined {strictness : Strictness} {scope scope' : Scope}
    {session session' : Session} {d : Source.Passage} {d' : Passage} {hidden : List Nat}
    (h : PassageLowered strictness scope session d d' scope' session')
    (hshows : scope.Shows hidden)
    (hhides : HidesBetween hidden session.nextId session'.nextId d'.iterators) :
    d'.Confined hidden ∧ scope'.Shows hidden := by
  induction h generalizing hidden with
  | @declareVar _ session _ _ _ _ _ v _ hinit hv =>
    rw [Passage.iterators, Passage.nodes, Stmt.iterators_nodes] at hhides
    have hfresh : v.id ∉ hidden := by
      rw [hv, hhides session.nextId (Nat.le_refl _) (Nat.lt_succ_self _)]
      exact List.not_mem_nil
    refine ⟨hinit.avoids hshows, hshows.bind _ (fun w heq => ?_)⟩
    cases heq
    exact hfresh
  | @declareFunc _ _ session session' _ _ params _ _ _ _ vars _ _ _ _ hvars _ hbody _ _ ih =>
    rw [Passage.iterators, Passage.nodes, Stmt.iterators_nodes] at hhides
    have hlast : session.nextId + (params.length + 1) ≤ session'.nextId :=
      hbody.extends.nextId_le
    -- The iterators of the body come behind the parameters.
    have hparams : ∀ v ∈ vars, v.id ∉ hidden := by
      intro v hv hmem
      have hbetween := mem_paramVars_between (hvars ▸ hv)
      have hlt : v.id < session'.nextId := by omega
      have hinside := (hhides v.id (by omega) hlt).mp hmem
      have hlow : session.nextId + (params.length + 1) ≤ v.id :=
        (hbody.iterators_between v.id hinside).1
      omega
    have hrest := ih (hshows.function _ _ hparams) (hhides.drop (Nat.le_add_right _ _))
    exact ⟨hrest.1, hshows.bind _ (by simp)⟩
  | bump htarget => exact ⟨htarget.avoids hshows, hshows⟩
  | assign htarget _ hsource =>
    exact ⟨⟨htarget.avoids hshows, hsource.avoids hshows⟩, hshows⟩
  | call hvalue => exact ⟨hvalue.avoids hshows, hshows⟩
  | returnValue _ hvalue => exact ⟨hvalue.avoids hshows, hshows⟩
  | breakLoop | returnNone | nothing | nil => exact ⟨trivial, hshows⟩
  | shortBranch htest _ _ ih =>
    rw [Passage.iterators, Passage.nodes, Stmt.iterators_nodes] at hhides
    have hbody := ih hshows hhides
    exact ⟨⟨htest.avoids hshows, hbody.1⟩, hbody.2⟩
  | whileLoop htest _ _ ih =>
    rw [Passage.iterators, Passage.nodes, Stmt.iterators_nodes] at hhides
    have hbody := ih (fun v hv => hshows v (Scope.holds_pushLoop.mp hv)) hhides
    exact ⟨⟨htest.avoids hshows, hbody.1⟩, hshows⟩
  | @forEach _ _ session session' _ _ _ _ _ _ v hcollection hv hbody ih =>
    rw [Passage.iterators, Passage.nodes, Stmt.iterators_nodes] at hhides
    have hid : v.id = session.nextId := congrArg Var.id hv
    rw [← hid] at hhides
    obtain ⟨hown, hinside⟩ := hhides.loop (hid ▸ hbody.extends.nextId_le)
    have hrest := ih (hshows.iterator _ v) (hid ▸ hinside)
    exact ⟨⟨hown, hcollection.avoids hshows, hrest.1⟩, hshows⟩
  | @forTurn _ _ session session' _ _ _ _ _ _ _ _ _ _ _ _ v hlow hhigh hstep _ hv hbody ih =>
    rw [Passage.iterators, Passage.nodes, Stmt.iterators_nodes] at hhides
    have hid : v.id = session.nextId := congrArg Var.id hv
    rw [← hid] at hhides
    obtain ⟨hown, hinside⟩ := hhides.loop (hid ▸ hbody.extends.nextId_le)
    have hrest := ih (hshows.iterator _ v) (hid ▸ hinside)
    have hbounds := And.intro (hlow.avoids hshows)
      (And.intro (hhigh.avoids hshows) (hstep.avoids hshows))
    exact ⟨⟨hown, hbounds, hrest.1⟩, hshows⟩
  | branch htest _ hbody _ helse ihbody ihelse =>
    rw [Passage.iterators, Passage.nodes, Stmt.iterators_nodes, Stmt.inside,
      List.filterMap_append] at hhides
    obtain ⟨hfirst, hrest⟩ := hbody.hides_split helse hhides
    have hthen := ihbody hshows hfirst
    have hfurther := ihelse hthen.2 hrest
    exact ⟨⟨htest.avoids hshows, hthen.1, hfurther.1⟩, hfurther.2⟩
  | elseIf htest _ hbody helse ihbody ihelse =>
    rw [Passage.iterators, Passage.nodes, Else.iterators_nodes, Stmt.inside,
      List.filterMap_append] at hhides
    obtain ⟨hfirst, hrest⟩ := hbody.hides_split helse hhides
    have hthen := ihbody hshows hfirst
    have hfurther := ihelse hthen.2 hrest
    exact ⟨⟨htest.avoids hshows, hthen.1, hfurther.1⟩, hfurther.2⟩
  | block _ ih => exact ih hshows hhides
  | cons hfirst hrest ihfirst ihrest =>
    rw [Passage.iterators, Passage.nodes, Stmt.nodesList, List.filterMap_append] at hhides
    obtain ⟨hone, hothers⟩ := hfirst.hides_split hrest hhides
    have hbefore := ihfirst hshows hone
    have hbehind := ihrest hbefore.2 hothers
    exact ⟨⟨hbefore.1, hbehind.1⟩, hbehind.2⟩

/-- In a lowered program each iterator is used in its own loop only. -/
theorem Program.confined_of_lower {strictness : Strictness} {tree : List Source.Stmt}
    {p : Program} (h : Source.lower strictness tree = .ok p) : p.Confined := by
  obtain ⟨last, session, hlowered, _⟩ := passageLowered_of_program h
  have hlibrary : Scope.program.Shows p.iterators := by
    intro v hv hmem
    obtain ⟨name, hbound⟩ := Scope.program_holds hv
    have hlow : v.id < Library.size := Library.id_lt_size _ hbound
    have hhigh : Library.size ≤ v.id := (hlowered.iterators_between v.id hmem).1
    omega
  exact (hlowered.confined hlibrary (fun _ _ _ => Iff.rfl)).1

end Croupier
