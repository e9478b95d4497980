import Croupier.Simplify.Stmt
import Croupier.Proofs.Execution
import Croupier.Proofs.SimplifyEval

/-!
# Simplified programs do the same

Simplifying a program removes statements and moves others: an `if` whose test is known gives way
to the body of one of its arms, which then stands in the middle of the block around it, further
arms move up or become blocks, loops that never run and assignments of a variable to itself
disappear. None of this changes what a program does:

> `Program.simplify_endsIn`: if a program ends in a store, the simplified program ends in the same
> way in the same store.

Each kind of statement has a lemma that compares the command built from its simplified parts with
what is left of it. Where an arm is chosen the two are the same command. Where something
disappears only one direction holds, because what disappeared might not have ended: a loop that
never runs still evaluates its bounds. The rest is that all ways of building commands respect
`Command.KeptBy`, so the walk over statements needs no induction of its own on the rounds of a
loop, and no more rounds either.
-/

namespace Croupier

open Command

/-- Writing to a variable what it holds changes nothing. -/
theorem Store.set_self (σ : Store) (id : Nat) : σ.set id (σ id) = σ := by
  funext i
  unfold Store.set
  split
  next h => rw [h]
  next => rfl

/-- Of two writes to a variable the second one counts. -/
theorem Store.set_set (σ : Store) (id : Nat) (x y : Option Value) :
    (σ.set id x).set id y = σ.set id y := by
  funext i
  unfold Store.set
  split <;> rfl

/-- What is read off the value of an expression is read off its simplified form as well. -/
theorem Expr.bind_eval_simplify {α : Type} (returns : Returns) {e : Expr} {σ : Store} {a : α}
    (f : Value → Option α) (hnames : NoTruthNames e.nodes) (h : (e.eval σ).bind f = some a) :
    ((e.simplify returns).eval σ).bind f = some a := by
  obtain ⟨x, hx, ha⟩ := Option.bind_eq_some_iff.mp h
  rw [Expr.eval_simplify returns e hnames hx]
  exact ha

/-- A test that has a truth value keeps it. -/
theorem Expr.truth_simplify (returns : Returns) {e : Expr} (hnames : NoTruthNames e.nodes)
    (σ : Store) (b : Bool) (h : e.truth σ = some b) : (e.simplify returns).truth σ = some b :=
  Expr.bind_eval_simplify returns Value.bool? hnames h

/-! ### Arms -/

/-- What is left of an `if` does what the `if` does: where an arm is chosen, the test is a literal
and chooses it too. -/
theorem simplifyBranch_exec (rounds : Nat) (test : Expr) (body : List Stmt) (orElse : Else) :
    Stmt.execList rounds (simplifyBranch test body orElse) =
      choose test.truth (Stmt.execList rounds body) (orElse.exec rounds) := by
  unfold simplifyBranch
  split
  next => rfl
  next =>
    split
    next => rw [Stmt.execList_singleton]; rfl
    next => rfl
  next => rw [Stmt.execList_singleton]; rfl

/-- The same for an `if` without further arms. -/
theorem simplifyShortBranch_exec (rounds : Nat) (test : Expr) (body : List Stmt) :
    Stmt.execList rounds (simplifyShortBranch test body) =
      choose test.truth (Stmt.execList rounds body) skip := by
  unfold simplifyShortBranch
  split
  next => rfl
  next => rfl
  next => rw [Stmt.execList_singleton]; rfl

/-- It does not matter whether an `if` behind an arm is read as further arms or as a block. -/
theorem Else.ofList_exec (rounds : Nat) (body : List Stmt) :
    (Else.ofList body).exec rounds = Stmt.execList rounds body := by
  unfold Else.ofList
  split
  next => rw [Stmt.execList_singleton]; rfl
  next => rfl

/-! ### Statements that may disappear -/

/-- An assignment of a variable to itself may go. It can have no value, so that only one direction
holds. -/
theorem simplifyAssign_exec (rounds : Nat) (v : Var) (source : Expr) :
    (write v.id (Expr.eval · source)).KeptBy
      (Stmt.execList rounds (simplifyAssign (.var v) source)) := by
  unfold simplifyAssign
  split
  next hsame =>
    intro σ r h
    obtain ⟨x, hx, rfl⟩ := Option.map_eq_some_iff.mp h
    -- The source is the variable itself, so the store does not change.
    cases source with
    | var w =>
      have hid : w.id = v.id := by simpa [Expr.sameReference] using hsame
      have hv : σ v.id = some x := by rw [← hid]; exact hx
      rw [← hv, Store.set_self]
      rfl
    | _ => exact absurd hsame (by simp [Expr.sameReference])
  next =>
    rw [Stmt.execList_singleton]
    exact KeptBy.refl _

/-- A `while` whose test is the literal `false` may go. -/
theorem simplifyWhile_exec (rounds : Nat) (test : Expr) (body : List Stmt) :
    (whileLoop test.truth (Stmt.execList rounds body) rounds).KeptBy
      (Stmt.execList rounds (simplifyWhile test body)) := by
  unfold simplifyWhile
  split
  next =>
    intro σ r h
    cases rounds with
    | zero => exact absurd h (by simp [whileLoop])
    | succ rounds => exact h
  next =>
    rw [Stmt.execList_singleton]
    exact KeptBy.refl _

/-- A loop over nothing may go. -/
theorem simplifyForEach_exec (rounds : Nat) (iterator : Var) (collection : Expr)
    (body : List Stmt) :
    (Stmt.exec rounds (.forEach iterator collection body)).KeptBy
      (Stmt.execList rounds (simplifyForEach iterator collection body)) := by
  unfold simplifyForEach
  split
  next =>
    intro σ r h
    have hr : some (Outcome.normal, σ.set iterator.id (σ iterator.id)) = some r := h
    rw [Store.set_self] at hr
    exact hr
  next =>
    rw [Stmt.execList_singleton]
    exact KeptBy.refl _

/-- Two literal bounds that are past each other do not let a turn begin. -/
theorem turnIsOver_operator {direction : Direction} {low high : Expr} {σ : Store} {l h : Int}
    (hover : turnIsOver direction low high = true) (hl : low.number σ = some l)
    (hh : high.number σ = some h) : direction.operator.onInts l h = some (.bool false) := by
  obtain ⟨x, hx, hxl⟩ := Option.bind_eq_some_iff.mp hl
  obtain ⟨y, hy, hyh⟩ := Option.bind_eq_some_iff.mp hh
  unfold turnIsOver at hover
  split at hover
  next m n hm hn =>
    obtain ⟨i, -, rfl, rfl⟩ := Numeral.ofExpr?_eval hm hx
    obtain ⟨j, -, rfl, rfl⟩ := Numeral.ofExpr?_eval hn hy
    cases hxl
    cases hyh
    cases direction with
    | ascending =>
      have hgt : compare l h = .gt := by simpa [Numeral.compare?] using hover
      rw [Int.compare_eq_gt] at hgt
      simp only [Direction.operator, BinaryOperator.onInts]
      rw [decide_eq_false (by omega)]
    | descending =>
      have hlt : compare l h = .lt := by simpa [Numeral.compare?] using hover
      rw [Int.compare_eq_lt] at hlt
      simp only [Direction.operator, BinaryOperator.onInts]
      rw [decide_eq_false (by omega)]
  next => exact absurd hover (by simp)

/-- A turn that does not begin leaves the store as it was. -/
theorem owning_turn_of_over {id : Nat} {l h d : Int} {direction : Direction} {body : Command}
    {rounds : Nat} {σ : Store} {r : Outcome × Store}
    (hover : direction.operator.onInts l h = some (.bool false))
    (hr : owning id (turn id l h d direction body rounds) σ = some r) : r = (.normal, σ) := by
  obtain ⟨⟨outcome, τ⟩, hturn, rfl⟩ := Option.map_eq_some_iff.mp hr
  cases rounds with
  | zero => exact absurd hturn (by simp [turn, andThen, write, whileLoop])
  | succ rounds =>
    have htest : (direction.operator.withVar id h (σ.set id (some (.int l)))).bind Value.bool? =
        some false := by
      unfold BinaryOperator.withVar
      rw [Store.set, if_pos rfl, Option.bind_some, BinaryOperator.apply, hover]
      rfl
    have hturn' : some (Outcome.normal, σ.set id (some (.int l))) = some (outcome, τ) := by
      rw [← hturn]
      simp only [turn, andThen, write, whileLoop, choose, Option.map_some, htest, skip]
    cases hturn'
    show (Outcome.normal, (σ.set id (some (.int l))).set id (σ id)) = (.normal, σ)
    rw [Store.set_set, Store.set_self]

/-- A turn whose bounds have passed each other may go. -/
theorem simplifyForTurn_exec (rounds : Nat) (iterator : Var) (low high step : Expr)
    (direction : Direction) (body : List Stmt) :
    (Stmt.exec rounds (.forTurn iterator low high step direction body)).KeptBy
      (Stmt.execList rounds (simplifyForTurn iterator low high step direction body)) := by
  unfold simplifyForTurn
  split
  next hover =>
    intro σ r hr
    obtain ⟨l, hl, hr⟩ := Option.bind_eq_some_iff.mp hr
    obtain ⟨h, hh, hr⟩ := Option.bind_eq_some_iff.mp hr
    obtain ⟨d, -, hr⟩ := Option.bind_eq_some_iff.mp hr
    rw [owning_turn_of_over (turnIsOver_operator hover hl hh) hr]
    rfl
  next =>
    rw [Stmt.execList_singleton]
    exact KeptBy.refl _

/-! ### Whole programs -/

mutual

/-- What is left of a statement does what the statement does. -/
theorem Stmt.exec_simplify (returns : Returns) (rounds : Nat) (s : Stmt)
    (hnames : NoTruthNames s.nodes) :
    (s.exec rounds).KeptBy (Stmt.execList rounds (s.simplify returns)) := by
  match s with
  | .breakLoop =>
    rw [Stmt.simplify, Stmt.execList_singleton]
    exact KeptBy.refl _
  | .declareFunc _ _ | .returnValue _ | .returnNone =>
    exact fun _ _ h => absurd h (by simp [Stmt.exec])
  | .declareVar v init =>
    rw [Stmt.simplify, Stmt.execList_singleton]
    intro σ r h
    obtain ⟨x, hx, rfl⟩ := Option.map_eq_some_iff.mp h
    exact Option.map_eq_some_iff.mpr ⟨x, Expr.eval_simplify returns init hnames.tail hx, rfl⟩
  | .assign target source =>
    cases target with
    | var v =>
      rw [Stmt.simplify, Expr.simplify_var returns (hnames v (by simp [Stmt.nodes, Expr.nodes]))]
      refine KeptBy.trans ?_ (simplifyAssign_exec rounds v _)
      intro σ r h
      obtain ⟨x, hx, rfl⟩ := Option.map_eq_some_iff.mp h
      exact Option.map_eq_some_iff.mpr
        ⟨x, Expr.eval_simplify returns source hnames.tail.right hx, rfl⟩
    | _ => exact fun _ _ h => absurd h (by simp [Stmt.exec])
  | .bump op target =>
    cases target with
    | var v =>
      rw [Stmt.simplify, Expr.simplify_var returns (hnames v (by simp [Stmt.nodes, Expr.nodes])),
        Stmt.execList_singleton]
      exact KeptBy.refl _
    | _ => exact fun _ _ h => absurd h (by simp [Stmt.exec])
  | .call value =>
    rw [Stmt.simplify, Stmt.execList_singleton]
    intro σ r h
    obtain ⟨x, hx, rfl⟩ := Option.map_eq_some_iff.mp h
    exact Option.map_eq_some_iff.mpr ⟨x, Expr.eval_simplify returns value hnames.tail hx, rfl⟩
  | .branch test body orElse =>
    rw [Stmt.simplify, simplifyBranch_exec]
    exact choose_keptBy (Expr.truth_simplify returns hnames.tail.left.left)
      (Stmt.execList_simplify returns rounds body hnames.tail.left.right)
      (Else.exec_simplify returns rounds orElse hnames.tail.right)
  | .shortBranch test body =>
    rw [Stmt.simplify, simplifyShortBranch_exec]
    exact choose_keptBy (Expr.truth_simplify returns hnames.tail.left)
      (Stmt.execList_simplify returns rounds body hnames.tail.right) (KeptBy.refl skip)
  | .whileLoop test body =>
    rw [Stmt.simplify]
    refine KeptBy.trans ?_ (simplifyWhile_exec rounds _ _)
    exact whileLoop_keptBy (Expr.truth_simplify returns hnames.tail.left)
      (Stmt.execList_simplify returns rounds body hnames.tail.right) (Nat.le_refl rounds)
  | .forEach iterator collection body =>
    rw [Stmt.simplify]
    refine KeptBy.trans ?_ (simplifyForEach_exec rounds iterator _ _)
    intro σ r h
    obtain ⟨items, hitems, h⟩ := Option.bind_eq_some_iff.mp h
    have hitems' := Expr.bind_eval_simplify returns Value.items? hnames.tail.left hitems
    refine Option.bind_eq_some_iff.mpr ⟨items, hitems', ?_⟩
    have hbody := Stmt.execList_simplify returns rounds body hnames.tail.right
    exact owning_keptBy _ (forItems_keptBy hbody items) σ r h
  | .forTurn iterator low high step direction body =>
    rw [Stmt.simplify]
    refine KeptBy.trans ?_ (simplifyForTurn_exec rounds iterator _ _ _ direction _)
    intro σ r h
    obtain ⟨l, hl, h⟩ := Option.bind_eq_some_iff.mp h
    obtain ⟨u, hu, h⟩ := Option.bind_eq_some_iff.mp h
    obtain ⟨d, hd, h⟩ := Option.bind_eq_some_iff.mp h
    have hl' := Expr.bind_eval_simplify returns Value.int? hnames.tail.left.left.left hl
    have hu' := Expr.bind_eval_simplify returns Value.int? hnames.tail.left.left.right hu
    have hd' := Expr.bind_eval_simplify returns Value.int? hnames.tail.left.right hd
    refine Option.bind_eq_some_iff.mpr ⟨l, hl', Option.bind_eq_some_iff.mpr ⟨u, hu',
      Option.bind_eq_some_iff.mpr ⟨d, hd', ?_⟩⟩⟩
    have hbody := Stmt.execList_simplify returns rounds body hnames.tail.right
    exact owning_keptBy _ (turn_keptBy _ l u d direction hbody (Nat.le_refl rounds)) σ r h

theorem Else.exec_simplify (returns : Returns) (rounds : Nat) (e : Else)
    (hnames : NoTruthNames e.nodes) :
    (e.exec rounds).KeptBy ((e.simplify returns).exec rounds) := by
  match e with
  | .elseIf test body orElse =>
    rw [Else.simplify, Else.ofList_exec, simplifyBranch_exec]
    exact choose_keptBy (Expr.truth_simplify returns hnames.tail.left.left)
      (Stmt.execList_simplify returns rounds body hnames.tail.left.right)
      (Else.exec_simplify returns rounds orElse hnames.tail.right)
  | .block body => exact Stmt.execList_simplify returns rounds body hnames

theorem Stmt.execList_simplify (returns : Returns) (rounds : Nat) (ss : List Stmt)
    (hnames : NoTruthNames (Stmt.nodesList ss)) :
    (Stmt.execList rounds ss).KeptBy (Stmt.execList rounds (Stmt.simplifyList returns ss)) := by
  match ss with
  | [] => exact KeptBy.refl skip
  | s :: ss =>
    rw [Stmt.simplifyList, Stmt.execList_append]
    exact andThen_keptBy (Stmt.exec_simplify returns rounds s hnames.left)
      (Stmt.execList_simplify returns rounds ss hnames.right)

end

/-- If a program that uses no variable named `true` or `false` takes a store to an outcome and a
store, then the simplified program takes it to the same outcome and the same store. -/
theorem Program.simplify_endsIn {p : Program} {σ τ : Store} {outcome : Outcome}
    (hnames : NoTruthNames p.nodes) (h : p.EndsIn σ outcome τ) :
    p.simplify.EndsIn σ outcome τ := by
  obtain ⟨rounds, hrun⟩ := h
  exact ⟨rounds, Stmt.execList_simplify p.returns rounds p.body hnames σ _ hrun⟩

/-- A turn that is over before it starts, one that is left by a `break`, and a `break` that moves
out of two arms into the program. -/
theorem Program.simplify_endsIn_turns :
    let x : Var := ⟨14, "x", .mutable, .int⟩
    let i : Var := ⟨15, "i", .mutable, .int⟩
    let p : Program :=
      ⟨[.declareVar x (.int 0),
        .forTurn i (.int 5) (.int 3) (.int 1) .ascending [.bump .increment (.var x)],
        .forTurn i (.int 1) (.int 9) (.int 2) .ascending
          [.assign (.var x) (.binary (.operator .add) (.var x)
              (.binary (.operator .multiply) (.var i) (.int 1) .int) .int),
            .shortBranch (.binary (.operator .less) (.int 3) (.var x) .boolean) [.breakLoop]],
        .branch (.bool false) [] (.elseIf (.bool true) [.breakLoop] (.block [])),
        .bump .increment (.var x)], []⟩
    ∃ τ, p.EndsIn (fun _ => none) .broken τ ∧ p.simplify.EndsIn (fun _ => none) .broken τ ∧
      τ 14 = some (.int 4) ∧ τ 15 = none := by
  refine ⟨_, ⟨5, rfl⟩, Program.simplify_endsIn ?_ ⟨5, rfl⟩, rfl, rfl⟩
  intro v hv
  simp only [Program.nodes, Stmt.nodesList, Stmt.nodes, Else.nodes, Expr.nodes, List.cons_append,
    List.nil_append, List.append_nil, List.mem_cons, reduceCtorEq, Node.expr.injEq, Expr.var.injEq,
    List.not_mem_nil, false_or, or_false] at hv
  rcases hv with rfl | rfl | rfl | rfl | rfl | rfl <;> decide

end Croupier
