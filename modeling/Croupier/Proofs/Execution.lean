import Croupier.Proofs.Evaluation

/-!
# What programs do

A reference semantics for typed programs. Running a statement takes a store to an outcome and
another store, or it does not get there: an expression has no value, something other than a
variable is written to, or a loop goes on for ever. Declared functions, calls and returns are no
part of this, and running one does not get anywhere.

Statements are read as `Command`s, functions from stores to what comes out, and loops are built
from the command of their body by `Command.whileLoop` and `Command.forItems`. Only a loop can
fail to end, so only loops have a bound on their rounds: `Stmt.exec rounds` gives up on a loop
after `rounds` rounds, and a program ends in a store if it does so for some bound
(`Program.EndsIn`). The bound decides whether there is a result, not which:

> `Program.EndsIn.unique`: a program ends in at most one way.

An iterator belongs to its loop. It is written to like any other variable while the loop runs,
and whatever it held before is back in place afterwards. What changes if it stays as the loop left
it is the subject of `Croupier.Proofs.Iterators`.

Commands are compared by `Command.KeptBy`: `c.KeptBy d` if `d` does whatever `c` does, wherever
`c` gets anywhere. All ways of building commands respect it.
-/

namespace Croupier

/-- How a statement ends: at its end, or at a `break`. -/
inductive Outcome where
  | normal
  | broken
deriving DecidableEq

/-- What it means to run something. -/
abbrev Command := Store → Option (Outcome × Store)

namespace Command

/-- Does nothing. -/
def skip : Command := fun σ => some (.normal, σ)

/-- Writes to a variable what is computed from the store. -/
def write (id : Nat) (value : Store → Option Value) : Command :=
  fun σ => (value σ).map fun x => (.normal, σ.set id (some x))

/-- Runs one command and, unless it breaks, another. -/
def andThen (c d : Command) : Command := fun σ =>
  match c σ with
  | some (.normal, τ) => d τ
  | other => other

/-- Runs one of two commands. -/
def choose (test : Store → Option Bool) (c d : Command) : Command := fun σ =>
  match test σ with
  | some true => c σ
  | some false => d σ
  | none => none

/-- One round of a loop and then the others; a `break` in the round ends the loop and goes no
further. -/
def round (body others : Command) : Command := fun σ =>
  match body σ with
  | some (.normal, τ) => others τ
  | some (.broken, τ) => some (.normal, τ)
  | none => none

/-- Runs a command again and again while a test holds. Gives up after the given number of
rounds. -/
def whileLoop (test : Store → Option Bool) (body : Command) : Nat → Command
  | 0 => fun _ => none
  | rounds + 1 => choose test (body.round (whileLoop test body rounds)) skip

/-- Runs a command for each item, held by a variable. -/
def forItems (id : Nat) (body : Command) : List Value → Command
  | [] => skip
  | x :: xs => fun σ => body.round (forItems id body xs) (σ.set id (some x))

/-- Runs a command with a variable of its own: afterwards the variable holds what it held
before. -/
def owning (id : Nat) (c : Command) : Command := fun σ =>
  (c σ).map fun (outcome, τ) => (outcome, τ.set id (σ id))

end Command

open Command

/-- What a variable and a number combine to. -/
def BinaryOperator.withVar (op : BinaryOperator) (id : Nat) (n : Int) (σ : Store) : Option Value :=
  (σ id).bind fun x => op.apply x (.int n)

/-- The change that a bump makes. -/
def BumpOperator.amount : BumpOperator → Int
  | increment => 1
  | decrement => -1

/-- The turn from `low` to `high`: the variable starts at `low`, and it moves by `step` after
each round as long as it stands in the relation to `high` that keeps the turn going. -/
def Command.turn (id : Nat) (low high step : Int) (direction : Direction) (body : Command)
    (rounds : Nat) : Command :=
  (write id fun _ => some (.int low)).andThen
    (whileLoop (fun σ => (direction.operator.withVar id high σ).bind Value.bool?)
      (body.andThen (write id (BinaryOperator.add.withVar id step))) rounds)

mutual

/-- What a statement does, if no loop in it takes more than `rounds` rounds. -/
def Stmt.exec (rounds : Nat) : Stmt → Command
  | .declareVar v init => write v.id (Expr.eval · init)
  | .assign (.var v) source => write v.id (Expr.eval · source)
  | .bump op (.var v) => write v.id (BinaryOperator.add.withVar v.id op.amount)
  | .call value => fun σ => (value.eval σ).map fun _ => (.normal, σ)
  | .breakLoop => fun σ => some (.broken, σ)
  | .branch test body orElse =>
    choose test.truth (Stmt.execList rounds body) (Else.exec rounds orElse)
  | .shortBranch test body => choose test.truth (Stmt.execList rounds body) skip
  | .whileLoop test body => whileLoop test.truth (Stmt.execList rounds body) rounds
  | .forEach iterator collection body => fun σ =>
    (collection.items σ).bind fun items =>
      owning iterator.id (forItems iterator.id (Stmt.execList rounds body) items) σ
  | .forTurn iterator low high step direction body => fun σ =>
    (low.number σ).bind fun l => (high.number σ).bind fun h => (step.number σ).bind fun d =>
      owning iterator.id
        (turn iterator.id l h d direction (Stmt.execList rounds body) rounds) σ
  | .assign _ _ | .bump _ _ | .declareFunc _ _ | .returnValue _ | .returnNone => fun _ => none

/-- What the further arms of an `if` do. -/
def Else.exec (rounds : Nat) : Else → Command
  | .elseIf test body orElse =>
    choose test.truth (Stmt.execList rounds body) (Else.exec rounds orElse)
  | .block body => Stmt.execList rounds body

/-- What statements do one after the other. -/
def Stmt.execList (rounds : Nat) : List Stmt → Command
  | [] => skip
  | s :: ss => (Stmt.exec rounds s).andThen (Stmt.execList rounds ss)

end

/-- A program takes a store to an outcome and a store. -/
def Program.EndsIn (p : Program) (σ : Store) (outcome : Outcome) (τ : Store) : Prop :=
  ∃ rounds, Stmt.execList rounds p.body σ = some (outcome, τ)

/-! ### Doing at least as much -/

namespace Command

/-- Wherever `c` gets anywhere, `d` does the same. -/
def KeptBy (c d : Command) : Prop := ∀ σ r, c σ = some r → d σ = some r

theorem KeptBy.refl (c : Command) : c.KeptBy c := fun _ _ h => h

theorem KeptBy.trans {b c d : Command} (h : b.KeptBy c) (g : c.KeptBy d) : b.KeptBy d :=
  fun σ r hr => g σ r (h σ r hr)

/-- Two commands one after the other do at least as much if each of them does. -/
theorem andThen_keptBy {c c' d d' : Command} (hc : c.KeptBy c') (hd : d.KeptBy d') :
    (c.andThen d).KeptBy (c'.andThen d') := by
  intro σ r h
  unfold andThen at h ⊢
  cases hr : c σ with
  | none => rw [hr] at h; exact absurd h (by simp)
  | some first =>
    rw [hc σ first hr]
    rw [hr] at h
    obtain ⟨outcome, τ⟩ := first
    cases outcome with
    | normal => exact hd τ r h
    | broken => exact h

/-- A choice does at least as much if its test and both of its commands do. -/
theorem choose_keptBy {test test' : Store → Option Bool} {c c' d d' : Command}
    (ht : ∀ σ b, test σ = some b → test' σ = some b) (hc : c.KeptBy c') (hd : d.KeptBy d') :
    (choose test c d).KeptBy (choose test' c' d') := by
  intro σ r h
  unfold choose at h ⊢
  cases hb : test σ with
  | none => rw [hb] at h; exact absurd h (by simp)
  | some b =>
    rw [ht σ b hb]
    rw [hb] at h
    cases b with
    | true => exact hc σ r h
    | false => exact hd σ r h

/-- A round does at least as much if its body and the other rounds do. -/
theorem round_keptBy {body body' others others' : Command} (hb : body.KeptBy body')
    (ho : others.KeptBy others') : (body.round others).KeptBy (body'.round others') := by
  intro σ r h
  unfold round at h ⊢
  cases hr : body σ with
  | none => rw [hr] at h; exact absurd h (by simp)
  | some first =>
    rw [hb σ first hr]
    rw [hr] at h
    obtain ⟨outcome, τ⟩ := first
    cases outcome with
    | normal => exact ho τ r h
    | broken => exact h

/-- A loop does at least as much if its test and its body do, and if it is given no fewer rounds. -/
theorem whileLoop_keptBy {test test' : Store → Option Bool} {body body' : Command}
    (ht : ∀ σ b, test σ = some b → test' σ = some b) (hb : body.KeptBy body') :
    ∀ {n m : Nat}, n ≤ m → (whileLoop test body n).KeptBy (whileLoop test' body' m)
  | 0, _, _ => fun _ _ h => absurd h (by simp [whileLoop])
  | n + 1, 0, hnm => absurd hnm (by omega)
  | n + 1, m + 1, hnm =>
    choose_keptBy ht (round_keptBy hb (whileLoop_keptBy ht hb (Nat.le_of_succ_le_succ hnm)))
      (KeptBy.refl skip)

/-- The same for the items of a collection, which bound their loop themselves. -/
theorem forItems_keptBy {id : Nat} {body body' : Command} (hb : body.KeptBy body') :
    ∀ items : List Value, (forItems id body items).KeptBy (forItems id body' items)
  | [] => KeptBy.refl skip
  | _ :: xs => fun _ _ h => round_keptBy hb (forItems_keptBy hb xs) _ _ h

/-- A command with a variable of its own does at least as much if the command itself does. -/
theorem owning_keptBy (id : Nat) {c c' : Command} (hc : c.KeptBy c') :
    (owning id c).KeptBy (owning id c') := by
  intro σ r h
  unfold owning at h ⊢
  obtain ⟨first, hr, rfl⟩ := Option.map_eq_some_iff.mp h
  rw [hc σ first hr]
  rfl

/-- A turn does at least as much if its body does and it is given no fewer rounds. -/
theorem turn_keptBy (id : Nat) (low high step : Int) (direction : Direction)
    {body body' : Command} {n m : Nat} (hb : body.KeptBy body') (hnm : n ≤ m) :
    (turn id low high step direction body n).KeptBy
      (turn id low high step direction body' m) :=
  andThen_keptBy (KeptBy.refl _)
    (whileLoop_keptBy (fun _ _ h => h) (andThen_keptBy hb (KeptBy.refl _)) hnm)

/-- Doing nothing afterwards makes no difference. -/
theorem andThen_skip (c : Command) : c.andThen skip = c := by
  funext σ
  unfold andThen
  cases hr : c σ with
  | none => rfl
  | some first =>
    obtain ⟨outcome, τ⟩ := first
    cases outcome <;> rfl

/-- It does not matter how commands that follow each other are grouped. -/
theorem andThen_assoc (b c d : Command) : (b.andThen c).andThen d = b.andThen (c.andThen d) := by
  funext σ
  unfold andThen
  cases hr : b σ with
  | none => rfl
  | some first =>
    obtain ⟨outcome, τ⟩ := first
    cases outcome <;> rfl

end Command

/-- Statements that follow each other are run one part after the other. -/
theorem Stmt.execList_append (rounds : Nat) :
    ∀ ss ts : List Stmt,
      Stmt.execList rounds (ss ++ ts) = (Stmt.execList rounds ss).andThen (Stmt.execList rounds ts)
  | [], ts => rfl
  | s :: ss, ts => by
    rw [List.cons_append, Stmt.execList, Stmt.execList, Stmt.execList_append rounds ss ts,
      andThen_assoc]

theorem Stmt.execList_singleton (rounds : Nat) (s : Stmt) :
    Stmt.execList rounds [s] = s.exec rounds := by
  rw [Stmt.execList, Stmt.execList, andThen_skip]

/-! ### More rounds change no result -/

mutual

/-- A statement that gets somewhere gets to the same place if its loops are given more rounds. -/
theorem Stmt.exec_rounds {n m : Nat} (hnm : n ≤ m) (s : Stmt) :
    (s.exec n).KeptBy (s.exec m) := by
  cases s with
  | declareVar | declareFunc | call | breakLoop | returnValue | returnNone =>
    exact KeptBy.refl _
  | assign target source => cases target <;> exact KeptBy.refl _
  | bump op target => cases target <;> exact KeptBy.refl _
  | branch test body orElse =>
    exact choose_keptBy (fun _ _ h => h) (Stmt.execList_rounds hnm body)
      (Else.exec_rounds hnm orElse)
  | shortBranch test body =>
    exact choose_keptBy (fun _ _ h => h) (Stmt.execList_rounds hnm body) (KeptBy.refl skip)
  | whileLoop test body =>
    exact whileLoop_keptBy (fun _ _ h => h) (Stmt.execList_rounds hnm body) hnm
  | forEach iterator collection body =>
    intro σ r h
    obtain ⟨items, hitems, h⟩ := Option.bind_eq_some_iff.mp h
    refine Option.bind_eq_some_iff.mpr ⟨items, hitems, ?_⟩
    exact owning_keptBy _ (forItems_keptBy (Stmt.execList_rounds hnm body) items) σ r h
  | forTurn iterator low high step direction body =>
    intro σ r h
    obtain ⟨l, hl, h⟩ := Option.bind_eq_some_iff.mp h
    obtain ⟨u, hu, h⟩ := Option.bind_eq_some_iff.mp h
    obtain ⟨d, hd, h⟩ := Option.bind_eq_some_iff.mp h
    refine Option.bind_eq_some_iff.mpr ⟨l, hl, Option.bind_eq_some_iff.mpr ⟨u, hu,
      Option.bind_eq_some_iff.mpr ⟨d, hd, ?_⟩⟩⟩
    exact owning_keptBy _ (turn_keptBy _ l u d direction (Stmt.execList_rounds hnm body) hnm) σ r h

theorem Else.exec_rounds {n m : Nat} (hnm : n ≤ m) (e : Else) :
    (e.exec n).KeptBy (e.exec m) := by
  cases e with
  | elseIf test body orElse =>
    exact choose_keptBy (fun _ _ h => h) (Stmt.execList_rounds hnm body)
      (Else.exec_rounds hnm orElse)
  | block body => exact Stmt.execList_rounds hnm body

theorem Stmt.execList_rounds {n m : Nat} (hnm : n ≤ m) (ss : List Stmt) :
    (Stmt.execList n ss).KeptBy (Stmt.execList m ss) := by
  cases ss with
  | nil => exact KeptBy.refl skip
  | cons s ss => exact andThen_keptBy (Stmt.exec_rounds hnm s) (Stmt.execList_rounds hnm ss)

end

/-- A program ends in at most one way. -/
theorem Program.EndsIn.unique {p : Program} {σ τ υ : Store} {o q : Outcome}
    (h : p.EndsIn σ o τ) (g : p.EndsIn σ q υ) : o = q ∧ τ = υ := by
  obtain ⟨n, hn⟩ := h
  obtain ⟨m, hm⟩ := g
  have hn' := Stmt.execList_rounds (Nat.le_max_left n m) p.body σ _ hn
  have hm' := Stmt.execList_rounds (Nat.le_max_right n m) p.body σ _ hm
  rw [hn'] at hm'
  simpa using hm'

end Croupier
