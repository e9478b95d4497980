import Croupier.Compile
import Croupier.Proofs.Refused
import Croupier.Proofs.Simplified

/-!
# Where jumps stand

A `break` leaves a loop and a `return` leaves a function, so each has to stand in one. The loop
may be outside a function in which the `break` stands; what counts is that there is one somewhere
around it. `Program.jumps` lists the jumps of a program, each with everything that encloses it,
and `Source.jumps` does so for a program as written. The arms of an `if` enclose nothing: they
are not left by any jump.

Lowering does not look around: it knows two flags of the scope that it carries along. The link is
`Scope.Inside`, which says that the flags are right about what encloses a place. Simplifying
knows nothing of jumps at all. It moves the statements of an arm into the block around the `if`
and drops loops as a whole, and neither changes what encloses a jump that is left
(`PassageSimplified.jumps_sublist`).

> `Source.jumps_placed`: in a program that compiles every jump has around it what it leaves, and
> a program is refused for a jump out of nowhere only if it has one.
-/

namespace Croupier

/-! ### Jumps and what encloses them -/

/-- What a jump can leave. -/
inductive Enclosure where
  | loop
  | function
deriving DecidableEq

/-- A jump, by what it leaves, and everything that encloses it, innermost first. -/
structure Jump where
  leaves : Enclosure
  around : List Enclosure
deriving DecidableEq

/-- What the jump leaves is there. -/
def Jump.Placed (j : Jump) : Prop := j.leaves ∈ j.around

namespace Source

mutual

/-- The jumps of a statement that stands inside `around`. -/
def Stmt.jumps (around : List Enclosure) : Stmt → List Jump
  | .breakLoop _ => [⟨.loop, around⟩]
  | .returnValue _ _ | .returnNone _ => [⟨.function, around⟩]
  | .declareFunc _ _ _ _ _ body => Stmt.jumpsList (.function :: around) body
  | .branch _ _ body orElse => Stmt.jumpsList around body ++ orElse.jumps around
  | .whileLoop _ _ body | .forEach _ _ _ body | .forTurn _ _ _ _ body =>
    Stmt.jumpsList (.loop :: around) body
  | .declareVar _ _ _ _ | .bump _ _ _ | .assign _ _ _ | .call _ _ => []

/-- The jumps of the further arms of an `if`. -/
def Else.jumps (around : List Enclosure) : Else → List Jump
  | .nothing => []
  | .elseIf _ body orElse => Stmt.jumpsList around body ++ orElse.jumps around
  | .block body => Stmt.jumpsList around body

/-- The jumps of statements that follow each other. -/
def Stmt.jumpsList (around : List Enclosure) : List Stmt → List Jump
  | [] => []
  | s :: ss => s.jumps around ++ Stmt.jumpsList around ss

end

def Passage.jumps (around : List Enclosure) : Passage → List Jump
  | stmt s => s.jumps around
  | arms e => e.jumps around
  | block ss => Stmt.jumpsList around ss

/-- The jumps of a program as written. Nothing encloses a program. -/
def jumps (tree : List Source.Stmt) : List Jump := Stmt.jumpsList [] tree

end Source

mutual

/-- The jumps of a statement that stands inside `around`. -/
def Stmt.jumps (around : List Enclosure) : Stmt → List Jump
  | .breakLoop => [⟨.loop, around⟩]
  | .returnValue _ | .returnNone => [⟨.function, around⟩]
  | .declareFunc _ body => Stmt.jumpsList (.function :: around) body
  | .branch _ body orElse => Stmt.jumpsList around body ++ orElse.jumps around
  | .shortBranch _ body => Stmt.jumpsList around body
  | .whileLoop _ body | .forEach _ _ body | .forTurn _ _ _ _ _ body =>
    Stmt.jumpsList (.loop :: around) body
  | .declareVar _ _ | .assign _ _ | .bump _ _ | .call _ => []

/-- The jumps of the further arms of an `if`. -/
def Else.jumps (around : List Enclosure) : Else → List Jump
  | .elseIf _ body orElse => Stmt.jumpsList around body ++ orElse.jumps around
  | .block body => Stmt.jumpsList around body

/-- The jumps of statements that follow each other. -/
def Stmt.jumpsList (around : List Enclosure) : List Stmt → List Jump
  | [] => []
  | s :: ss => s.jumps around ++ Stmt.jumpsList around ss

end

def Passage.jumps (around : List Enclosure) : Passage → List Jump
  | stmt s => s.jumps around
  | arms e => e.jumps around
  | block ss => Stmt.jumpsList around ss

/-- The jumps of a program. -/
def Program.jumps (p : Program) : List Jump := Stmt.jumpsList [] p.body

/-! ### Lowering keeps them -/

/-- A lowered passage has the jumps that were written, inside the same things. -/
theorem PassageLowered.jumps_eq {strictness : Strictness} {scope scope' : Scope}
    {session session' : Session} {d : Source.Passage} {d' : Passage}
    (h : PassageLowered strictness scope session d d' scope' session')
    (around : List Enclosure) : d'.jumps around = d.jumps around := by
  induction h generalizing around with
  | declareVar | bump | assign | call | breakLoop | returnValue | returnNone | nothing | nil => rfl
  | declareFunc _ _ _ _ _ _ _ ih => exact ih (.function :: around)
  | whileLoop _ _ _ ih | forEach _ _ _ ih | forTurn _ _ _ _ _ _ ih => exact ih (.loop :: around)
  | shortBranch _ _ _ ih =>
    rw [Source.Passage.jumps, Source.Stmt.jumps, Source.Else.jumps, List.append_nil]
    exact ih around
  | block _ ih => exact ih around
  | branch _ _ _ _ _ ihbody ihelse | elseIf _ _ _ _ ihbody ihelse =>
    exact congr (congrArg _ (ihbody around)) (ihelse around)
  | cons _ _ ihfirst ihrest => exact congr (congrArg _ (ihfirst around)) (ihrest around)

/-! ### The flags of a scope -/

/-- The flags of a scope are right about what encloses a place. -/
structure Scope.Inside (scope : Scope) (around : List Enclosure) : Prop where
  loop : scope.inLoop = true ↔ .loop ∈ around
  function : scope.inFunction = true ↔ .function ∈ around

namespace Scope.Inside

variable {scope scope' : Scope} {around : List Enclosure}

/-- A program starts inside of nothing. -/
theorem program : Scope.program.Inside [] := by
  constructor <;> simp [inLoop, inFunction, Scope.program, root, push]

/-- Only the flags count, not what is bound. -/
theorem of_flags (h : scope.Inside around) (hloop : scope'.inLoop = scope.inLoop)
    (hfunction : scope'.inFunction = scope.inFunction) : scope'.Inside around := by
  constructor
  · rw [hloop]
    exact h.loop
  · rw [hfunction]
    exact h.function

theorem bind (h : scope.Inside around) (name : String) (x : Entity) :
    (scope.bind name x).Inside around :=
  h.of_flags rfl rfl

/-- Binding parameters leaves a scope where it is. -/
theorem bindAll (h : scope.Inside around) (vars : List Var) :
    (scope.bindAll vars).Inside around := by
  induction vars generalizing scope with
  | nil => exact h
  | cons v vs ih => exact ih (h.bind v.name (.var v))

/-- The body of a loop is inside of the loop. -/
theorem pushLoop (h : scope.Inside around) : scope.pushLoop.Inside (.loop :: around) := by
  constructor
  · simp [inLoop, Scope.pushLoop]
  · simpa [inFunction, Scope.pushLoop] using h.function

/-- The body of a function is inside of the function, and still in the loops around it. -/
theorem pushFunction (h : scope.Inside around) :
    scope.pushFunction.Inside (.function :: around) := by
  constructor
  · simpa [inLoop, Scope.pushFunction] using h.loop
  · simp [inFunction, Scope.pushFunction]

/-- Behind statements the flags are what they were before. -/
theorem behind {strictness : Strictness} {session session' : Session} {d : Source.Passage}
    {d' : Passage} (h : PassageLowered strictness scope session d d' scope' session')
    (hin : scope.Inside around) : scope'.Inside around := by
  have hbind : ∀ (inner : Scope) name x, Entity.name x = name → inner.Inside around →
      (inner.bind name x).Inside around := fun _ name x _ hinner => hinner.bind name x
  exact h.scope_of_bind hbind hin

end Scope.Inside

/-- A `break` that passes the check stands in a loop. -/
theorem checkInLoop_eq_ok {scope : Scope} {span : Span} (h : checkInLoop scope span = .ok ()) :
    scope.inLoop = true := by
  unfold checkInLoop at h
  split at h
  next hloop => exact hloop
  next => exact absurd h (by simp [refuse])

/-- A `return` that passes the check stands in a function. -/
theorem checkInFunction_eq_ok {scope : Scope} {span : Span}
    (h : checkInFunction scope span = .ok ()) : scope.inFunction = true := by
  unfold checkInFunction at h
  split at h
  next hfunction => exact hfunction
  next => exact absurd h (by simp [refuse])

namespace Scope.Inside

variable {scope : Scope} {around : List Enclosure} {span : Span} {fault : Fault}

/-- Where the check for `break` fails there is no loop around. -/
theorem not_loop (h : scope.Inside around) (hcheck : checkInLoop scope span = .error fault) :
    .loop ∉ around := by
  intro hmem
  rw [checkInLoop, if_pos (h.loop.mpr hmem)] at hcheck
  cases hcheck

/-- Where the check for `return` fails there is no function around. -/
theorem not_function (h : scope.Inside around)
    (hcheck : checkInFunction scope span = .error fault) : .function ∉ around := by
  intro hmem
  rw [checkInFunction, if_pos (h.function.mpr hmem)] at hcheck
  cases hcheck

end Scope.Inside

/-- Every jump of a lowered passage has around it what it leaves. -/
theorem PassageLowered.placed {strictness : Strictness} {scope scope' : Scope}
    {session session' : Session} {d : Source.Passage} {d' : Passage}
    (h : PassageLowered strictness scope session d d' scope' session')
    {around : List Enclosure} (hin : scope.Inside around) :
    ∀ j ∈ d'.jumps around, j.Placed := by
  induction h generalizing around with
  | declareVar | bump | assign | call | nothing | nil =>
    intro j hj
    cases hj
  | breakLoop hcheck =>
    intro j hj
    rw [List.mem_singleton.mp hj]
    exact hin.loop.mp (checkInLoop_eq_ok hcheck)
  | returnValue hcheck | returnNone hcheck =>
    intro j hj
    rw [List.mem_singleton.mp hj]
    exact hin.function.mp (checkInFunction_eq_ok hcheck)
  | declareFunc _ _ _ _ _ _ _ ih => exact ih (((hin.bind _ _).pushFunction).bindAll _)
  | whileLoop _ _ _ ih => exact ih hin.pushLoop
  | forEach _ _ _ ih | forTurn _ _ _ _ _ _ ih => exact ih (hin.pushLoop.bind _ _)
  | shortBranch _ _ _ ih | block _ ih => exact ih hin
  | branch _ _ hfirst _ _ ihfirst ihrest | elseIf _ _ hfirst _ ihfirst ihrest
  | cons hfirst _ ihfirst ihrest =>
    intro j hj
    rcases List.mem_append.mp hj with hj | hj
    · exact ihfirst hin j hj
    · exact ihrest (hin.behind hfirst) j hj

/-! ### Simplifying keeps them where they are -/

/-- Statements that follow each other have their jumps one after the other. -/
theorem Stmt.jumpsList_append (around : List Enclosure) (ss ts : List Stmt) :
    Stmt.jumpsList around (ss ++ ts) = Stmt.jumpsList around ss ++ Stmt.jumpsList around ts := by
  induction ss with
  | nil => rfl
  | cons s ss ih => rw [List.cons_append, Stmt.jumpsList, Stmt.jumpsList, ih, List.append_assoc]

theorem Passage.jumps_single (around : List Enclosure) (s : Stmt) :
    Passage.jumps around (.block [s]) = s.jumps around := List.append_nil _

/-- Arms have the jumps of the statements they amount to. -/
theorem Passage.jumps_statements (around : List Enclosure) (e : Else) :
    Passage.jumps around (.block e.statements) = e.jumps around := by
  cases e with
  | elseIf => exact List.append_nil _
  | block => rfl

/-- Simplifying may drop jumps, but what is left stands inside the same things as before. -/
theorem PassageSimplified.jumps_sublist {returns : Returns} {d d' : Passage}
    (h : PassageSimplified returns d d') (around : List Enclosure) :
    (d'.jumps around).Sublist (d.jumps around) := by
  induction h generalizing around with
  | declareVar | assign | bump | call | breakLoop | returnValue | returnNone | nil =>
    exact List.Sublist.refl _
  | assignSelf | shortPassed | whileNever | forEachNever | forTurnNever => exact List.nil_sublist _
  | declareFunc _ ih =>
    rw [Passage.jumps_single]
    exact ih (.function :: around)
  | whileLoop _ _ ih | forEach _ _ ih | forTurn _ _ ih =>
    rw [Passage.jumps_single]
    exact ih (.loop :: around)
  | branch _ _ _ ihbody ihelse =>
    rw [Passage.jumps_single]
    exact (ihbody around).append (ihelse around)
  | shortBranch _ _ ih =>
    rw [Passage.jumps_single]
    exact ih around
  | branchTaken _ _ ih => exact (ih around).trans (List.sublist_append_left _ _)
  | branchPassed _ _ ih =>
    rw [Passage.jumps_statements]
    exact (ih around).trans (List.sublist_append_right _ _)
  | shortTaken _ _ ih | block _ ih => exact ih around
  | elseIf _ ih =>
    -- The arms are those of the `if` that they amount to.
    show (Else.jumps around _).Sublist _
    rw [← Passage.jumps_statements, Else.statements_ofList]
    exact ih around
  | cons _ _ ihfirst ihrest =>
    show (Stmt.jumpsList around _).Sublist _
    rw [Stmt.jumpsList_append]
    exact (ihfirst around).append (ihrest around)

/-! ### Jumps out of nowhere -/

/-- What a jump is refused for when there is nothing of this kind to leave. -/
def Enclosure.absent : Enclosure → Cause
  | loop => .breakOutsideLoop
  | function => .returnOutsideFunction

/-- Among the jumps is one that leaves something that is not around it. -/
def Stray (kind : Enclosure) (jumps : List Jump) : Prop :=
  ∃ j ∈ jumps, j.leaves = kind ∧ kind ∉ j.around

/-- A stray jump is one among more jumps too. -/
theorem Stray.mono {kind : Enclosure} {few many : List Jump} (h : Stray kind few)
    (hsub : ∀ j ∈ few, j ∈ many) : Stray kind many := by
  obtain ⟨j, hj, hstray⟩ := h
  exact ⟨j, hsub j hj, hstray⟩

theorem Stray.left {kind : Enclosure} {first : List Jump} (h : Stray kind first)
    (rest : List Jump) : Stray kind (first ++ rest) :=
  h.mono (fun _ => List.mem_append_left rest)

theorem Stray.right {kind : Enclosure} {rest : List Jump} (h : Stray kind rest)
    (first : List Jump) : Stray kind (first ++ rest) :=
  h.mono (fun _ => List.mem_append_right first)

/-- A jump that is refused has nothing of its kind around it. -/
theorem JumpRefused.stray {scope : Scope} {s : Source.Stmt} {fault : Fault} {kind : Enclosure}
    (h : JumpRefused scope s fault) (hcause : fault.cause = kind.absent)
    {around : List Enclosure} (hin : scope.Inside around) :
    Stray kind ((Source.Passage.stmt s).jumps around) := by
  cases h with
  | breakLoop hloop =>
    rw [checkInLoop_eq_error hloop] at hcause
    cases kind with
    | loop => exact ⟨⟨.loop, around⟩, List.mem_singleton_self _, rfl, hin.not_loop hloop⟩
    | function => cases hcause
  | returnValue hfunction | returnNone hfunction =>
    rw [checkInFunction_eq_error hfunction] at hcause
    cases kind with
    | loop => cases hcause
    | function =>
      exact ⟨⟨.function, around⟩, List.mem_singleton_self _, rfl, hin.not_function hfunction⟩

/-- A stray jump in a part that lowering comes to is a stray jump of the whole. -/
theorem Reached.stray {strictness : Strictness} {scope inner : Scope} {session start : Session}
    {d t : Source.Passage} {kind : Enclosure}
    (h : Reached strictness scope session d inner start t)
    (ht : ∀ {around}, inner.Inside around → Stray kind (t.jumps around))
    {around : List Enclosure} (hin : scope.Inside around) : Stray kind (d.jumps around) := by
  induction h generalizing around with
  | here => exact ht hin
  -- A body is read with what it stands in around it.
  | funcBody _ _ _ ih => exact ih ht ((hin.bind _ _).pushFunction.bindAll _)
  | whileBody _ _ _ ih => exact ih ht hin.pushLoop
  | forEachBody _ _ _ ih | forTurnBody _ _ _ _ _ _ ih => exact ih ht (hin.pushLoop.bind _ _)
  | branchBody _ _ _ ih | elseIfBody _ _ _ ih | first _ ih => exact (ih ht hin).left _
  | branchElse _ _ hfirst _ ih | elseIfElse _ _ hfirst _ ih | rest hfirst _ ih =>
    exact (ih ht (hin.behind hfirst)).right _
  | block _ ih => exact ih ht hin

/-- A passage that is refused for a jump has such a jump, out of nowhere. -/
theorem PassageRefused.stray {strictness : Strictness} {scope : Scope} {session : Session}
    {d : Source.Passage} {fault : Fault} {kind : Enclosure}
    (h : PassageRefused strictness scope session d fault) (hcause : fault.cause = kind.absent)
    {around : List Enclosure} (hin : scope.Inside around) : Stray kind (d.jumps around) := by
  obtain ⟨inner, start, t, hreached, hbroken⟩ := h
  have htopic : fault.cause.topic = .jump := by
    rw [hcause]
    cases kind <;> rfl
  obtain ⟨s, rfl, hrefused⟩ := hbroken.jumpRefused htopic
  exact hreached.stray (hrefused.stray hcause) hin

/-! ### Whole programs -/

/-- A program that compiles has no jump out of nowhere, neither as it was written nor as it was
compiled. If it is refused for a `break` outside a loop, it has a `break` with no loop around it;
if it is refused for a `return` outside a function, it has a `return` with no function around
it. -/
theorem Source.jumps_placed (strictness : Strictness) (tree : List Source.Stmt) :
    (∀ p, compile strictness tree = .ok p →
      (∀ j ∈ p.jumps, j.Placed) ∧ ∀ j ∈ Source.jumps tree, j.Placed) ∧
    (∀ span, Source.lower strictness tree = .error ⟨.breakOutsideLoop, span⟩ →
      Stray .loop (Source.jumps tree)) ∧
    (∀ span, Source.lower strictness tree = .error ⟨.returnOutsideFunction, span⟩ →
      Stray .function (Source.jumps tree)) := by
  refine ⟨fun p h => ?_, fun span h => ?_, fun span h => ?_⟩
  · obtain ⟨typed, htyped, rfl⟩ := compile_eq_ok h
    obtain ⟨last, session, hlowered, _⟩ := passageLowered_of_program htyped
    have hplaced := hlowered.placed .program
    have hleft := (passageSimplified_list typed.returns typed.body).jumps_sublist []
    refine ⟨fun j hj => hplaced j (hleft.subset hj), fun j hj => hplaced j ?_⟩
    rw [hlowered.jumps_eq]
    exact hj
  · exact (passageRefused_of_program h).stray rfl .program
  · exact (passageRefused_of_program h).stray rfl .program

namespace Escape

open Source (label)

/-- A function that does nothing but `break` and `return`. -/
def function : Source.Stmt :=
  .declareFunc .none (label "f") [] .none none [.breakLoop ⟨1, 2⟩, .returnNone ⟨3, 4⟩]

/-- An endless loop, with the statement in an arm that is always taken. -/
def endless (s : Source.Stmt) : Source.Stmt :=
  .whileLoop .none (.bool .none true) [.branch .none (.bool .none true) [s] .nothing]

def compiled : Program :=
  ⟨[.whileLoop (.bool true)
    [.declareFunc ⟨14, "f", .declared [] none⟩ [.breakLoop, .returnNone]]], [(14, .any)]⟩

/-- The loop is around the function. Without the loop the `break` is refused, and without the
function the `return` is. -/
theorem leaves_loop :
    ((∀ j ∈ compiled.jumps, j.Placed) ∧ ∀ j ∈ Source.jumps [endless function], j.Placed) ∧
    Stray .loop (Source.jumps [function]) ∧
    Stray .function (Source.jumps [endless (.returnNone ⟨3, 4⟩)]) :=
  ⟨(Source.jumps_placed .strict [endless function]).1 compiled rfl,
    (Source.jumps_placed .strict [function]).2.1 (some ⟨1, 2⟩) rfl,
    (Source.jumps_placed .strict [endless (.returnNone ⟨3, 4⟩)]).2.2 (some ⟨3, 4⟩) rfl⟩

end Escape

end Croupier
