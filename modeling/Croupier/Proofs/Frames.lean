import Croupier.Proofs.Refused
import Croupier.Proofs.Resolution

/-!
# What a frame declares

A frame declares a name only once. Which declarations share a frame cannot be seen from where they
stand next to each other: the arms of an `if` have no frames, so what they declare, at any depth,
belongs to the frame around the `if`, while the body of a function or a loop has a frame of its
own, in which the parameters or the iterator come first. `Source.frames` lists the frames of a
program as written, each with all the names that it declares.

Lowering keeps the names of the innermost frame in its scope. Behind a passage they are those from
before and those that the passage declares (`PassageLowered.names_eq`), so the check that is made
for each declaration comes to a check of the whole frame.

> `Source.frames_distinct`: in a program that is lowered every frame declares distinct names, and
> a program that is refused over a duplicate has a frame, or a list of parameters, with this name
> in it twice. Names of enclosing frames and of the library do not count.
-/

namespace Croupier

/-! ### Frames of a program -/

namespace Source

mutual

/-- The names that a statement declares in the frame in which it stands. -/
def Stmt.declares : Stmt → List String
  | .declareVar _ _ name _ | .declareFunc _ name _ _ _ _ => [name.name]
  | .branch _ _ body orElse => Stmt.declaresList body ++ orElse.declares
  | .bump _ _ _ | .assign _ _ _ | .call _ _ | .breakLoop _ | .returnValue _ _ | .returnNone _
  | .whileLoop _ _ _ | .forEach _ _ _ _ | .forTurn _ _ _ _ _ => []

/-- The names that the further arms of an `if` declare in the frame around it. -/
def Else.declares : Else → List String
  | .nothing => []
  | .elseIf _ body orElse => Stmt.declaresList body ++ orElse.declares
  | .block body => Stmt.declaresList body

/-- The names that statements declare in the frame in which they follow each other. -/
def Stmt.declaresList : List Stmt → List String
  | [] => []
  | s :: ss => s.declares ++ Stmt.declaresList ss

end

mutual

/-- The frames within a statement, each with the names that it declares. -/
def Stmt.frames : Stmt → List (List String)
  | .declareFunc _ _ params _ _ body =>
    (params.map (fun p => p.name.name) ++ Stmt.declaresList body) :: Stmt.framesList body
  | .whileLoop _ _ body => Stmt.declaresList body :: Stmt.framesList body
  | .forEach _ iterator _ body | .forTurn _ iterator _ _ body =>
    (iterator.name :: Stmt.declaresList body) :: Stmt.framesList body
  | .branch _ _ body orElse => Stmt.framesList body ++ orElse.frames
  | .declareVar _ _ _ _ | .bump _ _ _ | .assign _ _ _ | .call _ _ | .breakLoop _
  | .returnValue _ _ | .returnNone _ => []

/-- The frames within the further arms of an `if`. -/
def Else.frames : Else → List (List String)
  | .nothing => []
  | .elseIf _ body orElse => Stmt.framesList body ++ orElse.frames
  | .block body => Stmt.framesList body

/-- The frames within statements that follow each other. -/
def Stmt.framesList : List Stmt → List (List String)
  | [] => []
  | s :: ss => s.frames ++ Stmt.framesList ss

end

def Passage.declares : Passage → List String
  | stmt s => s.declares
  | arms e => e.declares
  | block ss => Stmt.declaresList ss

def Passage.frames : Passage → List (List String)
  | stmt s => s.frames
  | arms e => e.frames
  | block ss => Stmt.framesList ss

/-- The frames of a program: the outermost one, and those within its statements. -/
def frames (tree : List Source.Stmt) : List (List String) :=
  Stmt.declaresList tree :: Stmt.framesList tree

end Source

/-! ### Names in the innermost frame -/

namespace Scope

/-- The names that the innermost frame binds, in the order in which they were bound. -/
def names (scope : Scope) : List String := (scope.current.bindings.map Prod.fst).reverse

/-- The innermost frame has a name exactly if it is among its names. -/
theorem has_iff_mem_names {scope : Scope} {name : String} :
    scope.has name = true ↔ name ∈ scope.names := by
  rw [has, Frame.get?, List.lookup_isSome_iff, names, List.mem_reverse, List.mem_map]
  constructor
  · rintro ⟨b, hb, hname⟩
    exact ⟨b, hb, (beq_iff_eq.mp hname).symm⟩
  · rintro ⟨b, hb, rfl⟩
    exact ⟨b, hb, beq_self_eq_true _⟩

/-- A name that is bound comes behind those that the frame has. -/
theorem names_bind (scope : Scope) (name : String) (x : Entity) :
    (scope.bind name x).names = scope.names ++ [name] :=
  List.reverse_cons

/-- Parameters that are bound come behind them in their order. -/
theorem names_bindAll (scope : Scope) (vars : List Var) :
    (scope.bindAll vars).names = scope.names ++ vars.map Var.name := by
  induction vars generalizing scope with
  | nil => exact (List.append_nil _).symm
  | cons v vs ih =>
    have hrest := ih (scope.bind v.name (.var v))
    rw [names_bind, List.append_assoc] at hrest
    exact hrest

/-- The frame of a function body begins with the parameters. -/
theorem names_params (scope : Scope) (id : Nat) (params : List Source.Param) :
    (scope.pushFunction.bindAll (paramVars id params)).names =
      params.map (fun p => p.name.name) := by
  rw [names_bindAll, paramVars_names]
  rfl

end Scope

/-- A passage adds the names that it declares to the innermost frame. -/
theorem PassageLowered.names_eq {strictness : Strictness} {scope scope' : Scope}
    {session session' : Session} {d : Source.Passage} {d' : Passage}
    (h : PassageLowered strictness scope session d d' scope' session') :
    scope'.names = scope.names ++ d.declares := by
  induction h with
  | declareVar | declareFunc => exact Scope.names_bind _ _ _
  | bump | assign | call | breakLoop | returnValue | returnNone | whileLoop | forEach | forTurn
  | nothing | nil => exact (List.append_nil _).symm
  | shortBranch _ _ _ ih =>
    rw [Source.Passage.declares, Source.Stmt.declares, Source.Else.declares, List.append_nil]
    exact ih
  | block _ ih => exact ih
  | branch _ _ _ _ _ ihfirst ihrest | elseIf _ _ _ _ ihfirst ihrest | cons _ _ ihfirst ihrest =>
    rw [ihrest, ihfirst, List.append_assoc]
    rfl

/-! ### Lowered programs -/

/-- What passes the check is a new name for the frame. -/
theorem checkUndeclared_fresh {scope : Scope} {name : Ident}
    (h : checkUndeclared scope name = .ok ()) : name.name ∉ scope.names := by
  intro hmem
  rw [checkUndeclared, if_pos (Scope.has_iff_mem_names.mpr hmem)] at h
  exact absurd h (by simp [refuse])

/-- With a name that passes the check the names of the frame stay distinct. -/
theorem Scope.names_nodup_append {scope : Scope} {name : Ident}
    (hnew : checkUndeclared scope name = .ok ()) (hdistinct : scope.names.Nodup) :
    (scope.names ++ [name.name]).Nodup := by
  refine List.nodup_append.mpr ⟨hdistinct, by simp, fun a ha b hb heq => ?_⟩
  rw [heq, List.mem_singleton.mp hb] at ha
  exact checkUndeclared_fresh hnew ha

/-- If the innermost frame has distinct names, it still has them behind a lowered passage, and so
has every frame within the passage. -/
theorem PassageLowered.distinct {strictness : Strictness} {scope scope' : Scope}
    {session session' : Session} {d : Source.Passage} {d' : Passage}
    (h : PassageLowered strictness scope session d d' scope' session')
    (hdistinct : scope.names.Nodup) :
    (scope.names ++ d.declares).Nodup ∧ ∀ frame ∈ d.frames, frame.Nodup := by
  induction h with
  | declareVar hnew => exact ⟨Scope.names_nodup_append hnew hdistinct, List.forall_mem_nil _⟩
  | declareFunc hnew hparams hvars _ _ _ _ ih =>
    subst hvars
    rw [Scope.names_params] at ih
    obtain ⟨hown, hwithin⟩ := ih (checkParams_eq_ok hparams)
    exact ⟨Scope.names_nodup_append hnew hdistinct, List.forall_mem_cons.mpr ⟨hown, hwithin⟩⟩
  | bump | assign | call | breakLoop | returnValue | returnNone | nothing | nil =>
    refine ⟨?_, List.forall_mem_nil _⟩
    show (Scope.names _ ++ []).Nodup
    rwa [List.append_nil]
  | whileLoop _ _ _ ih | forEach _ _ _ ih | forTurn _ _ _ _ _ _ ih =>
    -- The frame of a loop begins with the iterator, or with nothing.
    obtain ⟨hown, hwithin⟩ := ih (by simp [Scope.names, Scope.pushLoop, Scope.bind, Frame.bind])
    refine ⟨?_, List.forall_mem_cons.mpr ⟨hown, hwithin⟩⟩
    show (Scope.names _ ++ []).Nodup
    rwa [List.append_nil]
  | shortBranch _ _ _ ih =>
    obtain ⟨hown, hwithin⟩ := ih hdistinct
    simp only [Source.Passage.declares, Source.Stmt.declares, Source.Else.declares,
      Source.Passage.frames, Source.Stmt.frames, Source.Else.frames, List.append_nil]
    exact ⟨hown, hwithin⟩
  | block _ ih => exact ih hdistinct
  | branch _ _ hfirst _ _ ihfirst ihrest | elseIf _ _ hfirst _ ihfirst ihrest
  | cons hfirst _ ihfirst ihrest =>
    obtain ⟨hown, hwithin⟩ := ihfirst hdistinct
    rw [hfirst.names_eq, List.append_assoc] at ihrest
    obtain ⟨hall, hbehind⟩ := ihrest hown
    exact ⟨hall, List.forall_mem_append.mpr ⟨hwithin, hbehind⟩⟩

/-! ### Refused programs -/

/-- One of the frames declares the name twice. -/
def Repeated (n : String) (frames : List (List String)) : Prop :=
  ∃ frame ∈ frames, 2 ≤ frame.count n

namespace Repeated

variable {n : String} {here first rest : List String} {frames inFirst inRest : List (List String)}

/-- One more frame changes nothing about one that repeats a name. -/
theorem within (h : Repeated n frames) (frame : List String) : Repeated n (frame :: frames) := by
  obtain ⟨inner, hmem, htwice⟩ := h
  exact ⟨inner, List.mem_cons_of_mem _ hmem, htwice⟩

/-- More declarations behind make no difference. -/
theorem before (h : Repeated n ((here ++ first) :: inFirst)) (rest : List String)
    (inRest : List (List String)) :
    Repeated n ((here ++ (first ++ rest)) :: (inFirst ++ inRest)) := by
  obtain ⟨frame, hmem, htwice⟩ := h
  rcases List.mem_cons.mp hmem with rfl | hmem
  · have hsub : (here ++ first).Sublist (here ++ (first ++ rest)) :=
      (List.Sublist.refl here).append (List.sublist_append_left first rest)
    exact ⟨_, List.mem_cons_self, Nat.le_trans htwice (hsub.count_le n)⟩
  · exact ⟨frame, List.mem_cons_of_mem _ (List.mem_append_left _ hmem), htwice⟩

/-- Nor do frames before. -/
theorem behind (h : Repeated n ((here ++ first ++ rest) :: inRest))
    (inFirst : List (List String)) :
    Repeated n ((here ++ (first ++ rest)) :: (inFirst ++ inRest)) := by
  obtain ⟨frame, hmem, htwice⟩ := h
  rw [List.append_assoc] at hmem
  rcases List.mem_cons.mp hmem with rfl | hmem
  · exact ⟨_, List.mem_cons_self, htwice⟩
  · exact ⟨frame, List.mem_cons_of_mem _ (List.mem_append_right _ hmem), htwice⟩

end Repeated

/-- What is declared twice at a place that lowering comes to is declared twice in the whole. The
innermost frame counts with what it has before the place. -/
theorem Reached.repeated {strictness : Strictness} {scope inner : Scope} {session start : Session}
    {d t : Source.Passage} {n : String} (h : Reached strictness scope session d inner start t)
    (hplace : Repeated n ((inner.names ++ t.declares) :: t.frames)) :
    Repeated n ((scope.names ++ d.declares) :: d.frames) := by
  induction h with
  | here => exact hplace
  | funcBody _ _ _ ih =>
    rw [Source.FuncDecl.inner, Scope.names_params] at ih
    exact (ih hplace).within _
  | whileBody _ _ _ ih | forEachBody _ _ _ ih | forTurnBody _ _ _ _ _ _ ih =>
    exact (ih hplace).within _
  | branchBody _ _ _ ih | elseIfBody _ _ _ ih | first _ ih => exact (ih hplace).before _ _
  | branchElse _ _ hfirst _ ih | elseIfElse _ _ hfirst _ ih | rest hfirst _ ih =>
    rw [hfirst.names_eq] at ih
    exact (ih hplace).behind _
  | block _ ih => exact ih hplace

/-- What does not pass the check is a name that the frame has. -/
theorem checkUndeclared_bound {scope : Scope} {name : Ident} {fault : Fault}
    (h : checkUndeclared scope name = .error fault) : name.name ∈ scope.names := by
  unfold checkUndeclared at h
  split at h
  next hhas => exact Scope.has_iff_mem_names.mp hhas
  next => cases h

/-- A parameter that is reported occurs twice among those that were seen and those still to come. -/
theorem firstRepeated_eq_some {seen : List String} {params : List Source.Param} {name : Ident}
    (h : firstRepeated seen params = some name) :
    2 ≤ (seen ++ params.map (fun p => p.name.name)).count name.name := by
  induction params generalizing seen with
  | nil => cases h
  | cons p ps ih =>
    rw [firstRepeated] at h
    split at h
    next hseen =>
      cases h
      have hbefore : 0 < seen.count p.name.name :=
        List.count_pos_iff.mpr (List.contains_iff_mem.mp hseen)
      rw [List.count_append, List.map_cons, List.count_cons_self]
      omega
    next =>
      -- The parameter moves over to those that have been seen.
      have hlater := ih h
      rw [List.cons_append, List.count_cons, List.count_append] at hlater
      rw [List.map_cons, List.count_append, List.count_cons]
      omega

/-- If parameters are refused over a name, it occurs twice among them. -/
theorem checkParams_repeated {params : List Source.Param} {n : String} {span : Option Span}
    (h : checkParams params = .error ⟨.duplicateParameter n, span⟩) :
    2 ≤ (params.map (fun p => p.name.name)).count n := by
  unfold checkParams at h
  split at h
  next name hsome =>
    cases h
    exact firstRepeated_eq_some hsome
  next => cases h

/-- The frame that a refused declaration stands in, or the one that it opens, has the name twice. -/
theorem DeclarationRefused.repeated {strictness : Strictness} {scope : Scope} {session : Session}
    {s : Source.Stmt} {fault : Fault} {n : String}
    (h : DeclarationRefused strictness scope session s fault)
    (hcause : fault.cause = .duplicateDeclaration n ∨ fault.cause = .duplicateParameter n) :
    Repeated n ((scope.names ++ (Source.Passage.stmt s).declares) ::
      (Source.Passage.stmt s).frames) := by
  have hbound : ∀ name : Ident, name.name ∈ scope.names →
      2 ≤ (scope.names ++ [name.name]).count name.name := by
    intro name hmem
    have hbefore : 0 < scope.names.count name.name := List.count_pos_iff.mpr hmem
    rw [List.count_append, List.count_singleton_self]
    omega
  cases h with
  | varName hnew | funcName hnew =>
    obtain rfl := checkUndeclared_eq_error hnew
    rcases hcause with hcause | hcause <;> cases hcause
    exact ⟨_, List.mem_cons_self, hbound _ (checkUndeclared_bound hnew)⟩
  | @params d _ hparams =>
    obtain ⟨name, rfl⟩ := checkParams_eq_error hparams
    rcases hcause with hcause | hcause <;> cases hcause
    -- The frame that the declaration opens begins with the parameters.
    have hown : d.paramNames.count name.name ≤
        (d.paramNames ++ Source.Stmt.declaresList d.body).count name.name :=
      (List.sublist_append_left _ _).count_le _
    have htwice := Nat.le_trans (checkParams_repeated hparams) hown
    exact Repeated.within ⟨_, List.mem_cons_self, htwice⟩ _
  | recursion _ hrec =>
    rcases checkRecursion_eq_error hrec with rfl | ⟨_, rfl⟩ <;>
      rcases hcause with hcause | hcause <;> cases hcause
  | result _ _ _ _ hresult =>
    obtain ⟨_, _, rfl⟩ := reconcile_eq_error hresult
    rcases hcause with hcause | hcause <;> cases hcause

/-- A program that is refused over a duplicate has a frame with this name in it twice. -/
theorem repeated_of_refused {strictness : Strictness} {tree : List Source.Stmt} {fault : Fault}
    {n : String} (h : Source.lower strictness tree = .error fault)
    (hcause : fault.cause = .duplicateDeclaration n ∨ fault.cause = .duplicateParameter n) :
    Repeated n (Source.frames tree) := by
  have htopic : fault.cause.topic = .declaration := by
    rcases hcause with hcause | hcause <;> rw [hcause] <;> rfl
  obtain ⟨inner, start, s, hreached, hrefused⟩ :=
    (passageRefused_of_program h).at_declaration htopic
  -- The outermost frame is empty at the beginning.
  exact hreached.repeated (hrefused.repeated hcause)

/-- A program that is refused over a parameter declares a function that has it twice. -/
theorem paramNames_of_refused {strictness : Strictness} {tree : List Source.Stmt}
    {span : Option Span} {n : String}
    (h : Source.lower strictness tree = .error ⟨.duplicateParameter n, span⟩) :
    ∃ d ∈ Source.functions tree, 2 ≤ d.paramNames.count n := by
  obtain ⟨inner, start, s, hreached, hrefused⟩ :=
    (passageRefused_of_program h).at_declaration rfl
  cases hrefused with
  | varName hnew | funcName hnew => cases checkUndeclared_eq_error hnew
  | @params d _ hparams =>
    exact ⟨d, hreached.functions_subset List.mem_cons_self, checkParams_repeated hparams⟩
  | recursion _ hrec =>
    rcases checkRecursion_eq_error hrec with hfault | ⟨_, hfault⟩ <;> cases hfault
  | result _ _ _ _ hresult =>
    obtain ⟨_, _, hfault⟩ := reconcile_eq_error hresult
    cases hfault

/-! ### Whole programs -/

/-- In a program that is lowered, every frame declares distinct names. If a program is refused
over a duplicate declaration, one frame declares this name twice, and if it is refused over a
duplicate parameter, one parameter list has it twice. A program whose frames declare distinct
names is never refused over a duplicate, whatever its frames have in common with each other or
with the library. -/
theorem Source.frames_distinct (strictness : Strictness) (tree : List Source.Stmt) :
    (∀ p, Source.lower strictness tree = .ok p → ∀ frame ∈ Source.frames tree, frame.Nodup) ∧
    (∀ n span, Source.lower strictness tree = .error ⟨.duplicateDeclaration n, span⟩ →
      Repeated n (Source.frames tree)) ∧
    (∀ n span, Source.lower strictness tree = .error ⟨.duplicateParameter n, span⟩ →
      ∃ d ∈ Source.functions tree, 2 ≤ d.paramNames.count n) ∧
    ((∀ frame ∈ Source.frames tree, frame.Nodup) →
      ∀ fault, Source.lower strictness tree = .error fault →
        ∀ n, fault.cause ≠ .duplicateDeclaration n ∧ fault.cause ≠ .duplicateParameter n) := by
  refine ⟨fun p h => ?_, fun n span h => ?_, fun n span h => ?_, fun hdistinct fault h n => ?_⟩
  · obtain ⟨last, session, hlowered, _⟩ := passageLowered_of_program h
    obtain ⟨hown, hwithin⟩ := hlowered.distinct List.nodup_nil
    exact List.forall_mem_cons.mpr ⟨hown, hwithin⟩
  · exact repeated_of_refused h (Or.inl rfl)
  · exact paramNames_of_refused h
  · have hnever : ¬ Repeated n (Source.frames tree) := by
      rintro ⟨frame, hframe, htwice⟩
      have honce : frame.count n ≤ 1 := List.nodup_iff_count.mp (hdistinct frame hframe) n
      omega
    exact ⟨fun hcause => hnever (repeated_of_refused h (Or.inl hcause)),
      fun hcause => hnever (repeated_of_refused h (Or.inr hcause))⟩

namespace Overlap

open Source (label number)

def declareAt (name : String) (start : Nat) : Source.Stmt :=
  .declareVar ⟨start, start + 1⟩ false ⟨name, ⟨start, start + 1⟩⟩ (number 1)

/-- A variable with the name of a library function, a function with this parameter, and a loop in
its body with this variable again. -/
def nested : List Source.Stmt :=
  [declareAt "hypot" 1, .declareFunc .none (label "f") [⟨label "hypot", none⟩] .none none
    [.whileLoop .none (.bool .none true) [declareAt "hypot" 2]]]

/-- Both arms of an `if` declare a variable. -/
def arms : List Source.Stmt :=
  [.branch .none (.bool .none true) [declareAt "y" 1] (.block [declareAt "y" 2])]

/-- A parameter is repeated. -/
def params : List Source.Stmt :=
  [.declareFunc .none (label "f") [⟨⟨"a", ⟨1, 2⟩⟩, none⟩, ⟨⟨"a", ⟨3, 4⟩⟩, none⟩] .none none []]

def lowered : Program :=
  ⟨[.declareVar ⟨14, "hypot", .mutable, .prim .int⟩ (.int 1),
    .declareFunc ⟨15, "f", .declared [⟨16, "hypot", .readOnly, .any⟩] none⟩
      [.whileLoop (.bool true) [.declareVar ⟨17, "hypot", .mutable, .prim .int⟩ (.int 1)]]],
    [(15, .any)]⟩

/-- Frames may have names in common with each other and with the library. The arms of an `if` are
in one frame. -/
theorem frames_apart :
    (∀ frame ∈ Source.frames nested, frame.Nodup) ∧
    Repeated "y" (Source.frames arms) ∧
    (∃ d ∈ Source.functions params, 2 ≤ d.paramNames.count "a") ∧
    ∀ n, Cause.breakOutsideLoop ≠ .duplicateDeclaration n ∧
      Cause.breakOutsideLoop ≠ .duplicateParameter n :=
  ⟨(Source.frames_distinct .strict nested).1 lowered rfl,
    (Source.frames_distinct .strict arms).2.1 "y" (some ⟨2, 3⟩) rfl,
    (Source.frames_distinct .strict params).2.2.1 "a" (some ⟨3, 4⟩) rfl,
    (Source.frames_distinct .strict (nested ++ [.breakLoop ⟨3, 4⟩])).2.2.2 (by decide)
      ⟨.breakOutsideLoop, some ⟨3, 4⟩⟩ rfl⟩

end Overlap

end Croupier
