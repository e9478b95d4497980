import Croupier.Proofs.Recursion
import Croupier.Proofs.Settling
import Croupier.Proofs.WellTyped

/-!
# The results of functions

When the body of a function has been read, its result is settled. Without an ascription it is the
union of all types that the body returns, and `any` if it returns nothing or too much. With one it
is what the author says, and then each member of each type that is returned has to go together with
a type that is listed; a function is refused for the first one of which this is not so.

Which types a body returns depends on the results that are settled when it has been read, as it may
return a function that it declares. The result of the function itself is not among them.

> `Source.results_reconciled`: in a typed program every result is what it should be, and a program
> is refused over a result exactly when lowering comes to a function that returns something that
> its author does not list.
-/

namespace Croupier

/-! ### What an ascription admits -/

/-- Every member of the type goes together with one that is listed: they are equal, or one of them
is `any`. -/
def Ascription.Admits (names : Ascription) (t : Ty) : Prop :=
  ∀ m ∈ t.parts, ∃ n ∈ names, n.prim = .any ∨ m = .any ∨ m = .prim n.prim

/-- A primitive type goes together with itself, and everything goes together with `any`. -/
theorem Ty.compatible_prim {p : Prim} {t : Ty} :
    (Ty.prim p).compatible t = true ↔ p = .any ∨ t = .any ∨ t = .prim p := by
  have hsame : (Ty.prim p == t) = true ↔ t = .prim p :=
    ⟨Ty.eq_of_prim_same, fun h => h ▸ Ty.same_self t⟩
  unfold Ty.compatible
  rw [Bool.or_eq_true, Bool.or_eq_true, Ty.isAny_iff, Ty.isAny_iff, hsame, Ty.prim.injEq, or_assoc]

/-- The check on what is returned asks whether each of its members goes together with one that is
listed. -/
theorem Ascription.admittedBy_members {names : Ascription} {t : Ty} :
    t.admittedBy names.members = true ↔ names.Admits t := by
  have hmembers := Ty.distinctAmong_flatten [t]
  rw [Ty.partsList_singleton] at hmembers
  unfold Ty.admittedBy
  simp only [List.all_eq_true, List.any_eq_true]
  constructor
  · intro hall m hm
    -- The member itself may be missing, but then the same type is there for it.
    obtain ⟨m', hm', hsame⟩ := hmembers.covers m hm
    obtain ⟨u, hu, hfits⟩ := hall m' hm'
    obtain ⟨n, hn, rfl⟩ := mem_members.mp hu
    refine ⟨n, hn, ?_⟩
    rcases Ty.compatible_prim.mp hfits with hany | rfl | rfl
    · exact Or.inl hany
    · exact Or.inr (Or.inl (Ty.eq_of_prim_same hsame))
    · exact Or.inr (Or.inr (Ty.eq_of_prim_same hsame))
  · intro hadmits m hm
    obtain ⟨n, hn, hfits⟩ := hadmits m (hmembers.among hm)
    exact ⟨.prim n.prim, mem_members.mpr ⟨n, hn, rfl⟩, Ty.compatible_prim.mpr hfits⟩

/-- No type is found that is not admitted exactly if all are. -/
theorem Ascription.find?_eq_none {names : Ascription} {returned : List Ty} :
    returned.find? (fun t => !t.admittedBy names.members) = none ↔
      ∀ t ∈ returned, names.Admits t := by
  simp [List.find?_eq_none, admittedBy_members]

/-- Otherwise the first one is found. -/
theorem Ascription.find?_eq_some {names : Ascription} {returned : List Ty} {found : Ty} :
    returned.find? (fun t => !t.admittedBy names.members) = some found ↔
      ∃ before after, returned = before ++ found :: after ∧ (∀ t ∈ before, names.Admits t) ∧
        ¬ names.Admits found := by
  have hno : (!found.admittedBy names.members) = true ↔ ¬ names.Admits found := by
    rw [← admittedBy_members, Bool.not_eq_true', Bool.not_eq_true]
  rw [List.find?_eq_some_iff_append, hno]
  simp only [Bool.not_not, admittedBy_members]
  constructor
  · rintro ⟨hfound, before, after, heq, hbefore⟩
    exact ⟨before, after, heq, hbefore, hfound⟩
  · rintro ⟨before, after, heq, hbefore, hfound⟩
    exact ⟨hfound, before, after, heq, hbefore⟩

/-! ### Results -/

/-- What the result of a function has to do with the types that it returns. -/
def Reconciled : Option Ascription → List Ty → Ty → Prop
  | none, returned, result => Ty.IsUnion returned result
  | some names, returned, result =>
    Ty.IsUnion names.types result ∧ ∀ t ∈ returned, names.Admits t

/-- How a function is refused that returns something that its author does not list. The first such
type is reported. -/
def Source.FuncDecl.Mismatch (d : Source.FuncDecl) (returned : List Ty) (fault : Fault) : Prop :=
  ∃ names before found after, d.ascribed = some names ∧ returned = before ++ found :: after ∧
    (∀ t ∈ before, names.Admits t) ∧ ¬ names.Admits found ∧
    fault = ⟨.returnMismatch d.name.name names.members found, some d.span⟩

/-- A result that is accepted is the union of what is returned; or the union of what is ascribed,
which admits all that is returned. -/
theorem reconciled_of_ok {function : String} {ascribed : Option Ascription} {returned : List Ty}
    {span : Span} {result : Ty} (h : reconcile function ascribed returned span = .ok result)
    (hreturned : ∀ t ∈ returned, t.parts ≠ []) : Reconciled ascribed returned result := by
  cases ascribed with
  | none =>
    cases h
    exact Ty.isUnion_unionOf hreturned
  | some names =>
    rw [reconcile] at h
    split at h
    next => cases h
    next hnone =>
      cases h
      refine ⟨?_, Ascription.find?_eq_none.mp hnone⟩
      rw [names.ty_eq]
      refine Ty.isUnion_unionOf (fun t ht => ?_)
      obtain ⟨n, _, rfl⟩ := List.mem_map.mp ht
      exact List.cons_ne_nil _ _

/-- A function is refused over its result exactly for the first type that its ascription does not
admit. -/
theorem reconcile_eq_error_iff {d : Source.FuncDecl} {returned : List Ty} {fault : Fault} :
    reconcile d.name.name d.ascribed returned d.span = .error fault ↔
      d.Mismatch returned fault := by
  constructor
  · intro h
    unfold reconcile at h
    split at h
    next => cases h
    next names hnames =>
      split at h
      next found hfound =>
        obtain ⟨before, after, heq, hbefore, hno⟩ := Ascription.find?_eq_some.mp hfound
        exact ⟨names, before, found, after, hnames, heq, hbefore, hno, refuse_eq_error h⟩
      next => cases h
  · rintro ⟨names, before, found, after, hnames, heq, hbefore, hno, rfl⟩
    rw [hnames, reconcile, Ascription.find?_eq_some.mpr ⟨before, after, heq, hbefore, hno⟩]
    rfl

/-! ### Bodies -/

/-- Lowering the program comes to the declaration, in this scope and this session. Its name and its
parameters pass, its body is read and leaves a session behind, and if the function calls itself, it
is ascribed in full. -/
structure BodyRead (strictness : Strictness) (tree : List Source.Stmt) (d : Source.FuncDecl)
    (scope : Scope) (session : Session) (body : List Stmt) (stop : Session) : Prop where
  reached : Reached strictness .program .initial (.block tree) scope session (.stmt d.stmt)
  undeclared : checkUndeclared scope d.name = .ok ()
  params : checkParams d.params = .ok ()
  lowered : ∃ last, Source.Stmt.lowerList strictness (d.inner scope session.nextId) d.body
    (d.entered session) = .ok (body, last) stop
  recursion : checkRecursion (d.func session.nextId) body d.name d.params d.paramsSpan d.ascribed =
    .ok ()

/-- The types that a body returns, with these results settled. -/
def Stmt.returnedTypes (returns : Returns) (body : List Stmt) : List Ty :=
  (Stmt.returnedList body).map (Expr.ty returns)

section Bodies

variable {strictness : Strictness} {tree : List Source.Stmt} {d : Source.FuncDecl} {scope : Scope}
variable {session stop : Session} {body : List Stmt}

/-- Each type that is returned has a member. -/
theorem BodyRead.parts_ne_nil (h : BodyRead strictness tree d scope session body stop) {t : Ty}
    (ht : t ∈ Stmt.returnedTypes stop.returns body) : t.parts ≠ [] := by
  obtain ⟨last, hlast⟩ := h.lowered
  have hscope := h.reached.wellTyped WellTyped.initial
  obtain ⟨hinner, hreturned⟩ :=
    (passageLowered_of_lowerList d.body hlast).wellTyped (hscope.function d session.nextId)
  obtain ⟨e, he, rfl⟩ := List.mem_map.mp ht
  exact (hreturned e he stop.returns hinner.settled).parts_ne_nil

/-- A declaration whose body has been read is lowered if its result can be settled. -/
theorem BodyRead.passageLowered (h : BodyRead strictness tree d scope session body stop)
    {result : Ty}
    (hresult : reconcile d.name.name d.ascribed (returnTypes stop.returns body) d.span =
      .ok result) :
    PassageLowered strictness scope session (.stmt d.stmt)
      (.stmt (.declareFunc (d.func session.nextId) body))
      (scope.bind d.name.name (.func (d.func session.nextId)))
      { stop with returns := (session.nextId, result) :: stop.returns } := by
  obtain ⟨last, hlast⟩ := h.lowered
  exact .declareFunc h.undeclared h.params rfl rfl (passageLowered_of_lowerList d.body hlast)
    h.recursion hresult

open Lowering in
/-- Otherwise it fails. -/
theorem BodyRead.fails (h : BodyRead strictness tree d scope session body stop) {fault : Fault}
    (hresult : reconcile d.name.name d.ascribed (returnTypes stop.returns body) d.span =
      .error fault) :
    d.stmt.lower strictness scope session = .error fault stop := by
  obtain ⟨last, hlast⟩ := h.lowered
  rw [Source.FuncDecl.stmt, Source.Stmt.lower]
  refine bind_error_of_ok (checked_of_ok h.undeclared) ?_
  refine bind_error_of_ok (checked_of_ok h.params) ?_
  refine bind_error_of_ok rfl (bind_error_of_ok hlast ?_)
  refine bind_error_of_ok (checked_of_ok h.recursion) (bind_error_of_ok rfl ?_)
  exact bind_of_error (checked_eq_error.mpr ⟨hresult, rfl⟩)

/-- A declaration whose body has been read fails exactly over a type that is not admitted. -/
theorem BodyRead.fails_iff (h : BodyRead strictness tree d scope session body stop)
    {fault : Fault} :
    (∃ after, d.stmt.lower strictness scope session = .error fault after) ↔
      d.Mismatch (Stmt.returnedTypes stop.returns body) fault := by
  rw [← reconcile_eq_error_iff, Stmt.returnedTypes, ← returnTypes_eq]
  constructor
  · rintro ⟨after, hafter⟩
    cases hresult : reconcile d.name.name d.ascribed (returnTypes stop.returns body) d.span with
    | error other =>
      rw [h.fails hresult] at hafter
      cases hafter
      rfl
    | ok result =>
      have hlowered : d.stmt.lower strictness scope session = .ok _ _ :=
        (h.passageLowered hresult).given
      rw [hlowered] at hafter
      cases hafter
  · exact fun hresult => ⟨stop, h.fails hresult⟩

end Bodies

/-! ### Typed programs -/

/-- A function comes from this declaration, and the result that is settled for it goes with what
its body returns. -/
def SettledBy (strictness : Strictness) (tree : List Source.Stmt) (returns : Returns)
    (d : Source.FuncDecl) (g : Func × List Stmt) : Prop :=
  ∃ scope session stop, BodyRead strictness tree d scope session g.2 stop ∧
    g.1 = d.func session.nextId ∧
    Reconciled d.ascribed (Stmt.returnedTypes stop.returns g.2) (g.1.returnTy returns)

/-- Besides, the function has been declared between two sessions. -/
def SettledWithin (strictness : Strictness) (tree : List Source.Stmt) (start stop : Session)
    (d : Source.FuncDecl) (g : Func × List Stmt) : Prop :=
  SettledBy strictness tree stop.returns d g ∧ start.nextId ≤ g.1.id ∧ g.1.id < stop.nextId

section Typed

variable {strictness : Strictness} {tree : List Source.Stmt} {d : Source.FuncDecl}
variable {g : Func × List Stmt}

/-- With its result the body that was read settles the function. -/
theorem BodyRead.settledBy {scope : Scope} {session stop : Session} {body : List Stmt}
    (h : BodyRead strictness tree d scope session body stop) {result : Ty}
    (hresult : reconcile d.name.name d.ascribed (returnTypes stop.returns body) d.span =
      .ok result) :
    SettledBy strictness tree ((session.nextId, result) :: stop.returns) d
      (d.func session.nextId, body) := by
  have hsettled : (d.func session.nextId).returnTy ((session.nextId, result) :: stop.returns) =
      result := by
    simp [Func.returnTy, Func.signature, Source.FuncDecl.func]
  refine ⟨scope, session, stop, h, rfl, ?_⟩
  rw [hsettled]
  rw [returnTypes_eq] at hresult
  exact reconciled_of_ok hresult (fun t ht => h.parts_ne_nil ht)

/-- What is settled for a function stays so, whichever table has the same for it. -/
theorem SettledBy.of_returnTy {R S : Returns} (h : SettledBy strictness tree R d g)
    (hsame : g.1.returnTy R = g.1.returnTy S) : SettledBy strictness tree S d g := by
  obtain ⟨scope, session, stop, hread, hfunc, hresult⟩ := h
  exact ⟨scope, session, stop, hread, hfunc, hsame ▸ hresult⟩

/-- What is settled between two sessions is settled between any that lie further apart. -/
theorem SettledWithin.widen {start stop start' stop' : Session}
    (h : SettledWithin strictness tree start stop d g) (hstart : start'.nextId ≤ start.nextId)
    (hstop : stop.Extends stop') : SettledWithin strictness tree start' stop' d g := by
  obtain ⟨hsettled, hlow, hhigh⟩ := h
  exact ⟨hsettled.of_returnTy (hstop.returnTy_eq hhigh), Nat.le_trans hstart hlow,
    Nat.lt_of_lt_of_le hhigh hstop.nextId_le⟩

/-- Functions that were declared one after the other. -/
theorem SettledWithin.append {a b c : Session} {ds es : List Source.FuncDecl}
    {gs hs : List (Func × List Stmt)}
    (hfirst : List.Forall₂ (SettledWithin strictness tree a b) ds gs)
    (hrest : List.Forall₂ (SettledWithin strictness tree b c) es hs) (hab : a.Extends b)
    (hbc : b.Extends c) :
    List.Forall₂ (SettledWithin strictness tree a c) (ds ++ es) (gs ++ hs) :=
  List.rel_append (hfirst.imp fun _ _ hg => hg.widen (Nat.le_refl _) hbc)
    (hrest.imp fun _ _ hg => hg.widen hab.nextId_le (.refl _))

/-- All functions that a passage declares are settled behind it. -/
theorem PassageLowered.settledWithin {scope scope' : Scope} {session session' : Session}
    {d : Source.Passage} {d' : Passage}
    (h : PassageLowered strictness scope session d d' scope' session')
    (hreached : Reached strictness .program .initial (.block tree) scope session d) :
    List.Forall₂ (SettledWithin strictness tree session session') d.functions d'.functions := by
  induction h with
  | nothing | nil => exact .nil
  | declareVar | bump | assign | call | breakLoop | returnValue | returnNone =>
    rw [Passage.functions, Passage.nodes, Stmt.function?_nodes rfl]
    exact .nil
  | @declareFunc scope _ session session' span name params paramsSpan ascribed body body' _ _ result
      hnew hparams hvars hf hbody hrec hresult ih =>
    subst hvars hf
    let d : Source.FuncDecl := ⟨span, name, params, paramsSpan, ascribed, body⟩
    have hread : BodyRead strictness tree d scope session body' session' :=
      ⟨hreached, hnew, hparams, ⟨_, hbody.given⟩, hrec⟩
    have hnext : session.nextId + (params.length + 1) ≤ session'.nextId := hbody.extends.nextId_le
    refine .cons ⟨hread.settledBy hresult, Nat.le_refl _, by simp only; omega⟩ ?_
    -- Functions within the body have later numbers, so settling this one does not touch them.
    have hinside : Reached strictness scope session (.stmt d.stmt) (d.inner scope session.nextId)
        (d.entered session) (.block d.body) := .funcBody hnew hparams .here
    refine (ih (hreached.trans hinside)).imp (fun e g hg => ?_)
    obtain ⟨hsettled, hlow, hhigh⟩ := hg
    have hlater : session.nextId + (params.length + 1) ≤ g.1.id := hlow
    have hother : g.1.id ≠ (d.func session.nextId).id := by
      show g.1.id ≠ session.nextId
      omega
    exact ⟨hsettled.of_returnTy (Func.returnTy_cons_of_ne hother).symm, by omega, hhigh⟩
  | shortBranch htest htruth _ ih =>
    rw [Passage.functions, Passage.nodes, Stmt.function?_nodes rfl, Source.Passage.functions,
      Source.Stmt.functions, Source.Else.functions, List.append_nil]
    exact ih (hreached.trans (.branchBody htest htruth .here))
  | branch htest htruth hbody _ helse ihbody ihelse =>
    rw [Passage.functions, Passage.nodes, Stmt.function?_nodes rfl, Stmt.inside,
      List.filterMap_append]
    have hfirst := ihbody (hreached.trans (.branchBody htest htruth .here))
    have hrest := ihelse (hreached.trans (.branchElse htest htruth hbody .here))
    exact SettledWithin.append hfirst hrest hbody.extends helse.extends
  | whileLoop htest htruth _ ih =>
    rw [Passage.functions, Passage.nodes, Stmt.function?_nodes rfl]
    exact ih (hreached.trans (.whileBody htest htruth .here))
  | forEach hcollection hv _ ih =>
    rw [Passage.functions, Passage.nodes, Stmt.function?_nodes rfl]
    have hinner := ih (hreached.trans (.forEachBody hcollection hv .here))
    exact hinner.imp fun _ _ hg => hg.widen (Nat.le_succ _) (.refl _)
  | forTurn hlow hhigh hstep hdirection hv _ ih =>
    rw [Passage.functions, Passage.nodes, Stmt.function?_nodes rfl]
    have hinner := ih (hreached.trans (.forTurnBody hlow hhigh hstep hdirection hv .here))
    exact hinner.imp fun _ _ hg => hg.widen (Nat.le_succ _) (.refl _)
  | elseIf htest htruth hbody helse ihbody ihelse =>
    rw [Passage.functions, Passage.nodes, Else.nodes, List.filterMap_cons_none rfl,
      List.filterMap_append, List.filterMap_append, Expr.function?_nodes]
    have hfirst := ihbody (hreached.trans (.elseIfBody htest htruth .here))
    have hrest := ihelse (hreached.trans (.elseIfElse htest htruth hbody .here))
    exact SettledWithin.append hfirst hrest hbody.extends helse.extends
  | block _ ih => exact ih (hreached.trans (.block .here))
  | cons hfirst hrest ihfirst ihrest =>
    rw [Passage.functions, Passage.nodes, Stmt.nodesList, List.filterMap_append]
    have hhead := ihfirst (hreached.trans (.first .here))
    have htail := ihrest (hreached.trans (.rest hfirst .here))
    exact SettledWithin.append hhead htail hfirst.extends hrest.extends

end Typed

/-! ### Refused programs -/

/-- The cause that has to do with results. -/
def Cause.OfResult : Cause → Prop
  | .returnMismatch _ _ _ => True
  | _ => False

/-- A result is refused at a declaration. -/
theorem Cause.OfResult.topic {cause : Cause} (h : cause.OfResult) :
    cause.topic = .declaration := by
  cases cause <;> first | rfl | exact h.elim

/-- A program that is refused over a result has a function whose result does not go with what it
returns. -/
theorem mismatch_of_refused {strictness : Strictness} {tree : List Source.Stmt} {fault : Fault}
    (h : Source.lower strictness tree = .error fault) (hcause : fault.cause.OfResult) :
    ∃ d ∈ Source.functions tree, ∃ scope session body stop,
      BodyRead strictness tree d scope session body stop ∧
      d.Mismatch (Stmt.returnedTypes stop.returns body) fault := by
  obtain ⟨scope, session, s, hreached, hrefused⟩ :=
    (passageRefused_of_program h).at_declaration hcause.topic
  cases hrefused with
  | varName hnew | funcName hnew =>
    obtain rfl := checkUndeclared_eq_error hnew
    exact hcause.elim
  | params hparams =>
    obtain ⟨_, rfl⟩ := checkParams_eq_error hparams
    exact hcause.elim
  | recursion _ hrec =>
    obtain ⟨_, hlacks⟩ := Source.FuncDecl.lacks_of_checkRecursion hrec
    cases hlacks <;> exact hcause.elim
  | @result d body last stop _ hnew hparams hbody hrec hresult =>
    rw [returnTypes_eq, reconcile_eq_error_iff] at hresult
    exact ⟨d, hreached.functions_subset List.mem_cons_self, scope, session, body, stop,
      ⟨hreached, hnew, hparams, ⟨last, hbody.given⟩, hrec⟩, hresult⟩

/-- If lowering comes to a function that fails, the program is refused for it. -/
theorem Reached.refused {strictness : Strictness} {tree : List Source.Stmt} {scope : Scope}
    {session stop : Session} {d : Source.FuncDecl} {fault : Fault}
    (h : Reached strictness .program .initial (.block tree) scope session (.stmt d.stmt))
    (hfails : d.stmt.lower strictness scope session = .error fault stop) :
    Source.lower strictness tree = .error fault := by
  obtain ⟨last, hlast⟩ := h.fails ⟨stop, hfails⟩
  rw [Source.lower, hlast]

/-! ### Whole programs -/

/-- In a typed program the result of each function is the union of the types that its body returns,
or, if it is ascribed, the union of the types that are listed, which admit all that it returns. The
same is so of every function declaration that lowering comes to and accepts, whatever becomes of the
rest of the program. A declaration whose body has been read fails exactly if it returns a type that
is not admitted, and reports the first one. A program is refused for such a cause exactly if
lowering comes to a declaration that fails so. -/
theorem Source.results_reconciled (strictness : Strictness) (tree : List Source.Stmt) :
    (∀ p, Source.lower strictness tree = .ok p →
      List.Forall₂ (SettledBy strictness tree p.returns) (Source.functions tree) p.functions) ∧
    (∀ d scope session f body after stop,
      Reached strictness .program .initial (.block tree) scope session (.stmt d.stmt) →
      d.stmt.lower strictness scope session = .ok (.declareFunc f body, after) stop →
      SettledBy strictness tree stop.returns d (f, body)) ∧
    (∀ d scope session body stop fault, BodyRead strictness tree d scope session body stop →
      ((∃ after, d.stmt.lower strictness scope session = .error fault after) ↔
        d.Mismatch (Stmt.returnedTypes stop.returns body) fault)) ∧
    (∀ fault, fault.cause.OfResult → (Source.lower strictness tree = .error fault ↔
      ∃ d ∈ Source.functions tree, ∃ scope session body stop,
        BodyRead strictness tree d scope session body stop ∧
        d.Mismatch (Stmt.returnedTypes stop.returns body) fault)) := by
  refine ⟨fun p h => ?_, fun d scope session f body after stop hreached h => ?_,
    fun d scope session body stop fault hread => hread.fails_iff, fun fault hcause => ?_⟩
  · obtain ⟨last, stop, hlowered, hreturns⟩ := passageLowered_of_program h
    rw [hreturns]
    exact (hlowered.settledWithin .here).imp (fun _ _ hg => hg.1)
  · cases passageLowered_of_lower d.stmt h with
    | declareFunc hnew hparams hvars hf hbody hrec hresult =>
      subst hvars hf
      exact BodyRead.settledBy ⟨hreached, hnew, hparams, ⟨_, hbody.given⟩, hrec⟩ hresult
  · constructor
    · exact fun h => mismatch_of_refused h hcause
    · rintro ⟨d, _, scope, session, body, stop, hread, hmismatch⟩
      obtain ⟨after, hfails⟩ := hread.fails_iff.mpr hmismatch
      exact hread.reached.refused hfails

namespace Payout

open Source (label mention number)

/-- `deal pay(won) { if won { return 1 }  return "none"  deal tip() { return true } }`. -/
def pay : Source.FuncDecl :=
  ⟨.none, label "pay", [⟨label "won", none⟩], .none, none,
    [.branch .none (mention "won") [.returnValue .none (number 1)] .nothing,
      .returnValue .none (.string .none "none"),
      .declareFunc .none (label "tip") [] .none none
        [.returnValue .none (.bool .none true)]]⟩

def won : Var := ⟨15, "won", .readOnly, .any⟩

def typedPay : Func := ⟨14, "pay", .declared [won] none⟩

def typedBody : List Stmt :=
  [.shortBranch (.var won) [.returnValue (.int 1)], .returnValue (.string "none"),
    .declareFunc ⟨16, "tip", .declared [] none⟩ [.returnValue (.bool true)]]

def typed : Program :=
  ⟨[.declareFunc typedPay typedBody], [(14, .union [.int, .string]), (16, .boolean)]⟩

/-- `deal owe() float | int { return 1  return "none"  return true }`. -/
def owe : Source.FuncDecl :=
  ⟨⟨1, 2⟩, label "owe", [], .none, some [.float, .int],
    [.returnValue .none (number 1), .returnValue .none (.string .none "none"),
      .returnValue .none (.bool .none true)]⟩

/-- What the function within returns is not returned by the one around it. The other function is
refused for its second value, not for its third. -/
theorem results_reconciled_pay :
    SettledBy .strict [pay.stmt] typed.returns pay (typedPay, typedBody) ∧
    ∃ d ∈ Source.functions [owe.stmt], ∃ scope session body stop,
      BodyRead .strict [owe.stmt] d scope session body stop ∧
      d.Mismatch (Stmt.returnedTypes stop.returns body)
        ⟨.returnMismatch "owe" [.float, .int] .string, some ⟨1, 2⟩⟩ := by
  constructor
  · have hall := (Source.results_reconciled .strict [pay.stmt]).1 typed rfl
    cases hall with
    | cons hfirst _ => exact hfirst
  · exact ((Source.results_reconciled .strict [owe.stmt]).2.2.2
      ⟨.returnMismatch "owe" [.float, .int] .string, some ⟨1, 2⟩⟩ trivial).mp rfl

end Payout

/-! ### Ascribing what was inferred -/

namespace Ascription

/-- The ascription lists the members of a type, in any order and as often as it likes. -/
def Lists (names : Ascription) (t : Ty) : Prop :=
  ∀ m, m ∈ t.parts ↔ ∃ n ∈ names, m = .prim n.prim

/-- If the members of a union are listed, all types that went into it are admitted. -/
theorem Lists.admits {names : Ascription} {returned : List Ty}
    (h : names.Lists (Ty.unionOf returned)) {t : Ty} (ht : t ∈ returned) : names.Admits t := by
  intro m hm
  rcases Ty.unionOf_cases returned with ⟨_, heq⟩ | ⟨_, hparts⟩
  · -- The union is `any`, which admits everything.
    obtain ⟨n, hn, hany⟩ := (h .any).mp (by rw [heq]; exact List.mem_singleton_self _)
    exact ⟨n, hn, Or.inl (Ty.prim.inj hany).symm⟩
  · obtain ⟨m', hm', hsame⟩ :=
      (Ty.distinctAmong_flatten returned).covers m (Ty.mem_partsList.mpr ⟨t, ht, hm⟩)
    obtain ⟨n, hn, rfl⟩ := (h m').mp (by rw [hparts]; exact hm')
    exact ⟨n, hn, Or.inr (Or.inr (Ty.eq_of_prim_same hsame))⟩

/-- An ascription that lists the members of a union stands for that union. -/
theorem Lists.same {names : Ascription} {ts : List Ty} (h : names.Lists (Ty.unionOf ts)) :
    (names.ty == Ty.unionOf ts) = true := by
  have hflatten : Ty.flatten [Ty.unionOf ts] = (Ty.unionOf ts).parts :=
    Ty.flatten_singleton (Ty.distinct_parts_unionOf ts)
  have hmembers : Ty.flatten names.members = names.members := Ty.flatten_flatten names.types
  have hmem : ∀ m, m ∈ names.members ↔ m ∈ (Ty.unionOf ts).parts := by
    intro m
    rw [mem_members, h m]
  have hperm : names.members.Perm (Ty.unionOf ts).parts :=
    (List.perm_ext_iff_of_nodup (Ty.distinctAmong_flatten names.types).distinct.nodup
      (Ty.distinct_parts_unionOf ts).nodup).mpr hmem
  rw [← Ty.unionOf_unionOf ts]
  refine Ty.unionOf_same ?_ (fun m hm => ?_)
  · rw [hflatten, hmembers]
    exact hperm.length_eq
  · rw [hmembers, hmem] at hm
    rw [hflatten]
    exact ⟨m, hm, Ty.same_self m, Ty.same_self m⟩

/-- Members that are all built in can be listed. -/
theorem exists_lists {t : Ty} (h : ∀ m ∈ t.parts, ∃ p, m = .prim p) :
    ∃ names : Ascription, names.Lists t := by
  have hname : ∀ m ∈ t.parts, ∃ n : TypeName, m = .prim n.prim := by
    intro m hm
    obtain ⟨p, rfl⟩ := h m hm
    have hall : ∃ n : TypeName, n.prim = p := by
      cases p with
      | int => exact ⟨.int, rfl⟩
      | float => exact ⟨.float, rfl⟩
      | boolean => exact ⟨.bool, rfl⟩
      | string => exact ⟨.string, rfl⟩
      | any => exact ⟨.any, rfl⟩
    obtain ⟨n, rfl⟩ := hall
    exact ⟨n, rfl⟩
  generalize hparts : t.parts = ms at hname
  suffices hnames : ∃ names : Ascription, names.types = ms by
    obtain ⟨names, hnames⟩ := hnames
    refine ⟨names, fun m => ?_⟩
    rw [hparts, ← hnames, types, List.mem_map]
    simp only [eq_comm]
  clear hparts
  induction ms with
  | nil => exact ⟨[], rfl⟩
  | cons m ms ih =>
    rw [List.forall_mem_cons] at hname
    obtain ⟨⟨n, rfl⟩, hrest⟩ := hname
    obtain ⟨names, rfl⟩ := ih hrest
    exact ⟨n :: names, rfl⟩

end Ascription

/-- If the ascription admits everything that is returned, it is the result. -/
theorem reconcile_of_admits {names : Ascription} {returned : List Ty}
    (h : ∀ t ∈ returned, names.Admits t) (function : String) (span : Span) :
    reconcile function (some names) returned span = .ok names.ty := by
  rw [reconcile, Ascription.find?_eq_none.mpr h]

/-- A result can always be inferred, and if its members are built in, then they can be listed; and
whichever way they are listed, the function is accepted with this ascription and has the same
result. -/
theorem reconcile_listed (function : String) (span : Span) (returns : Returns) (body : List Stmt) :
    ∃ result, reconcile function none (returnTypes returns body) span = .ok result ∧
      ((∀ m ∈ result.parts, ∃ p, m = .prim p) →
        (∃ names : Ascription, names.Lists result) ∧
        ∀ names : Ascription, names.Lists result →
          ∃ ascribed, reconcile function (some names) (returnTypes returns body) span =
            .ok ascribed ∧ (ascribed == result) = true) := by
  refine ⟨Ty.unionOf (returnTypes returns body), rfl, fun hprims => ?_⟩
  refine ⟨Ascription.exists_lists hprims, fun names hnames => ?_⟩
  exact ⟨names.ty, reconcile_of_admits (fun t ht => hnames.admits ht) function span, hnames.same⟩

namespace Payout

/-- The result that was found for the body above can be listed in reverse. -/
theorem reconcile_listed_pay :
    Ascription.Lists [.string, .int, .string] (.union [.int, .string]) ∧
    ∃ ascribed, reconcile "pay" (some [.string, .int, .string]) (returnTypes [] typedBody) .none =
      .ok ascribed ∧ (ascribed == .union [.int, .string]) = true := by
  have hlists : Ascription.Lists [.string, .int, .string] (.union [.int, .string]) := by
    intro m
    simp only [Ty.parts, Ty.partsList, List.mem_append, List.mem_cons, List.not_mem_nil, or_false,
      exists_eq_or_imp, exists_eq_left, TypeName.prim]
    grind
  obtain ⟨result, hresult, hlisted⟩ := reconcile_listed "pay" .none [] typedBody
  cases hresult
  have hprims : ∀ m ∈ (Ty.union [.int, .string]).parts, ∃ p, m = .prim p := by
    simp [Ty.parts, Ty.partsList]
  exact ⟨hlists, (hlisted hprims).2 _ hlists⟩

end Payout

end Croupier
