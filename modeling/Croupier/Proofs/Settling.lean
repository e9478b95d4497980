import Croupier.Proofs.Coherence

/-!
# Results settle in time

While the body of a function is read, its result is not settled: mentions of it have the ascribed
type, or `any`. Types computed from that are kept, and nobody comes back to them when the result
is settled in the end. This module says why that does no harm.

A table of settled results only ever grows, by entries for functions that are declared on the way
(`Session.Extends`). So what was computed for a node can only be out of date if the node uses a
function that was settled later, and that is one in whose body it stands. If the result of that
function is ascribed, settling it confirms what was ascribed. If it is not, the node is no call
of it, because a function that calls itself has to be ascribed; so the node has the function,
unascribed and mentioned by itself, among its parts. This is the one exception, and it is real:
`Func.OpenAt`.

> `PassageLowered.formed`: every node was coherent when it was made, and every function it uses
> has by now the result it had then, unless that function is open at the node.
>
> `Program.call_settled`: no call keeps a provisional type.
>
> `Program.nodes_coherent`: if no unascribed function is mentioned by itself in its own body, every
> node of a lowered program is coherent with the results settled at the end.
-/

namespace Croupier

/-! ### Tables grow -/

/-- A session that comes after another: numbers have been given out, and results have been
settled for functions with such numbers. -/
structure Session.Extends (session session' : Session) : Prop where
  nextId_le : session.nextId ≤ session'.nextId
  returns_eq : ∃ new, session'.returns = new ++ session.returns ∧
    ∀ entry ∈ new, session.nextId ≤ entry.1 ∧ entry.1 < session'.nextId

namespace Session.Extends

theorem refl (session : Session) : session.Extends session :=
  ⟨Nat.le_refl _, [], rfl, by simp⟩

/-- Sessions that come one after the other. -/
theorem trans {a b c : Session} (hab : a.Extends b) (hbc : b.Extends c) : a.Extends c := by
  obtain ⟨hle, new, hnew, hids⟩ := hab
  obtain ⟨hle', new', hnew', hids'⟩ := hbc
  refine ⟨Nat.le_trans hle hle', new' ++ new, by rw [hnew', hnew, List.append_assoc], ?_⟩
  intro entry hentry
  rcases List.mem_append.mp hentry with hentry | hentry
  · have := hids' entry hentry
    omega
  · have := hids entry hentry
    omega

/-- Giving out numbers settles nothing. -/
theorem reserve (session : Session) (count : Nat) :
    session.Extends { session with nextId := session.nextId + count } :=
  ⟨Nat.le_add_right _ _, [], rfl, by simp⟩

/-- Results for other functions do not matter. -/
theorem lookup_append_of_not_mem {id : Nat} {new old : Returns}
    (h : ∀ entry ∈ new, entry.1 ≠ id) : (new ++ old).lookup id = old.lookup id := by
  induction new with
  | nil => rfl
  | cons entry new ih =>
    have hne : (id == entry.1) = false := by
      have := h entry List.mem_cons_self
      simp only [beq_eq_false_iff_ne]
      exact fun heq => this heq.symm
    rw [List.cons_append, List.lookup_cons, hne]
    exact ih (fun e he => h e (List.mem_cons_of_mem _ he))

/-- What has been settled, or will never be, for an earlier function is not touched. -/
theorem returnTy_eq {a b : Session} (h : a.Extends b) {f : Func} (hf : f.id < a.nextId) :
    f.returnTy a.returns = f.returnTy b.returns := by
  obtain ⟨_, new, hnew, hids⟩ := h
  have hlookup : b.returns.lookup f.id = a.returns.lookup f.id := by
    rw [hnew]
    refine lookup_append_of_not_mem (fun entry hentry => ?_)
    have := hids entry hentry
    omega
  unfold Func.returnTy Func.signature
  rw [hlookup]

end Session.Extends

/-- Settling a function that was declared since. -/
theorem Session.extends_settle {a b : Session} (h : a.Extends b) {id : Nat} (result : Ty)
    (hlow : a.nextId ≤ id) (hhigh : id < b.nextId) :
    a.Extends { b with returns := (id, result) :: b.returns } := by
  obtain ⟨hle, new, hnew, hids⟩ := h
  refine ⟨hle, (id, result) :: new, by rw [hnew, List.cons_append], ?_⟩
  intro entry hentry
  rcases List.mem_cons.mp hentry with rfl | hentry
  · exact ⟨hlow, hhigh⟩
  · exact hids entry hentry

/-- Reading statements only gives out numbers and settles results. -/
theorem PassageLowered.extends {strictness : Strictness} {scope scope' : Scope}
    {session session' : Session} {d : Source.Passage} {d' : Passage}
    (h : PassageLowered strictness scope session d d' scope' session') :
    session.Extends session' := by
  induction h with
  | declareVar => exact .reserve _ _
  | @declareFunc scope last session session' span name params _ _ _ _ _ f result _ _ _ hf _ _ _
      ih =>
    -- The function is settled behind its body, under the first of the numbers it took.
    have hbody := (Session.Extends.reserve session (params.length + 1)).trans ih
    have hlast := ih.nextId_le
    refine Session.extends_settle hbody result (Nat.le_refl _) ?_
    show session.nextId < session'.nextId
    simp only at hlast
    omega
  | bump | assign | call | breakLoop | returnValue | returnNone | nothing | nil => exact .refl _
  | shortBranch _ _ _ ih | whileLoop _ _ _ ih | block _ ih => exact ih
  | branch _ _ _ _ _ ihfirst ihrest | elseIf _ _ _ _ ihfirst ihrest | cons _ _ ihfirst ihrest =>
    exact ihfirst.trans ihrest
  | forEach _ _ _ ih | forTurn _ _ _ _ _ _ ih => exact (Session.Extends.reserve _ 1).trans ih

/-! ### Scopes stay behind -/

/-- Everything that a scope holds and a table settles has been declared: its number was given
out. -/
structure Ready (scope : Scope) (session : Session) : Prop where
  below : ∀ f, scope.Holds (.func f) → f.id < session.nextId
  genuine : ∀ f, scope.Holds (.func f) → f.Genuine
  settled : ∀ entry ∈ session.returns, entry.1 < session.nextId

namespace Ready

variable {scope : Scope} {session session' : Session}

/-- What was declared stays declared in later sessions. -/
theorem extend (h : Ready scope session) (he : session.Extends session') :
    Ready scope session' := by
  obtain ⟨hle, new, hnew, hids⟩ := he
  refine ⟨fun f hf => Nat.lt_of_lt_of_le (h.below f hf) hle, h.genuine, ?_⟩
  intro entry hentry
  rw [hnew] at hentry
  rcases List.mem_append.mp hentry with hentry | hentry
  · exact (hids entry hentry).2
  · exact Nat.lt_of_lt_of_le (h.settled entry hentry) hle

theorem of_holds {inner : Scope} (h : Ready scope session)
    (hheld : ∀ f, inner.Holds (.func f) → scope.Holds (.func f)) : Ready inner session :=
  ⟨fun f hf => h.below f (hheld f hf), fun f hf => h.genuine f (hheld f hf), h.settled⟩

/-- Binding a variable adds no function. -/
theorem bind_var (h : Ready scope session) (name : String) (v : Var) :
    Ready (scope.bind name (.var v)) session := by
  refine h.of_holds (fun f hf => ?_)
  rw [Scope.holds_bind] at hf
  simpa using hf

/-- A function may be bound once its number is given out. -/
theorem bind_func (h : Ready scope session) (name : String) {f : Func}
    (hid : f.id < session.nextId) (hf : f.Genuine) :
    Ready (scope.bind name (.func f)) session := by
  refine ⟨fun g hg => ?_, fun g hg => ?_, h.settled⟩
  · rcases Scope.holds_bind.mp hg with heq | hg
    · cases heq
      exact hid
    · exact h.below g hg
  · rcases Scope.holds_bind.mp hg with heq | hg
    · cases heq
      exact hf
    · exact h.genuine g hg

theorem loop (h : Ready scope session) : Ready scope.pushLoop session :=
  h.of_holds (fun _ hf => Scope.holds_pushLoop.mp hf)

theorem iterator (h : Ready scope session) {name : String} {v : Var} :
    Ready (scope.pushLoop.bind name (.var v)) { session with nextId := session.nextId + 1 } :=
  (h.extend (.reserve _ 1)).loop.bind_var name v

theorem body (h : Ready scope session) (vars : List Var) :
    Ready (scope.pushFunction.bindAll vars) session :=
  h.of_holds (fun _ hf => Scope.holds_pushFunction.mp (Scope.holds_bindAll_func.mp hf))

/-- Everything in the library has a number that was given out. -/
theorem initial : Ready .program .initial := by
  have hlib : ∀ b ∈ Library.bindings, b.2.id < Library.size := by decide
  refine ⟨fun f hf => ?_, fun f hf => ?_, by simp [Session.initial]⟩
  · obtain ⟨name, hmem⟩ := Scope.program_holds hf
    exact hlib _ hmem
  · obtain ⟨name, hmem⟩ := Scope.program_holds hf
    exact Library.genuine hmem

end Ready

/-- The functions that a scope holds behind statements were held before or declared since. -/
theorem PassageLowered.holds {strictness : Strictness} {scope scope' : Scope}
    {session session' : Session} {d : Source.Passage} {d' : Passage}
    (h : PassageLowered strictness scope session d d' scope' session') {f : Func}
    (hf : scope'.Holds (.func f)) : scope.Holds (.func f) ∨ session.nextId ≤ f.id := by
  induction h with
  | declareVar =>
    rcases Scope.holds_bind.mp hf with heq | hf
    · cases heq
    · exact Or.inl hf
  | declareFunc _ _ _ hg =>
    rcases Scope.holds_bind.mp hf with heq | hf
    · cases heq
      rw [hg]
      exact Or.inr (Nat.le_refl _)
    · exact Or.inl hf
  | bump | assign | call | breakLoop | returnValue | returnNone | whileLoop | forEach | forTurn
  | nothing | nil => exact Or.inl hf
  | shortBranch _ _ _ ih | block _ ih => exact ih hf
  | branch _ _ hfirst _ _ ihfirst ihrest | elseIf _ _ hfirst _ ihfirst ihrest
  | cons hfirst _ ihfirst ihrest =>
    rcases ihrest hf with hheld | hnew
    · exact ihfirst hheld
    · exact Or.inr (Nat.le_trans hfirst.extends.nextId_le hnew)

/-- The scope in which the body of a function is read. -/
theorem Ready.function {scope : Scope} {session : Session} (h : Ready scope session)
    (name : String) {params : List Source.Param} {f : Func} (hid : f.id = session.nextId)
    (hf : f.Genuine) (vars : List Var) :
    Ready ((scope.bind name (.func f)).pushFunction.bindAll vars)
      { session with nextId := session.nextId + (params.length + 1) } := by
  refine ((h.extend (.reserve _ _)).bind_func name ?_ hf).body vars
  show f.id < session.nextId + (params.length + 1)
  omega

/-- Lowering leaves a scope in which everything is declared. -/
theorem PassageLowered.ready {strictness : Strictness} {scope scope' : Scope}
    {session session' : Session} {d : Source.Passage} {d' : Passage}
    (h : PassageLowered strictness scope session d d' scope' session')
    (hready : Ready scope session) : Ready scope' session' := by
  have hext := h.extends
  induction h with
  | declareVar => exact (hready.extend hext).bind_var _ _
  | declareFunc _ _ _ hf hbody _ _ _ =>
    refine (hready.extend hext).bind_func _ ?_ ?_
    · have hlast := hbody.extends.nextId_le
      rw [hf]
      simp only at hlast ⊢
      omega
    · rw [hf]
      exact Func.genuine_declared
  | bump | assign | call | breakLoop | returnValue | returnNone | whileLoop | forEach | forTurn
  | nothing | nil => exact hready.extend hext
  | shortBranch _ _ hbody ih | block hbody ih => exact ih hready hbody.extends
  | branch _ _ hfirst _ hrest ihfirst ihrest | elseIf _ _ hfirst hrest ihfirst ihrest
  | cons hfirst hrest ihfirst ihrest =>
    exact ihrest (ihfirst hready hfirst.extends) hrest.extends

/-! ### Nodes stay coherent -/

/-- A node stands in the body of a function whose result was not ascribed, so that it was not
known when the node was made. -/
def Func.OpenAt (f : Func) (nodes : List Node) (x : Node) : Prop :=
  f.ascribed = none ∧ ∃ body, .stmt (.declareFunc f body) ∈ nodes ∧ x ∈ Stmt.nodesList body

/-- A node among those made between two sessions was coherent when it was made, and the functions
it uses are known and have the result that they had then, unless they are open at the node. -/
def Node.Formed (scope : Scope) (session session' : Session) (nodes : List Node) (x : Node) :
    Prop :=
  ∃ R, x.Coherent R ∧ ∀ f, x.Uses f →
    (scope.Holds (.func f) ∨ session.nextId ≤ f.id) ∧ f.id < session'.nextId ∧
      (f.returnTy R = f.returnTy session'.returns ∨ f.OpenAt nodes x)

namespace Node.Formed

variable {scope : Scope} {session session' : Session} {nodes : List Node} {x : Node}

/-- A node that uses only functions already declared. -/
theorem of_held (hready : Ready scope session) (hext : session.Extends session')
    (hx : x.Coherent session.returns) (huses : ∀ f, x.Uses f → scope.Holds (.func f)) :
    x.Formed scope session session' nodes := by
  refine ⟨session.returns, hx, fun f hf => ?_⟩
  have hheld := huses f hf
  have hid := hready.below f hheld
  exact ⟨Or.inl hheld, Nat.lt_of_lt_of_le hid hext.nextId_le, Or.inl (hext.returnTy_eq hid)⟩

/-- What holds of a node among a few holds of it among more, in an earlier scope and in a later
session. -/
theorem widen {inner : Scope} {start stop : Session} {few : List Node}
    (h : x.Formed inner start stop few)
    (hheld : ∀ f, inner.Holds (.func f) → scope.Holds (.func f) ∨ session.nextId ≤ f.id)
    (hstart : session.nextId ≤ start.nextId) (hstop : stop.Extends session')
    (hnodes : ∀ y ∈ few, y ∈ nodes) : x.Formed scope session session' nodes := by
  obtain ⟨R, hx, huses⟩ := h
  refine ⟨R, hx, fun f hf => ?_⟩
  obtain ⟨hknown, hid, hresult⟩ := huses f hf
  refine ⟨?_, Nat.lt_of_lt_of_le hid hstop.nextId_le, ?_⟩
  · rcases hknown with hf | hf
    · exact hheld f hf
    · exact Or.inr (Nat.le_trans hstart hf)
  · rcases hresult with heq | ⟨hasc, body, hmem, hin⟩
    · exact Or.inl (heq.trans (hstop.returnTy_eq hid))
    · exact Or.inr ⟨hasc, body, hnodes _ hmem, hin⟩

end Node.Formed

/-- The nodes of a phrase have all their parts among them. -/
theorem Phrase.nodes_closed (d : Phrase) : Node.ClosedUnderParts d.nodes := by
  cases d with
  | expr e => exact e.nodes_closed
  | list es => exact Expr.nodesList_closed es
  | members ms => exact Expr.nodesMembers_closed ms

/-- Every function that a node of an expression uses is held by the scope. -/
theorem PhraseLowered.uses_held {setting : Setting} {d : Source.Phrase} {d' : Phrase}
    (h : PhraseLowered setting d d') {x : Node} (hx : x ∈ d'.nodes) {f : Func} (hf : x.Uses f) :
    setting.scope.Holds (.func f) := by
  rcases hf with hpart | ⟨args, ty, rfl⟩
  · obtain ⟨e, e', heq, he⟩ := h.of_mem (d'.nodes_closed x hx _ hpart)
    cases heq
    exact he.func_held
  · obtain ⟨e, e', heq, he⟩ := h.of_mem hx
    cases heq
    exact he.callee_held

section Formed

variable {strictness : Strictness} {scope : Scope} {session session' : Session}
  {nodes : List Node}

/-- What an expression is lowered to is formed: all functions in it were found in the scope, and
results that are settled by then do not change. -/
theorem PhraseLowered.formed {d : Source.Phrase} {d' : Phrase}
    (h : PhraseLowered ⟨strictness, session.returns, scope⟩ d d') (hready : Ready scope session)
    (hext : session.Extends session') :
    ∀ x ∈ d'.nodes, x.Formed scope session session' nodes := by
  intro x hx
  exact .of_held hready hext (h.coherent hready.genuine x hx) (fun f hf => h.uses_held hx hf)

/-- Settling one function leaves all others as they are. -/
theorem Func.returnTy_cons_of_ne {f g : Func} {result : Ty} {R : Returns} (h : g.id ≠ f.id) :
    g.returnTy ((f.id, result) :: R) = g.returnTy R := by
  unfold Func.returnTy Func.signature
  rw [List.lookup_cons, beq_eq_false_iff_ne.mpr h]

/-- Settling an ascribed function confirms what was ascribed. -/
theorem Func.returnTy_confirmed {f : Func} {name : String} {vars : List Var}
    {ascribed : Option Ascription} {returned : List Ty} {span : Span} {result : Ty}
    (hf : f = ⟨session.nextId, name, .declared vars (ascribed.map Ascription.ty)⟩)
    (hready : Ready scope session)
    (hresult : reconcile name ascribed returned span = .ok result) (R : Returns)
    (hascribed : f.ascribed ≠ none) :
    f.returnTy session.returns = f.returnTy ((f.id, result) :: R) := by
  subst hf
  cases ascribed with
  | none => exact absurd rfl hascribed
  | some names =>
    -- The number is fresh, so nothing has been settled under it before.
    have hunsettled : session.returns.lookup session.nextId = none := by
      rw [List.lookup_eq_none_iff]
      intro entry hentry
      have := hready.settled entry hentry
      simp only [bne_iff_ne]
      omega
    have hconfirmed : result = names.ty := by
      simp only [reconcile] at hresult
      split at hresult
      next => exact absurd hresult (by simp [refuse])
      next => cases hresult; rfl
    simp [Func.returnTy, Func.signature, hunsettled, hconfirmed]

/-- From the body of a function to the outside. Of the functions used in the body only the
function itself is settled now, and it was either confirmed or is open there. -/
theorem Node.Formed.leave {name : String} {f : Func} {vars : List Var} {count : Nat}
    {body : List Stmt} {result : Ty} {x : Node} (hx : x ∈ Stmt.nodesList body)
    (h : x.Formed ((scope.bind name (.func f)).pushFunction.bindAll vars)
      { session with nextId := session.nextId + (count + 1) } session' (Stmt.nodesList body))
    (hready : Ready scope session) (hid : f.id = session.nextId)
    (hconfirmed : f.ascribed ≠ none →
      f.returnTy session'.returns = f.returnTy ((f.id, result) :: session'.returns)) :
    x.Formed scope session { session' with returns := (f.id, result) :: session'.returns }
      (.stmt (.declareFunc f body) :: Stmt.nodesList body) := by
  obtain ⟨R, hcoherent, huses⟩ := h
  refine ⟨R, hcoherent, fun g hg => ?_⟩
  obtain ⟨hknown, hlow, hresult⟩ := huses g hg
  -- What is used in the body is the function itself, an older one, or one from the body.
  have hheld : g = f ∨ scope.Holds (.func g) ∨ session.nextId < g.id := by
    rcases hknown with hheld | hnew
    · rw [Scope.holds_bindAll_func, Scope.holds_pushFunction, Scope.holds_bind] at hheld
      rcases hheld with heq | hheld
      · cases heq
        exact Or.inl rfl
      · exact Or.inr (Or.inl hheld)
    · refine Or.inr (Or.inr ?_)
      simp only at hnew
      omega
  rcases hheld with rfl | hother
  · refine ⟨Or.inr (Nat.le_of_eq hid.symm), hlow, ?_⟩
    by_cases hasc : g.ascribed = none
    · exact Or.inr ⟨hasc, body, List.mem_cons_self, hx⟩
    · rcases hresult with heq | hopen
      · exact Or.inl (heq.trans (hconfirmed hasc))
      · exact absurd hopen.1 hasc
  · have hne : g.id ≠ f.id := by
      rcases hother with hheld | hnew
      · have := hready.below g hheld
        omega
      · omega
    refine ⟨hother.imp_right Nat.le_of_lt, hlow, ?_⟩
    rcases hresult with heq | ⟨hasc, inner, hmem, hin⟩
    · exact Or.inl (heq.trans (Func.returnTy_cons_of_ne hne).symm)
    · exact Or.inr ⟨hasc, inner, List.mem_cons_of_mem _ hmem, hin⟩

theorem mem_cons_append {x root : Node} {own inner : List Node} :
    x ∈ root :: (own ++ inner) ↔ x ∈ root :: own ∨ x ∈ inner := by
  rw [← List.cons_append, List.mem_append]

/-- A statement and its own expressions, all of them made in one setting. -/
theorem Node.Formed.own (strictness : Strictness) {s : Stmt} {own : List Node} {x : Node}
    (hx : x ∈ .stmt s :: own)
    (hready : Ready scope session) (hext : session.Extends session')
    (hs : s.Coherent session.returns) (hown : own = Expr.nodesList (Node.stmt s).children)
    (hparts : ∀ e' ∈ (Node.stmt s).children,
      ∃ e, PhraseLowered ⟨strictness, session.returns, scope⟩ (.expr e) (.expr e')) :
    x.Formed scope session session' nodes := by
  rcases List.mem_cons.mp hx with rfl | hx
  · refine .of_held hready hext hs (fun f hf => ?_)
    rcases hf with hpart | ⟨_, _, hcall⟩
    · obtain ⟨e, he⟩ := hparts _ hpart
      exact he.func_held
    · cases hcall
  · rw [hown, Expr.mem_nodesList] at hx
    obtain ⟨e', he', hx⟩ := hx
    obtain ⟨e, he⟩ := hparts e' he'
    exact he.formed hready hext x hx

end Formed

/-- Binding an iterator adds no function. -/
theorem Scope.holds_iterator {scope : Scope} {name : String} {v : Var} {f : Func}
    (h : (scope.pushLoop.bind name (.var v)).Holds (.func f)) : scope.Holds (.func f) := by
  rcases Scope.holds_bind.mp h with heq | h
  · cases heq
  · exact Scope.holds_pushLoop.mp h

/-- A function that calls itself and passes the check has a result ascribed to it. -/
theorem checkRecursion_eq_ok {f : Func} {body : List Stmt} {name : Ident}
    {params : List Source.Param} {paramsSpan : Span} {ascribed : Option Ascription}
    (h : checkRecursion f body name params paramsSpan ascribed = .ok ())
    (hcalls : callsItself f body = true) : ascribed ≠ none := by
  unfold checkRecursion checkAscribed at h
  rw [if_pos hcalls] at h
  split at h
  next => exact absurd h (by simp [refuse])
  next => simp

/-- Every node was coherent when it was made, and every function it uses has by now the result it
had then, unless that function is open at the node. -/
theorem PassageLowered.formed {strictness : Strictness} {scope scope' : Scope}
    {session session' : Session} {d : Source.Passage} {d' : Passage}
    (h : PassageLowered strictness scope session d d' scope' session')
    (hready : Ready scope session) :
    ∀ x ∈ d'.nodes, x.Formed scope session session' d'.nodes := by
  have hext := h.extends
  induction h with
  | declareVar _ hinit hv =>
    intro x hx
    refine .own strictness hx hready hext (by rw [hv]; rfl)
      (by simp [Node.children, Expr.nodesList]) ?_
    simpa [Node.children] using ⟨_, hinit⟩
  | @declareFunc scope last session session' span name params _ ascribed _ body' vars f result _ _
      _ hf hbody hrec hresult ih =>
    have hid : f.id = session.nextId := by rw [hf]
    have hgenuine : f.Genuine := by
      rw [hf]
      exact Func.genuine_declared
    intro x hx
    rcases List.mem_cons.mp hx with rfl | hx
    · refine .of_held hready hext ?_ (fun g hg => by simp [Node.Uses, Node.children] at hg)
      intro hcalls
      have hascribed := checkRecursion_eq_ok hrec hcalls
      rw [hf]
      simpa [Func.ascribed] using hascribed
    · have hinner := ih (hready.function name.name hid hgenuine vars) hbody.extends x hx
      rw [← hid]
      refine hinner.leave hx hready hid (fun hasc => ?_)
      -- Nothing settled in the body concerns the function itself.
      have hkept : f.returnTy session.returns = f.returnTy session'.returns := by
        refine hbody.extends.returnTy_eq ?_
        show f.id < session.nextId + (params.length + 1)
        omega
      rw [← hkept]
      exact Func.returnTy_confirmed hf hready hresult session'.returns hasc
  | bump htarget hnumber _ =>
    intro x hx
    refine .own strictness hx hready hext (checkBump_eq_ok hnumber)
      (by simp [Node.children, Expr.nodesList]) ?_
    simpa [Node.children] using ⟨_, htarget⟩
  | assign htarget _ hsource =>
    intro x hx
    refine .own strictness hx hready hext trivial (by simp [Node.children, Expr.nodesList]) ?_
    simpa [Node.children] using ⟨⟨_, htarget⟩, ⟨_, hsource⟩⟩
  | call hvalue | returnValue _ hvalue =>
    intro x hx
    refine .own strictness hx hready hext trivial (by simp [Node.children, Expr.nodesList]) ?_
    simpa [Node.children] using ⟨_, hvalue⟩
  | breakLoop | returnNone =>
    intro x hx
    rw [List.mem_singleton.mp hx]
    exact .of_held hready hext trivial (fun f hf => by simp [Node.Uses, Node.children] at hf)
  | shortBranch htest htruth hbody ih =>
    intro x hx
    rcases mem_cons_append.mp hx with hx | hx
    · refine .own strictness hx hready hext (checkBoolean_eq_ok htruth)
        (by simp [Node.children, Expr.nodesList]) ?_
      simpa [Node.children] using ⟨_, htest⟩
    · refine (ih hready hext x hx).widen (fun _ => Or.inl) (Nat.le_refl _) (.refl _) ?_
      intro y hy
      exact List.mem_cons_of_mem _ (List.mem_append_right _ hy)
  | branch htest htruth hbody _ helse ihbody ihelse
  | elseIf htest htruth hbody helse ihbody ihelse =>
    intro x hx
    rcases mem_cons_append.mp hx with hx | hx
    · rcases mem_cons_append.mp hx with hx | hx
      · refine .own strictness hx hready hext (checkBoolean_eq_ok htruth)
          (by simp [Node.children, Expr.nodesList]) ?_
        simpa [Node.children] using ⟨_, htest⟩
      · refine (ihbody hready hbody.extends x hx).widen (fun _ => Or.inl) (Nat.le_refl _)
          helse.extends ?_
        intro y hy
        exact List.mem_cons_of_mem _ (List.mem_append_left _ (List.mem_append_right _ hy))
    · refine (ihelse (hbody.ready hready) helse.extends x hx).widen (fun _ => hbody.holds)
        hbody.extends.nextId_le (.refl _) ?_
      intro y hy
      exact List.mem_cons_of_mem _ (List.mem_append_right _ hy)
  | whileLoop htest htruth hbody ih =>
    intro x hx
    rcases mem_cons_append.mp hx with hx | hx
    · refine .own strictness hx hready hext (checkBoolean_eq_ok htruth)
        (by simp [Node.children, Expr.nodesList]) ?_
      simpa [Node.children] using ⟨_, htest⟩
    · refine (ih hready.loop hext x hx).widen (fun _ hf => Or.inl (Scope.holds_pushLoop.mp hf))
        (Nat.le_refl _) (.refl _) ?_
      intro y hy
      exact List.mem_cons_of_mem _ (List.mem_append_right _ hy)
  | forEach hcollection hv hbody ih =>
    intro x hx
    rcases mem_cons_append.mp hx with hx | hx
    · refine .own strictness hx hready hext (by rw [hv]; rfl)
        (by simp [Node.children, Expr.nodesList]) ?_
      simpa [Node.children] using ⟨_, hcollection⟩
    · refine (ih hready.iterator hbody.extends x hx).widen
        (fun _ hf => Or.inl (Scope.holds_iterator hf)) (Nat.le_succ _) (.refl _) ?_
      intro y hy
      exact List.mem_cons_of_mem _ (List.mem_append_right _ hy)
  | forTurn hlow hhigh hstep _ hv hbody ih =>
    intro x hx
    rcases mem_cons_append.mp hx with hx | hx
    · refine .own strictness hx hready hext (by rw [hv]; rfl)
        (by simp [Node.children, Expr.nodesList]) ?_
      simpa [Node.children] using ⟨⟨_, hlow⟩, ⟨_, hhigh⟩, ⟨_, hstep⟩⟩
    · refine (ih hready.iterator hbody.extends x hx).widen
        (fun _ hf => Or.inl (Scope.holds_iterator hf)) (Nat.le_succ _) (.refl _) ?_
      intro y hy
      exact List.mem_cons_of_mem _ (List.mem_append_right _ hy)
  | nothing | nil =>
    intro x hx
    cases hx
  | block hbody ih => exact ih hready hext
  | cons hfirst hrest ihfirst ihrest =>
    intro x hx
    rcases List.mem_append.mp hx with hx | hx
    · refine (ihfirst hready hfirst.extends x hx).widen (fun _ => Or.inl) (Nat.le_refl _)
        hrest.extends ?_
      intro y hy
      exact List.mem_append_left _ hy
    · refine (ihrest (hfirst.ready hready) hrest.extends x hx).widen (fun _ => hfirst.holds)
        hfirst.extends.nextId_le (.refl _) ?_
      intro y hy
      exact List.mem_append_right _ hy

/-! ### Whole programs -/

/-- Every node of a lowered program was coherent with some table, from which the final one differs
only in functions that were open at the node. -/
theorem Program.formed {strictness : Strictness} {tree : List Source.Stmt} {p : Program}
    (h : Source.lower strictness tree = .ok p) : ∀ x ∈ p.nodes, ∃ R, x.Coherent R ∧
      ∀ f, x.Uses f → f.returnTy R = f.returnTy p.returns ∨ f.OpenAt p.nodes x := by
  obtain ⟨last, session, hlowered, hreturns⟩ := passageLowered_of_program h
  intro x hx
  obtain ⟨R, hcoherent, huses⟩ := hlowered.formed .initial x hx
  refine ⟨R, hcoherent, fun f hf => ?_⟩
  rw [hreturns]
  exact (huses f hf).2.2

/-- A function is not open at a call of it: it would call itself, so its result is ascribed. -/
theorem Program.not_openAt_call {strictness : Strictness} {tree : List Source.Stmt} {p : Program}
    (h : Source.lower strictness tree = .ok p) {f : Func} {args : List Expr} {ty : Ty} :
    ¬ f.OpenAt p.nodes (.expr (.call f args ty)) := by
  rintro ⟨hascribed, body, hdeclared, hin⟩
  obtain ⟨R, hcoherent, _⟩ := Program.formed h _ hdeclared
  have hcalls : callsItself f body = true :=
    (callsItself_iff f body).mpr ⟨f, args, ty, hin, rfl⟩
  exact hcoherent hcalls hascribed

/-- No call keeps a provisional type: whatever was known of the callee when the call was read,
the type of the call is the result that was settled for the callee in the end. -/
theorem Program.call_settled {strictness : Strictness} {tree : List Source.Stmt} {p : Program}
    (h : Source.lower strictness tree = .ok p) {f : Func} {args : List Expr} {ty : Ty}
    (hcall : .expr (.call f args ty) ∈ p.nodes) : ty = f.returnTy p.returns := by
  obtain ⟨R, hcoherent, huses⟩ := Program.formed h _ hcall
  have hty : ty = f.returnTy R := hcoherent.2
  rcases huses f (Or.inr ⟨args, ty, rfl⟩) with hsame | hopen
  · rw [hty, hsame]
  · exact absurd hopen (Program.not_openAt_call h)

/-- If no unascribed function is mentioned by itself in its own body, every node of a lowered
program is coherent with the results settled at the end. -/
theorem Program.nodes_coherent {strictness : Strictness} {tree : List Source.Stmt} {p : Program}
    (h : Source.lower strictness tree = .ok p)
    (hself : ∀ f body, .stmt (.declareFunc f body) ∈ p.nodes → f.ascribed = none →
      .expr (.func f) ∉ Stmt.nodesList body) : ∀ x ∈ p.nodes, x.Coherent p.returns := by
  intro x hx
  obtain ⟨R, hcoherent, huses⟩ := Program.formed h x hx
  refine hcoherent.of_returnTy (fun f hf => ?_)
  rcases huses f hf with hsame | hopen
  · exact hsame
  · rcases hf with hpart | ⟨args, ty, rfl⟩
    · obtain ⟨hascribed, body, hdeclared, hin⟩ := hopen
      exact absurd (Stmt.nodesList_closed body x hin _ hpart)
        (hself f body hdeclared hascribed)
    · exact absurd hopen (Program.not_openAt_call h)

namespace Countdown

open Source (label mention number declare)

/-- An ascribed function that calls itself, and an unascribed one that calls the first. -/
def source : List Source.Stmt :=
  [.declareFunc .none (label "down") [⟨label "n", some [.int]⟩] .none (some [.int])
    [.branch .none (.binary .none .less (mention "n") (number 1))
      [.returnValue .none (mention "n")] .nothing,
     .returnValue .none (.call .none (mention "down")
      [.binary .none .subtract (mention "n") (number 1)])],
   .declareFunc .none (label "twice") [] .none none
    [.returnValue .none (.binary .none .multiply (number 2)
      (.call .none (mention "down") [number 3]))],
   declare "x" (.call .none (mention "twice") [])]

def n : Var := ⟨15, "n", .readOnly, .int⟩

def down : Func := ⟨14, "down", .declared [n] (some .int)⟩

def twice : Func := ⟨16, "twice", .declared [] none⟩

/-- What becomes of `source`: the result of `twice` is found to be an `int`. -/
def typed : Program :=
  ⟨[.declareFunc down
      [.shortBranch (.binary (.operator .less) (.var n) (.int 1) .boolean)
        [.returnValue (.var n)],
       .returnValue (.call down [.binary (.operator .subtract) (.var n) (.int 1) .int] .int)],
    .declareFunc twice
      [.returnValue (.binary (.operator .multiply) (.int 2) (.call down [.int 3] .int) .int)],
    .declareVar ⟨17, "x", .mutable, .int⟩ (.call twice [] .int)],
   [(16, .int), (14, .int)]⟩

theorem lower_source : Source.lower .strict source = .ok typed := rfl

theorem call_settled_typed : .int = down.returnTy typed.returns ∧
    .int = twice.returnTy typed.returns := by
  constructor
  · refine Program.call_settled lower_source
      (show .expr (.call down [.int 3] .int) ∈ typed.nodes from ?_)
    simp [Program.nodes, typed, Stmt.nodesList, Stmt.nodes, Expr.nodes]
  · refine Program.call_settled lower_source
      (show .expr (.call twice [] .int) ∈ typed.nodes from ?_)
    simp [Program.nodes, typed, Stmt.nodesList, Stmt.nodes, Expr.nodes]

theorem coherent_typed : Source.lower .strict source = .ok typed ∧
    ∀ x ∈ typed.nodes, x.Coherent typed.returns := by
  refine ⟨lower_source, Program.nodes_coherent lower_source (fun f body hdeclared hascribed => ?_)⟩
  simp only [Program.nodes, typed, Stmt.nodesList, Stmt.nodes, Expr.nodes, Expr.nodesList,
    List.append_nil, List.cons_append, List.nil_append, List.mem_cons, List.not_mem_nil,
    Node.stmt.injEq, Stmt.declareFunc.injEq, reduceCtorEq, false_or, or_false] at hdeclared
  rcases hdeclared with ⟨rfl, rfl⟩ | ⟨rfl, rfl⟩
  · cases hascribed
  · simp [Stmt.nodesList, Stmt.nodes, Expr.nodes, Expr.nodesList]

end Countdown

end Croupier
