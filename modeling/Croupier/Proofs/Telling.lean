import Croupier.Proofs.Freshness
import Croupier.Proofs.Occurrences
import Croupier.Proofs.ReadBack
import Croupier.Proofs.Settling

/-!
# Names and numbers tell the same apart

Whether an assignment assigns a variable to itself is decided by numbers. Whoever compares two
programs does not look at numbers, but at names and types. That the two go together is not true
of typed programs in general: variables of one name and one type may have different numbers, and
in a program with a hidden variable they do.

In a single place of a lowered program they go together, though. All that is mentioned there was
found in one scope, where a name stands for one entity; and different names stand there for
different entities, since each was given a number of its own when it was declared. `Scope.Tells`
says so of a scope. It says nothing of what is hidden in the scope, and it does not have to: a
scope in which a name is visible again is the scope that was left before.

> `Program.told_of_lower`: entities that are mentioned on the sides of one assignment have the same
> number exactly if they have the same name.
-/

namespace Croupier

/-! ### Scopes -/

/-- What names stand for is called so, has a number that was given out, and has it alone. -/
structure Scope.Tells (scope : Scope) (session : Session) : Prop where
  named : scope.Named
  below : ∀ name x, scope.lookup name = some x → x.id < session.nextId
  apart : ∀ a b x y, scope.lookup a = some x → scope.lookup b = some y → x.id = y.id → a = b

namespace Scope.Tells

variable {scope scope' : Scope} {session session' : Session}

/-- Whether a scope tells names apart depends only on what names stand for. -/
theorem of_lookup_eq (h : scope.Tells session) (hlookup : scope'.lookup = scope.lookup) :
    scope'.Tells session := by
  obtain ⟨hnamed, hbelow, hapart⟩ := h
  unfold Scope.Named at hnamed
  rw [← hlookup] at hnamed hbelow hapart
  exact ⟨hnamed, hbelow, hapart⟩

theorem pushLoop (h : scope.Tells session) : scope.pushLoop.Tells session :=
  h.of_lookup_eq (funext scope.lookup_pushLoop)

theorem pushFunction (h : scope.Tells session) : scope.pushFunction.Tells session :=
  h.of_lookup_eq (funext scope.lookup_pushFunction)

/-- Numbers that are given out later do not matter. -/
theorem later (h : scope.Tells session) (hle : session.nextId ≤ session'.nextId) :
    scope.Tells session' :=
  ⟨h.named, fun name x hx => Nat.lt_of_lt_of_le (h.below name x hx) hle, h.apart⟩

/-- What is declared takes the next number, which nothing else in the scope has. -/
theorem bind (h : scope.Tells session) {name : String} {x : Entity} (hname : x.name = name)
    (hid : x.id = session.nextId) (hlt : session.nextId < session'.nextId) :
    (scope.bind name x).Tells session' := by
  have hfound : ∀ other y, (scope.bind name x).lookup other = some y →
      (other = name ∧ y = x) ∨ scope.lookup other = some y := by
    intro other y hy
    by_cases heq : other = name
    · rw [heq, lookup_bind_self] at hy
      exact Or.inl ⟨heq, (Option.some.inj hy).symm⟩
    · rw [lookup_bind_of_ne _ _ heq] at hy
      exact Or.inr hy
  refine ⟨h.named.bind hname, fun other y hy => ?_, fun a b y z hy hz hsame => ?_⟩
  · rcases hfound other y hy with ⟨_, rfl⟩ | hbefore
    · omega
    · have hlow := h.below other y hbefore
      omega
  · rcases hfound a y hy with ⟨ha, rfl⟩ | hybefore
    · rcases hfound b z hz with ⟨hb, _⟩ | hzbefore
      · exact ha.trans hb.symm
      · have hlow := h.below b z hzbefore
        omega
    · rcases hfound b z hz with ⟨_, rfl⟩ | hzbefore
      · have hlow := h.below a y hybefore
        omega
      · exact h.apart a b y z hybefore hzbefore hsame

/-- Parameters take the next numbers one after the other. -/
theorem bindAll (h : scope.Tells session) (params : List Source.Param) :
    (scope.bindAll (paramVars session.nextId params)).Tells
      { session with nextId := session.nextId + params.length } := by
  induction params generalizing scope session with
  | nil => exact h
  | cons p ps ih =>
    let next : Session := { session with nextId := session.nextId + 1 }
    have hfirst : (scope.bind p.name.name
        (.var ⟨session.nextId, p.name.name, .readOnly, p.ty⟩)).Tells next :=
      h.bind rfl rfl (Nat.lt_succ_self _)
    have hrest := ih hfirst
    refine hrest.later ?_
    show session.nextId + 1 + ps.length ≤ session.nextId + (ps.length + 1)
    omega

/-- The scope in which the body of a function is read. -/
theorem function (h : scope.Tells session) {name : String} {f : Func} (hname : f.name = name)
    (hid : f.id = session.nextId) (params : List Source.Param) :
    ((scope.bind name (.func f)).pushFunction.bindAll (paramVars (session.nextId + 1) params)).Tells
      { session with nextId := session.nextId + (params.length + 1) } := by
  let next : Session := { session with nextId := session.nextId + 1 }
  have hbound : (scope.bind name (.func f)).Tells next := h.bind hname hid (Nat.lt_succ_self _)
  refine (hbound.pushFunction.bindAll params).later ?_
  show session.nextId + 1 + params.length ≤ session.nextId + (params.length + 1)
  omega

/-- The scope in which the body of a loop with an iterator is read. -/
theorem iterator (h : scope.Tells session) {name : String} {v : Var} (hname : v.name = name)
    (hid : v.id = session.nextId) :
    (scope.pushLoop.bind name (.var v)).Tells { session with nextId := session.nextId + 1 } :=
  h.pushLoop.bind hname hid (Nat.lt_succ_self _)

/-- Entities of the library have numbers of their own. -/
theorem program : Scope.program.Tells .initial := by
  have hlibrary : ∀ name x, Scope.program.lookup name = some x →
      ∃ b ∈ Library.bindings, b.2 = x := by
    intro name x hx
    obtain ⟨other, hmem⟩ := Scope.program_holds (Scope.holds_of_lookup hx)
    exact ⟨(other, x), hmem, rfl⟩
  have hids : ∀ b ∈ Library.bindings, ∀ c ∈ Library.bindings, b.2.id = c.2.id →
      b.2.name = c.2.name := by decide
  refine ⟨Scope.Named.program, fun name x hx => ?_, fun a b x y hx hy hsame => ?_⟩
  · obtain ⟨entry, hmem, rfl⟩ := hlibrary name x hx
    exact Library.id_lt_size entry hmem
  · have hxname := Scope.Named.program a x hx
    have hyname := Scope.Named.program b y hy
    obtain ⟨entry, hmem, rfl⟩ := hlibrary a x hx
    obtain ⟨other, hother, rfl⟩ := hlibrary b y hy
    rw [← hxname, ← hyname]
    exact hids entry hmem other hother hsame

/-- Statements add what they declare. -/
theorem behind {strictness : Strictness} {d : Source.Passage} {d' : Passage}
    (h : PassageLowered strictness scope session d d' scope' session')
    (htells : scope.Tells session) : scope'.Tells session' := by
  have hle := h.extends.nextId_le
  induction h with
  | declareVar _ _ hv =>
    exact htells.bind (congrArg Var.name hv) (congrArg Var.id hv) (Nat.lt_succ_self _)
  | @declareFunc _ _ session session' _ _ params _ _ _ _ _ _ _ _ _ _ hf hbody =>
    refine htells.bind (congrArg Func.name hf) (congrArg Func.id hf) ?_
    have hlast : session.nextId + (params.length + 1) ≤ session'.nextId :=
      hbody.extends.nextId_le
    show session.nextId < session'.nextId
    omega
  | bump | assign | call | breakLoop | returnValue | returnNone | whileLoop | forEach | forTurn
  | nothing | nil => exact htells.later hle
  | shortBranch _ _ hbody ih | block hbody ih => exact ih htells hbody.extends.nextId_le
  | branch _ _ hfirst _ hrest ihfirst ihrest | elseIf _ _ hfirst hrest ihfirst ihrest
  | cons hfirst hrest ihfirst ihrest =>
    exact ihrest (ihfirst htells hfirst.extends.nextId_le) hrest.extends.nextId_le

end Scope.Tells

/-! ### Mentions -/

/-- What is mentioned was found under some name. -/
theorem PhraseLowered.mention_found {setting : Setting} {d : Source.Phrase} {x : Entity}
    (h : PhraseLowered setting d (.expr (.ofEntity x))) :
    ∃ name, setting.scope.lookup name = some x := by
  generalize hd : Phrase.expr (.ofEntity x) = d' at h
  cases h with
  | @ident span name entity found =>
    have hsame : x = entity := by
      cases x <;> cases entity <;> cases hd <;> rfl
    exact ⟨name.name, hsame ▸ found⟩
  | @call span callee args g args' =>
    rcases Expr.callOf_cases setting.returns g args' with
      ⟨i, _, _, _, hcall⟩ | ⟨i, _, _, _, _, hcall⟩ | hcall <;>
    · rw [hcall] at hd
      cases x <;> cases hd
  | @array span items items' => cases items' <;> cases x <;> cases hd
  | _ => cases x <;> cases hd

/-- What a simplified expression mentions was mentioned before. -/
theorem Expr.mention_kept {returns : Returns} {e : Expr} {x : Entity}
    (h : .expr (.ofEntity x) ∈ (e.simplify returns).nodes) : .expr (.ofEntity x) ∈ e.nodes := by
  have hoccurs :
      Occurrence.mentioned x ∈ (e.simplify returns).nodes.filterMap Node.occurrence? :=
    List.mem_filterMap.mpr ⟨_, h, by cases x <;> rfl⟩
  obtain ⟨node, hmem, hnode⟩ := List.mem_filterMap.mp ((e.fewer_simplify returns).subset hoccurs)
  have hmention : node = .expr (.ofEntity x) := by
    unfold Node.occurrence? at hnode
    split at hnode <;> cases hnode <;> rfl
  exact hmention ▸ hmem

/-- A simplified expression that is a mention was one before, or had it as a part. -/
theorem Expr.mention_mem_nodes {returns : Returns} {e : Expr} {x : Entity}
    (h : e.simplify returns = .ofEntity x) : .expr (.ofEntity x) ∈ e.nodes := by
  refine @Expr.mention_kept returns e x ?_
  rw [h]
  exact Expr.mem_nodes_self _

/-- Entities that are mentioned on the sides of an assignment have the same number exactly if they
have the same name. -/
def Told (target source : Expr) : Prop :=
  ∀ x y, .expr (.ofEntity x) ∈ target.nodes ++ source.nodes →
    .expr (.ofEntity y) ∈ target.nodes ++ source.nodes → (x.id = y.id ↔ x.name = y.name)

/-- What is mentioned on the sides of an assignment was found in one scope, and a scope that tells
names apart does so there. -/
theorem PhraseLowered.told {setting : Setting} {session : Session} {t s : Source.Expr}
    {target source : Expr} (htells : setting.scope.Tells session)
    (htarget : PhraseLowered setting (.expr t) (.expr target))
    (hsource : PhraseLowered setting (.expr s) (.expr source)) : Told target source := by
  have hfound : ∀ x, .expr (.ofEntity x) ∈ target.nodes ++ source.nodes →
      ∃ name, setting.scope.lookup name = some x := by
    intro x hx
    rcases List.mem_append.mp hx with hx | hx
    · obtain ⟨e, e', heq, he⟩ := htarget.of_mem hx
      cases heq
      exact he.mention_found
    · obtain ⟨e, e', heq, he⟩ := hsource.of_mem hx
      cases heq
      exact he.mention_found
  intro x y hx hy
  obtain ⟨a, ha⟩ := hfound x hx
  obtain ⟨b, hb⟩ := hfound y hy
  have haname := htells.named a x ha
  have hbname := htells.named b y hb
  constructor
  · intro hid
    rw [haname, hbname]
    exact htells.apart a b x y ha hb hid
  · intro hname
    have hab : a = b := haname.symm.trans (hname.trans hbname)
    rw [hab, hb] at ha
    rw [Option.some.inj ha]

/-! ### Assignments -/

/-- Every assignment in a lowered passage is told apart by names. The induction carries that the
scope tells names apart through to the place of the assignment. -/
theorem PassageLowered.told {strictness : Strictness} {scope scope' : Scope}
    {session session' : Session} {d : Source.Passage} {d' : Passage}
    (h : PassageLowered strictness scope session d d' scope' session')
    (htells : scope.Tells session) {target source : Expr}
    (hmem : .stmt (.assign target source) ∈ d'.nodes) : Told target source := by
  -- Apart from an assignment, a statement has assignments only in its blocks.
  have hinside : ∀ {s : Stmt}, .stmt (.assign target source) ∈ s.nodes →
      Stmt.assign target source ≠ s → .stmt (.assign target source) ∈ s.inside :=
    fun hnodes hne => (Stmt.stmt_mem_nodes.mp hnodes).resolve_left hne
  induction h with
  | assign htarget _ hsource =>
    rcases Stmt.stmt_mem_nodes.mp hmem with heq | hno
    · cases heq
      exact PhraseLowered.told htells htarget hsource
    · cases hno
  | declareVar | bump | call | breakLoop | returnValue | returnNone => cases hinside hmem nofun
  | declareFunc _ _ hvars hf _ _ _ ih =>
    refine ih ?_ (hinside hmem nofun)
    rw [hvars]
    exact htells.function (congrArg Func.name hf) (congrArg Func.id hf) _
  | shortBranch _ _ _ ih => exact ih htells (hinside hmem nofun)
  | whileLoop _ _ _ ih => exact ih htells.pushLoop (hinside hmem nofun)
  | forEach _ hv _ ih | forTurn _ _ _ _ hv _ ih =>
    exact ih (htells.iterator (congrArg Var.name hv) (congrArg Var.id hv)) (hinside hmem nofun)
  | branch _ _ hbody _ _ ihbody ihelse =>
    rcases List.mem_append.mp (hinside hmem nofun) with hmem | hmem
    · exact ihbody htells hmem
    · exact ihelse (htells.behind hbody) hmem
  | @elseIf _ _ _ _ _ _ _ _ _ test' body' orElse' _ _ hbody _ ihbody ihelse =>
    -- Its nodes are those of an `if`.
    have harm : .stmt (.assign target source) ∈ (Stmt.branch test' body' orElse').nodes := hmem
    rcases List.mem_append.mp (hinside harm nofun) with hmem | hmem
    · exact ihbody htells hmem
    · exact ihelse (htells.behind hbody) hmem
  | nothing | nil => cases hmem
  | block _ ih => exact ih htells hmem
  | cons hfirst _ ihfirst ihrest =>
    rcases List.mem_append.mp hmem with hmem | hmem
    · exact ihfirst htells hmem
    · exact ihrest (htells.behind hfirst) hmem

/-- In a lowered program names and numbers tell the same apart on the sides of every assignment. -/
theorem Program.told_of_lower {strictness : Strictness} {tree : List Source.Stmt} {p : Program}
    (h : Source.lower strictness tree = .ok p) {target source : Expr}
    (hmem : .stmt (.assign target source) ∈ p.nodes) : Told target source := by
  obtain ⟨last, session, hlowered, _⟩ := passageLowered_of_program h
  exact hlowered.told .program hmem

end Croupier
