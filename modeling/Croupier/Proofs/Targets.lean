import Croupier.Proofs.Resolution
import Croupier.Proofs.Simplified
import Croupier.Proofs.SimplifyEval

/-!
# What a program writes to

An assignment or a bump has a target, and a target is storage: a variable, or a part of a part of
a variable. `Expr.LiesIn` says in which variable a target lies. Lowering accepts a target only if
this variable is mutable. Simplifying, however, treats targets like any other expression; it
simplifies the subscripts in them, and it would simplify the variable as well, if it were named
`true` or `false`. If no such name is used, the variable stays (`Expr.LiesIn.simplify`).

> `Program.targets_mutable`: every target in a compiled program lies in a mutable variable, which
> is no parameter and nothing of the library; and what a typed program bumps may be a number.
-/

namespace Croupier

/-! ### Storage -/

/-- The expression denotes the variable `v` or a part of it, however deep. -/
inductive Expr.LiesIn (v : Var) : Expr → Prop where
  | var : LiesIn v (.var v)
  | subscript {base index : Expr} {ty : Ty} (hbase : LiesIn v base) :
    LiesIn v (.subscript base index ty)
  | member {base : Expr} {field : String} {ty : Ty} (hbase : LiesIn v base) :
    LiesIn v (.member base field ty)

/-- An expression lies in the variable at its root. -/
theorem Expr.liesIn_of_rootVar? {e : Expr} {v : Var} (h : e.rootVar? = some v) : e.LiesIn v := by
  match e with
  | .var w =>
    cases h
    exact .var
  | .subscript base _ _ => exact .subscript (Expr.liesIn_of_rootVar? (e := base) h)
  | .member base _ _ => exact .member (Expr.liesIn_of_rootVar? (e := base) h)

namespace Expr.LiesIn

variable {e : Expr} {v : Var}

/-- The type of storage does not depend on any results of functions. -/
theorem ty_eq (h : e.LiesIn v) (R S : Returns) : e.ty R = e.ty S := by
  cases h <;> rfl

/-- With storage, the variable that it lies in is among the nodes. -/
theorem mem_nodes (h : e.LiesIn v) {nodes : List Node} (hclosed : Node.ClosedUnderParts nodes)
    (he : .expr e ∈ nodes) : .expr (.var v) ∈ nodes := by
  induction h with
  | var => exact he
  | subscript _ ih | member _ ih => exact ih (hclosed _ he _ (List.mem_cons_self ..))

/-- Simplified storage lies in the same variable. -/
theorem simplify (h : e.LiesIn v) (returns : Returns)
    (hname : v.name ≠ "true" ∧ v.name ≠ "false") : (e.simplify returns).LiesIn v := by
  induction h with
  | var =>
    rw [Expr.simplify_var returns hname]
    exact .var
  | subscript _ ih =>
    rw [Expr.simplify]
    exact .subscript ih
  | member _ ih =>
    rw [Expr.simplify]
    exact .member ih

end Expr.LiesIn

/-! ### Typed programs -/

/-- What a statement writes to. -/
def Stmt.target? : Stmt → Option Expr
  | .assign target _ | .bump _ target => some target
  | _ => none

/-- The target of a statement is one of its parts. -/
theorem Stmt.target_mem_children {s : Stmt} {target : Expr} (h : s.target? = some target) :
    target ∈ (Node.stmt s).children := by
  cases s with
  | assign | bump =>
    cases h
    exact List.mem_cons_self ..
  | declareVar | declareFunc | call | breakLoop | returnValue | returnNone | branch | shortBranch
  | whileLoop | forEach | forTurn => cases h

/-- Simplifying the parts of a statement simplifies its target. -/
theorem Stmt.target?_simplifyParts (returns : Returns) (s : Stmt) :
    (s.simplifyParts returns).target? = s.target?.map (Expr.simplify returns) := by
  cases s <;> rfl

/-- A target that passes the check lies in a variable that may be written to. -/
theorem checkAssignable_eq_ok {target : Expr} {span : Span}
    (h : checkAssignable target span = .ok ()) : ∃ v, target.LiesIn v ∧ v.access = .mutable := by
  unfold checkAssignable at h
  split at h
  next v hroot =>
    refine ⟨v, Expr.liesIn_of_rootVar? hroot, ?_⟩
    cases haccess : v.access with
    | mutable => rfl
    | readOnly | constant =>
      rw [haccess] at h
      cases h
  next => split at h <;> cases h

/-- Every target in a typed program lies in a mutable variable. -/
theorem Program.target_liesIn {strictness : Strictness} {tree : List Source.Stmt} {p : Program}
    (h : Source.lower strictness tree = .ok p) {s : Stmt} (hs : .stmt s ∈ p.nodes) {target : Expr}
    (htarget : s.target? = some target) : ∃ v, target.LiesIn v ∧ v.access = .mutable := by
  obtain ⟨_, _, _, _, _, hrule⟩ := Program.of_mem_lower h hs
  cases hrule with
  | bump _ _ hplace | assign _ hplace _ =>
    cases htarget
    exact checkAssignable_eq_ok hplace
  | declareVar | declareFunc | call | breakLoop | returnValue | returnNone | shortBranch | branch
  | whileLoop | forEach | forTurn => cases htarget

/-- What a typed program bumps may be a number. -/
theorem Program.bump_mayBeNumber {strictness : Strictness} {tree : List Source.Stmt} {p : Program}
    (h : Source.lower strictness tree = .ok p) {op : BumpOperator} {target : Expr}
    (hs : .stmt (.bump op target) ∈ p.nodes) : (target.ty p.returns).MayBeNumber := by
  obtain ⟨_, start, _, _, _, hrule⟩ := Program.of_mem_lower h hs
  cases hrule with
  | bump _ hnumber hplace =>
    obtain ⟨v, hin, _⟩ := checkAssignable_eq_ok hplace
    rw [hin.ty_eq p.returns start.returns]
    exact checkBump_eq_ok hnumber

/-! ### What is not mutable -/

/-- Parameters may be read only. -/
theorem paramVars_access {id : Nat} {params : List Source.Param} {v : Var}
    (hv : v ∈ paramVars id params) : v.access = .readOnly := by
  induction params generalizing id with
  | nil => cases hv
  | cons p ps ih =>
    rcases List.mem_cons.mp hv with rfl | hv
    · rfl
    · exact ih hv

/-- Parameters are read-only. -/
theorem Program.param_access {strictness : Strictness} {tree : List Source.Stmt} {p : Program}
    (h : Source.lower strictness tree = .ok p) {f : Func} {body : List Stmt}
    (hs : .stmt (.declareFunc f body) ∈ p.nodes) {v : Var} (hv : v ∈ f.params) :
    v.access = .readOnly := by
  obtain ⟨_, _, _, _, _, hrule⟩ := Program.of_mem_lower h hs
  cases hrule with
  | declareFunc _ _ hvars hf =>
    rw [hf, hvars] at hv
    exact paramVars_access hv

/-- The constants of the library are read-only. -/
theorem Library.var_access {name : String} {v : Var} (h : (name, .var v) ∈ Library.bindings) :
    v.access = .readOnly := by
  simp only [Library.bindings, List.mem_append, List.mem_map, Prod.mk.injEq, Entity.var.injEq,
    List.mem_singleton, reduceCtorEq, and_false, exists_false, or_false] at h
  obtain ⟨w, hw, _, rfl⟩ := h
  have hall : ∀ c ∈ Library.constants, c.access = .readOnly := by simp [Library.constants]
  exact hall w hw

/-! ### Whole programs -/

/-- If a program as written does not use the names of the truth values, neither does the typed
program. -/
theorem NoTruthNames.of_source {strictness : Strictness} {tree : List Source.Stmt} {p : Program}
    (h : Source.lower strictness tree = .ok p) (htrue : .used "true" ∉ Source.events tree)
    (hfalse : .used "false" ∉ Source.events tree) : NoTruthNames p.nodes := by
  obtain ⟨last, session, hlowered, _⟩ := passageLowered_of_program h
  intro v hv
  have hused : .used v.name ∈ Source.events tree := by
    have hmem := (Stmt.used_mem_eventsList (.var v) p.body).mpr ⟨_, hv, rfl⟩
    have hnames : spelled (Stmt.eventsList p.body) = Source.Stmt.eventsList tree :=
      (hlowered.traced .initial).names
    refine List.mem_append_right _ ?_
    rw [← hnames]
    exact List.mem_map_of_mem hmem
  constructor
  · intro hname
    exact htrue (hname ▸ hused)
  · intro hname
    exact hfalse (hname ▸ hused)

/-- The functions of a simplified program were declared before it was simplified. -/
theorem Program.declareFunc_of_mem_simplify {p : Program} {f : Func} {body' : List Stmt}
    (h : .stmt (.declareFunc f body') ∈ p.simplify.nodes) :
    ∃ body, .stmt (.declareFunc f body) ∈ p.nodes := by
  obtain ⟨s, hs, heq⟩ := Program.of_mem_simplify h
  cases s with
  | declareFunc g body =>
    cases heq
    exact ⟨body, hs⟩
  | declareVar | assign | bump | call | breakLoop | returnValue | returnNone | branch | shortBranch
  | whileLoop | forEach | forTurn => cases heq

/-- Only mutable storage is written to. If a program as written does not use the names `true` and
`false`, every target in the compiled program lies in a mutable variable. Such a variable is not
in the library, and it is a parameter of none of the functions that the program declares. What
the typed program bumps may be a number. -/
theorem Program.targets_mutable {strictness : Strictness} {tree : List Source.Stmt} {q : Program}
    (h : compile strictness tree = .ok q) (htrue : .used "true" ∉ Source.events tree)
    (hfalse : .used "false" ∉ Source.events tree) :
    (∀ s target, .stmt s ∈ q.nodes → s.target? = some target →
      ∃ v, target.LiesIn v ∧ v.access = .mutable ∧ (∀ name, (name, .var v) ∉ Library.bindings) ∧
        ∀ f body, .stmt (.declareFunc f body) ∈ q.nodes → v ∉ f.params) ∧
    ∃ p, Source.lower strictness tree = .ok p ∧ p.simplify = q ∧
      ∀ op target, .stmt (.bump op target) ∈ p.nodes → (target.ty p.returns).MayBeNumber := by
  obtain ⟨p, hp, rfl⟩ := compile_eq_ok h
  refine ⟨fun s' target' hs' htarget' => ?_, p, hp, rfl, fun op target hs => ?_⟩
  · obtain ⟨s, hs, rfl⟩ := Program.of_mem_simplify hs'
    rw [Stmt.target?_simplifyParts, Option.map_eq_some_iff] at htarget'
    obtain ⟨target, htarget, rfl⟩ := htarget'
    obtain ⟨v, hin, hmutable⟩ := Program.target_liesIn hp hs htarget
    have hclosed := Stmt.nodesList_closed p.body
    have hnode := hclosed _ hs target (Stmt.target_mem_children htarget)
    have hname := NoTruthNames.of_source hp htrue hfalse v (hin.mem_nodes hclosed hnode)
    refine ⟨v, hin.simplify p.returns hname, hmutable, fun name hlibrary => ?_, ?_⟩
    · rw [Library.var_access hlibrary] at hmutable
      cases hmutable
    · intro f body' hdeclared hparam
      obtain ⟨body, hdeclared⟩ := Program.declareFunc_of_mem_simplify hdeclared
      rw [Program.param_access hp hdeclared hparam] at hmutable
      cases hmutable
  · exact Program.bump_mayBeNumber hp hs

namespace Cells

open Source (label mention number declare)

/-- `hand a = [[1]]  hand o = {}  deal set(n: Int) { a[0 + n][n * 1] = n  o.count++ }`. -/
def source : List Source.Stmt :=
  [declare "a" (.array .none [.array .none [number 1]]),
    declare "o" (.object .none []),
    .declareFunc .none (label "set") [⟨label "n", some [.int]⟩] .none none
      [.assign .none
        (.subscript .none
          (.subscript .none (mention "a") (.binary .none .add (number 0) (mention "n")))
          (.binary .none .multiply (mention "n") (number 1)))
        (mention "n"),
       .bump .none .increment (.member .none (mention "o") "count")]]

def a : Var := ⟨14, "a", .mutable, .array (.array .int)⟩

def o : Var := ⟨15, "o", .mutable, .any⟩

def n : Var := ⟨17, "n", .readOnly, .int⟩

/-- What is left of `a[0 + n][n * 1]`. -/
def cell : Expr := .subscript (.subscript (.var a) (.var n) (.array .int)) (.var n) .int

def compiled : Program :=
  ⟨[.declareVar a (.array [.array [.int 1] (.array .int)] (.array (.array .int))),
    .declareVar o (.object []),
    .declareFunc ⟨16, "set", .declared [n] none⟩
      [.assign cell (.var n), .bump .increment (.member (.var o) "count" .any)]], [(16, .any)]⟩

theorem cell_mutable : ∃ v, cell.LiesIn v ∧ v.access = .mutable ∧
    (∀ name, (name, .var v) ∉ Library.bindings) ∧
    ∀ f body, .stmt (.declareFunc f body) ∈ compiled.nodes → v ∉ f.params :=
  have hcompiled : compile .strict source = .ok compiled := rfl
  (Program.targets_mutable hcompiled (by decide) (by decide)).1
    (.assign cell (.var n)) cell (by simp [compiled, Program.nodes, Stmt.nodesList, Stmt.nodes]) rfl

end Cells

end Croupier
