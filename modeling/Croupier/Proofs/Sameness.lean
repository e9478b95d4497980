import Croupier.Proofs.Alike

/-!
# Simplifying respects sameness

Simplified forms of programs that are the same are the same again, provided that the programs were
lowered and that no floats are written in them.

What simplifying looks at does not tell alike expressions apart: which number is written out, which
type an expression has, how an `and` is decided. So each of its steps takes alike parts to alike
results. There is one exception. Whether an assignment goes away depends on the numbers of the
entities on its sides, at which sameness does not look. In a lowered program, however, their names
decide as well (`Program.told_of_lower`).

> `Program.same_simplify`: programs without floats that are the same when they have been lowered are
> the same when they have been simplified.
-/

namespace Croupier

/-! ### Types -/

section Types

variable {R S : Returns}

theorem Func.name_of_same {f g : Func} (h : f.same R S g = true) :
    f.name = g.name := by
  unfold Func.same at h
  exact eq_of_beq (Bool.and_eq_true_iff.mp h).1

theorem Var.name_of_same {v w : Var} (h : v.same w = true) : v.name = w.name := by
  unfold Var.same at h
  rw [Bool.and_eq_true, Bool.and_eq_true] at h
  exact eq_of_beq h.1.1

/-- Types that may be missing are the same with defaults that are the same. -/
theorem Ty.same_getD {a b : Option Ty} {s t : Ty} (h : Ty.sameOption a b = true)
    (hdefault : (s == t) = true) : (a.getD s == b.getD t) = true := by
  cases a with
  | none =>
    cases b with
    | none => exact hdefault
    | some _ => cases h
  | some _ =>
    cases b with
    | none => cases h
    | some _ => exact h

/-- Parameters that compare as the same have types that do. -/
theorem Var.same_types {vs ws : List Var} (h : Var.sameList vs ws = true) :
    Ty.sameList (vs.map Var.ty) (ws.map Var.ty) = true := by
  induction vs generalizing ws with
  | nil =>
    cases ws with
    | nil => rfl
    | cons _ _ => cases h
  | cons v vs ih =>
    cases ws with
    | nil => cases h
    | cons w ws =>
      simp only [Var.sameList, Var.same, Bool.and_eq_true] at h
      obtain ⟨⟨_, hty⟩, hrest⟩ := h
      exact Bool.and_eq_true_iff.mpr ⟨hty, ih hrest⟩

/-- Functions that are the same have the same type, each in its program. -/
theorem Func.ty_same {f g : Func} (h : f.same R S g = true) : (f.ty R == g.ty S) = true := by
  obtain ⟨_, _, origin⟩ := f
  obtain ⟨_, _, origin'⟩ := g
  unfold Func.same at h
  rw [Bool.and_eq_true] at h
  cases origin with
  | declared vs a =>
    cases origin' with
    | declared ws b =>
      simp only [Bool.and_eq_true] at h
      obtain ⟨_, ⟨hparams, hascribed⟩, hsettled⟩ := h
      have hany : (Ty.any == Ty.any) = true := rfl
      have hresult := Ty.same_getD hsettled (Ty.same_getD hascribed hany)
      exact Bool.and_eq_true_iff.mpr ⟨Var.same_types hparams, hresult⟩
    | _ => cases h.2
  | intrinsic s =>
    cases origin' with
    | intrinsic t => exact h.2
    | _ => cases h.2
  | variadic s =>
    cases origin' with
    | variadic t => exact h.2
    | _ => cases h.2

/-- Alike expressions have the same type. -/
theorem PhraseAlike.ty_same {e f : Expr} (h : PhraseAlike R S (.expr e) (.expr f)) :
    (e.ty R == f.ty S) = true := by
  cases h with
  | int | string | bool | object => rfl
  | var hv =>
    unfold Var.same at hv
    exact (Bool.and_eq_true_iff.mp hv).2
  | func hf => exact Func.ty_same hf
  | emptyArray hty | array _ hty | unary _ hty | member _ hty => exact hty
  | binary _ _ hty | subscript _ _ hty | call _ _ hty => exact hty

end Types

/-! ### Expressions -/

namespace PhraseAlike

variable {R S : Returns} {e f left right left' right' : Expr} {s t : Ty}

/-- The same number is written out, and it is an integer. -/
theorem ofExpr?_eq (h : PhraseAlike R S (.expr e) (.expr f)) :
    Numeral.ofExpr? e = Numeral.ofExpr? f := by
  cases h <;> rfl

/-- Among phrases that are alike the only numbers are integers. -/
theorem ofExpr?_int (h : PhraseAlike R S (.expr e) (.expr f)) {n : Numeral}
    (hn : Numeral.ofExpr? e = some n) : ∃ i, n = .int i := by
  cases h with
  | int i =>
    cases hn
    exact ⟨i, rfl⟩
  | _ => cases hn

theorem isZero_eq (h : PhraseAlike R S (.expr e) (.expr f)) : e.isZero = f.isZero := by
  rw [Expr.isZero, Expr.isZero, h.ofExpr?_eq]

theorem isOne_eq (h : PhraseAlike R S (.expr e) (.expr f)) : e.isOne = f.isOne := by
  rw [Expr.isOne, Expr.isOne, h.ofExpr?_eq]

/-- An `and` or `or` with alike operands is decided alike. -/
theorem shortCircuit?_eq (hleft : PhraseAlike R S (.expr left) (.expr left'))
    (hright : PhraseAlike R S (.expr right) (.expr right')) (op : BinaryOperator) :
    shortCircuit? op left right = shortCircuit? op left' right' := by
  unfold shortCircuit?
  cases op.absorbing? with
  | none => rfl
  | some absorbing => cases hleft <;> cases hright <;> rfl

theorem negation (h : PhraseAlike R S (.expr e) (.expr f)) :
    PhraseAlike R S (.expr (.negation R e)) (.expr (.negation S f)) :=
  .unary h h.ty_same

/-- The rules for a literal `0` or `1` do the same to operands that are alike. -/
theorem identity (hleft : PhraseAlike R S (.expr left) (.expr left'))
    (hright : PhraseAlike R S (.expr right) (.expr right')) (op : BinaryOperator)
    (hty : (s == t) = true) :
    PhraseAlike R S (.expr (simplifyIdentity R op left right s))
      (.expr (simplifyIdentity S op left' right' t)) := by
  have hkept : PhraseAlike R S (.expr (.binary (.operator op) left right s))
      (.expr (.binary (.operator op) left' right' t)) := .binary hleft hright hty
  unfold simplifyIdentity
  rw [hleft.isZero_eq, hleft.isOne_eq, hright.isZero_eq, hright.isOne_eq]
  cases op with
  | add =>
    dsimp only
    split
    · exact hleft
    · split
      · exact hright
      · exact hkept
  | subtract =>
    dsimp only
    split
    · exact hleft
    · split
      · exact hright.negation
      · exact hkept
  | multiply =>
    dsimp only
    split
    · exact hleft
    · split
      · exact hright
      · split
        · exact .int 0
        · exact hkept
  | divide =>
    dsimp only
    split
    · exact hleft
    · split
      · exact .int 0
      · exact hkept
  | power =>
    dsimp only
    split
    · exact .int 1
    · split
      · exact hleft
      · exact hkept
  | remainder | floorDivide | equal | notEqual | less | lessOrEqual | greater | greaterOrEqual
  | and | or => exact hkept

/-- What is left of operations on operands that are alike is alike. -/
theorem operation (hleft : PhraseAlike R S (.expr left) (.expr left'))
    (hright : PhraseAlike R S (.expr right) (.expr right')) (op : BinaryOperator)
    (hty : (s == t) = true) :
    PhraseAlike R S (.expr (simplifyOperation R op left right s))
      (.expr (simplifyOperation S op left' right' t)) := by
  have hidentity := hleft.identity hright op hty
  unfold simplifyOperation
  rw [← hleft.ofExpr?_eq, ← hright.ofExpr?_eq]
  split
  next m n hm hn =>
    obtain ⟨a, rfl⟩ := hleft.ofExpr?_int hm
    obtain ⟨b, rfl⟩ := hright.ofExpr?_int hn
    cases hfold : op.fold (.int a) (.int b) with
    | some e =>
      -- No float comes out of integers.
      rcases BinaryOperator.foldInt_cases hfold with ⟨_, n, rfl⟩ | ⟨_, c, rfl⟩
      · exact .int n
      · exact .bool c
    | none => exact hidentity
  next => exact hidentity

/-- The same for an operation with one operand. -/
theorem operand (h : PhraseAlike R S (.expr e) (.expr f)) (head : UnaryHead)
    (hty : (s == t) = true) :
    PhraseAlike R S (.expr (simplifyUnary head e s)) (.expr (simplifyUnary head f t)) := by
  unfold simplifyUnary
  rw [← h.ofExpr?_eq]
  split
  next n hn =>
    obtain ⟨i, rfl⟩ := h.ofExpr?_int hn
    exact .int (-i)
  next => exact .unary h hty

/-- Variables are taken for truth values by their names. -/
theorem mention {v w : Var} (hv : v.same w = true) :
    PhraseAlike R S (.expr ((Expr.var v).simplify R)) (.expr ((Expr.var w).simplify S)) := by
  rw [Expr.simplify, Expr.simplify, Var.name_of_same hv]
  split
  · exact .bool true
  · split
    · exact .bool false
    · exact .var hv

end PhraseAlike

/-- Simplifying phrases that are alike leaves phrases that are alike. -/
theorem PhraseAlike.simplify {R S : Returns} {d d' : Phrase} (h : PhraseAlike R S d d') :
    PhraseAlike R S (d.simplify R) (d'.simplify S) := by
  induction h with
  | int n => exact .int n
  | string text => exact .string text
  | bool b => exact .bool b
  | var hv => exact .mention hv
  | func hf => exact .func hf
  | emptyArray hty => exact .emptyArray hty
  | array _ hty ih => exact .array ih hty
  | object _ ih => exact .object ih
  | @binary head a b c d s t hleft hright hty ihleft ihright =>
    cases head with
    | intrinsic i => exact .binary ihleft ihright hty
    | operator op =>
      rw [Phrase.simplify, Phrase.simplify, Expr.simplify, Expr.simplify,
        hleft.shortCircuit?_eq hright op]
      split
      · exact .bool _
      · exact ihleft
      · exact ihright
      · exact PhraseAlike.operation ihleft ihright op hty
  | @unary head _ _ _ _ _ hty ih =>
    rw [Phrase.simplify, Phrase.simplify, Expr.simplify, Expr.simplify]
    exact PhraseAlike.operand ih head hty
  | subscript _ _ hty ihbase ihindex => exact .subscript ihbase ihindex hty
  | member _ hty ih => exact .member ih hty
  | call hf _ hty ih => exact .call hf ih hty
  | listNil => exact .listNil
  | listCons _ _ ihfirst ihrest => exact .listCons ihfirst ihrest
  | membersNil => exact .membersNil
  | membersCons _ _ ihfirst ihrest => exact .membersCons ihfirst ihrest

theorem PhraseAlike.simplify_expr {R S : Returns} {e f : Expr}
    (h : PhraseAlike R S (.expr e) (.expr f)) :
    PhraseAlike R S (.expr (e.simplify R)) (.expr (f.simplify S)) :=
  h.simplify

/-! ### Statements -/

/-- What is known of simplified assignments: nothing. -/
def Unknown (_ _ : Expr) : Prop := True

namespace PassageAlike

variable {K : Expr → Expr → Prop} {R S : Returns}

theorem single {s t : Stmt} (h : PassageAlike K R S (.stmt s) (.stmt t)) :
    PassageAlike K R S (.block [s]) (.block [t]) :=
  .cons h .nil

/-- Statements that are alike follow each other alike. -/
theorem append {ss ts ss' ts' : List Stmt} (h : PassageAlike K R S (.block ss) (.block ts))
    (h' : PassageAlike K R S (.block ss') (.block ts')) :
    PassageAlike K R S (.block (ss ++ ss')) (.block (ts ++ ts')) := by
  induction ss generalizing ts with
  | nil =>
    cases h with
    | nil => exact h'
  | cons s ss ih =>
    cases h with
    | cons hfirst hrest => exact .cons hfirst (ih hrest)

/-- An `if` on its own becomes a further arm on both sides or on neither. -/
theorem ofList {ss ts : List Stmt} (h : PassageAlike K R S (.block ss) (.block ts)) :
    PassageAlike K R S (.arms (.ofList ss)) (.arms (.ofList ts)) := by
  have hblock := h
  cases h with
  | nil => exact .block hblock
  | cons hfirst hrest =>
    cases hfirst with
    | branch htest hbody helse =>
      cases hrest with
      | nil => exact .elseIf htest hbody helse
      | cons => exact .block hblock
    | _ => exact .block hblock

/-- What is left of an `if` is alike, because its test is the same literal or none on both sides. -/
theorem simplifyBranch {e f : Expr} {b c : List Stmt} {r s : Else}
    (htest : PhraseAlike R S (.expr e) (.expr f)) (hbody : PassageAlike K R S (.block b) (.block c))
    (helse : PassageAlike K R S (.arms r) (.arms s)) :
    PassageAlike K R S (.block (simplifyBranch e b r)) (.block (simplifyBranch f c s)) := by
  have hkept := (PassageAlike.branch htest hbody helse).single
  cases htest with
  | bool value =>
    cases value with
    | true => exact hbody
    | false =>
      cases helse with
      | elseIf hnext hbody' helse' => exact (PassageAlike.branch hnext hbody' helse').single
      | block hblock => exact hblock
  | _ => exact hkept

/-- The same for an `if` without further arms. -/
theorem simplifyShortBranch {e f : Expr} {b c : List Stmt}
    (htest : PhraseAlike R S (.expr e) (.expr f))
    (hbody : PassageAlike K R S (.block b) (.block c)) :
    PassageAlike K R S (.block (simplifyShortBranch e b)) (.block (simplifyShortBranch f c)) := by
  have hkept := (PassageAlike.shortBranch htest hbody).single
  cases htest with
  | bool value =>
    cases value with
    | true => exact hbody
    | false => exact .nil
  | _ => exact hkept

/-- The same for a `while`. -/
theorem simplifyWhile {e f : Expr} {b c : List Stmt} (htest : PhraseAlike R S (.expr e) (.expr f))
    (hbody : PassageAlike K R S (.block b) (.block c)) :
    PassageAlike K R S (.block (simplifyWhile e b)) (.block (simplifyWhile f c)) := by
  have hkept := (PassageAlike.whileLoop htest hbody).single
  cases htest with
  | bool value =>
    cases value with
    | true => exact hkept
    | false => exact .nil
  | _ => exact hkept

/-- The same for a loop over a collection. -/
theorem simplifyForEach {v w : Var} {e f : Expr} {b c : List Stmt} (hv : v.same w = true)
    (hcollection : PhraseAlike R S (.expr e) (.expr f))
    (hbody : PassageAlike K R S (.block b) (.block c)) :
    PassageAlike K R S (.block (simplifyForEach v e b)) (.block (simplifyForEach w f c)) := by
  have hkept := (PassageAlike.forEach hv hcollection hbody).single
  cases hcollection with
  | emptyArray => exact .nil
  | _ => exact hkept

/-- Turns with alike bounds are over, or not, on both sides. -/
theorem simplifyForTurn {v w : Var} {low high step low' high' step' : Expr} {direction : Direction}
    {b c : List Stmt} (hv : v.same w = true) (hlow : PhraseAlike R S (.expr low) (.expr low'))
    (hhigh : PhraseAlike R S (.expr high) (.expr high'))
    (hstep : PhraseAlike R S (.expr step) (.expr step'))
    (hbody : PassageAlike K R S (.block b) (.block c)) :
    PassageAlike K R S (.block (simplifyForTurn v low high step direction b))
      (.block (simplifyForTurn w low' high' step' direction c)) := by
  have hover : turnIsOver direction low high = turnIsOver direction low' high' := by
    unfold turnIsOver
    rw [hlow.ofExpr?_eq, hhigh.ofExpr?_eq]
  unfold Croupier.simplifyForTurn
  rw [hover]
  split
  · exact .nil
  · exact (PassageAlike.forTurn hv hlow hhigh hstep hbody).single

end PassageAlike

/-- If mentions on the sides of two alike assignments are told apart by their names, the one
assigns a variable to itself exactly if the other does. -/
theorem Told.sameReference_eq {R S : Returns} {target source target' source' : Expr}
    (htold : Told target source) (htold' : Told target' source')
    (htarget : PhraseAlike R S (.expr target) (.expr target'))
    (hsource : PhraseAlike R S (.expr source) (.expr source')) :
    (source.simplify R).sameReference (target.simplify R) =
      (source'.simplify S).sameReference (target'.simplify S) := by
  -- An entity that is left of a side is mentioned in it.
  have hids : ∀ x y, source.simplify R = .ofEntity x → target.simplify R = .ofEntity y →
      (x.id = y.id ↔ x.name = y.name) := fun x y hx hy =>
    htold x y (List.mem_append_right _ (Expr.mention_mem_nodes hx))
      (List.mem_append_left _ (Expr.mention_mem_nodes hy))
  have hids' : ∀ x y, source'.simplify S = .ofEntity x → target'.simplify S = .ofEntity y →
      (x.id = y.id ↔ x.name = y.name) := fun x y hx hy =>
    htold' x y (List.mem_append_right _ (Expr.mention_mem_nodes hx))
      (List.mem_append_left _ (Expr.mention_mem_nodes hy))
  have hsources := hsource.simplify_expr
  have htargets := htarget.simplify_expr
  generalize source.simplify R = a at hids hsources ⊢
  generalize target.simplify R = b at hids htargets ⊢
  generalize source'.simplify S = c at hids' hsources ⊢
  generalize target'.simplify S = d at hids' htargets ⊢
  cases hsources with
  | @var v w hv =>
    cases htargets with
    | @var v' w' hv' =>
      have hleft := hids (.var v) (.var v') rfl rfl
      have hright := hids' (.var w) (.var w') rfl rfl
      have hnames : v.name = v'.name ↔ w.name = w'.name := by
        rw [Var.name_of_same hv, Var.name_of_same hv']
      show (v.id == v'.id) = (w.id == w'.id)
      rw [Bool.eq_iff_iff, beq_iff_eq, beq_iff_eq]
      exact hleft.trans (hnames.trans hright.symm)
    | _ => rfl
  | @func f g hf =>
    cases htargets with
    | @func f' g' hf' =>
      have hleft := hids (.func f) (.func f') rfl rfl
      have hright := hids' (.func g) (.func g') rfl rfl
      have hnames : f.name = f'.name ↔ g.name = g'.name := by
        rw [Func.name_of_same hf, Func.name_of_same hf']
      show (f.id == f'.id) = (g.id == g'.id)
      rw [Bool.eq_iff_iff, beq_iff_eq, beq_iff_eq]
      exact hleft.trans (hnames.trans hright.symm)
    | _ => rfl
  | _ => rfl

/-- The statements, arms or block that a passage leaves. -/
def Passage.simplify (returns : Returns) : Passage → Passage
  | .stmt s => .block (s.simplify returns)
  | .arms e => .arms (e.simplify returns)
  | .block ss => .block (Stmt.simplifyList returns ss)

/-- Simplifying passages that are alike leaves passages that are alike. Assignments have to be told
apart by names, since those of a variable to itself disappear; afterwards nothing of this is known
any longer. -/
theorem PassageAlike.simplify {R S : Returns} {d d' : Passage} (h : PassageAlike Told R S d d') :
    PassageAlike Unknown R S (d.simplify R) (d'.simplify S) := by
  induction h with
  | declareVar hv hinit => exact (PassageAlike.declareVar hv hinit.simplify_expr).single
  | declareFunc hf _ ih => exact (PassageAlike.declareFunc hf ih).single
  | @assign target source target' source' htarget hsource htold htold' =>
    have hself := htold.sameReference_eq htold' htarget hsource
    show PassageAlike Unknown R S (.block (simplifyAssign _ _)) (.block (simplifyAssign _ _))
    unfold simplifyAssign
    rw [hself]
    split
    · exact .nil
    · exact (PassageAlike.assign htarget.simplify_expr hsource.simplify_expr trivial trivial).single
  | bump htarget => exact (PassageAlike.bump htarget.simplify_expr).single
  | call hvalue => exact (PassageAlike.call hvalue.simplify_expr).single
  | breakLoop => exact PassageAlike.breakLoop.single
  | returnValue hvalue => exact (PassageAlike.returnValue hvalue.simplify_expr).single
  | returnNone => exact PassageAlike.returnNone.single
  | branch htest _ _ ihbody ihelse => exact .simplifyBranch htest.simplify_expr ihbody ihelse
  | shortBranch htest _ ih => exact .simplifyShortBranch htest.simplify_expr ih
  | whileLoop htest _ ih => exact .simplifyWhile htest.simplify_expr ih
  | forEach hv hcollection _ ih => exact .simplifyForEach hv hcollection.simplify_expr ih
  | forTurn hv hlow hhigh hstep _ ih =>
    exact .simplifyForTurn hv hlow.simplify_expr hhigh.simplify_expr hstep.simplify_expr ih
  | elseIf htest _ _ ihbody ihelse =>
    exact (PassageAlike.simplifyBranch htest.simplify_expr ihbody ihelse).ofList
  | block _ ih => exact .block ih
  | nil => exact .nil
  | cons _ _ ihfirst ihrest => exact ihfirst.append ihrest

/-! ### Whole programs -/

/-- Take two programs in which no floats are written and which are accepted. If they are the same
when they have been lowered, up to numbers of entities and up to the order in unions, they are the
same when they have been simplified. -/
theorem Program.same_simplify {strictness : Strictness} {t u : List Source.Stmt} {p q : Program}
    (ht : Source.floats t = []) (hu : Source.floats u = [])
    (hp : Source.lower strictness t = .ok p) (hq : Source.lower strictness u = .ok q)
    (hsame : p.same q = true) : p.simplify.same q.simplify = true := by
  have hclear := Program.clear_of_lower ht hp
  have hclear' := Program.clear_of_lower hu hq
  have halike := Stmt.alikeList_of_same p.body q.body hclear hclear' hsame
  exact halike.simplify.same

-- Of programs that were never lowered it is not true: here two variables have one name.
example :
    let x : Var := ⟨14, "x", .mutable, .int⟩
    let p : Program := ⟨[.assign (.var x) (.var x)], []⟩
    let q : Program := ⟨[.assign (.var x) (.var { x with id := 15 })], []⟩
    p.same q = true ∧ p.simplify.same q.simplify = false := ⟨rfl, rfl⟩

namespace Reordered

open Source (label mention declare)

/-- `deal f(x: a | b) { hand y = x  y = y  y = x  return y }`. -/
def source (a b : TypeName) : List Source.Stmt :=
  [.declareFunc .none (label "f") [⟨label "x", some [a, b]⟩] .none none
    [declare "y" (mention "x"),
     .assign .none (mention "y") (mention "y"),
     .assign .none (mention "y") (mention "x"),
     .returnValue .none (mention "y")]]

def x (a b : Ty) : Expr := .var ⟨15, "x", .readOnly, .union [a, b]⟩

def y (a b : Ty) : Expr := .var ⟨16, "y", .mutable, .union [a, b]⟩

/-- Such a program, with any assignments in the place of the two. -/
def around (a b : Ty) (assignments : List Stmt) : Program :=
  ⟨[.declareFunc ⟨14, "f", .declared [⟨15, "x", .readOnly, .union [a, b]⟩] none⟩
      (.declareVar ⟨16, "y", .mutable, .union [a, b]⟩ (x a b) ::
        assignments ++ [.returnValue (y a b)])],
    [(14, .union [a, b])]⟩

/-- What becomes of `source`. -/
def typed (a b : Ty) : Program :=
  around a b [.assign (y a b) (y a b), .assign (y a b) (x a b)]

/-- The parameter is an integer or a string in one program and a string or an integer in the other.
The assignment of `y` to itself goes away in both. -/
theorem same_simplify_reordered :
    Source.lower .strict (source .int .string) = .ok (typed .int .string) ∧
    Source.lower .strict (source .string .int) = .ok (typed .string .int) ∧
    (typed .int .string).same (typed .string .int) = true ∧
    (typed .int .string).simplify.same (typed .string .int).simplify = true ∧
    (typed .int .string).simplify =
      around .int .string [.assign (y .int .string) (x .int .string)] := by
  have hleft : Source.lower .strict (source .int .string) = .ok (typed .int .string) := rfl
  have hright : Source.lower .strict (source .string .int) = .ok (typed .string .int) := rfl
  have hsame : (typed .int .string).same (typed .string .int) = true := rfl
  exact ⟨hleft, hright, hsame, Program.same_simplify rfl rfl hleft hright hsame, rfl⟩

end Reordered

end Croupier
