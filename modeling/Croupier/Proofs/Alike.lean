import Croupier.Program.Same
import Croupier.Proofs.Telling

/-!
# Programs that are alike

Two programs are the same if they agree up to the numbers of their entities and up to the order of
members of a union (`Program.same`). The functions that say so compare everything at once and say no
to all that does not match. `PhraseAlike` and `PassageAlike` list what matches, one rule a
construct, so that a law about programs that are the same is an induction over these rules.

There is no rule for floats. Floats that are the same need not be equal, as `0.0` and `-0.0` are
not, and what comes of them further on is up to the arithmetic of the machine. So programs are
looked at in which no float is written (`Source.floats`); then there is none in the lowered program
either (`PassageLowered.float_written`).

The rule for assignments has a place for what is known of both sides. In lowered programs this is
that the names on them tell entities apart (`Told`).

> `Stmt.alikeList_of_same`, `PassageAlike.same`: blocks that are the same are alike, and blocks that
> are alike are the same.
-/

namespace Croupier

/-! ### Floats -/

namespace Source

mutual

/-- The floats that are written in an expression. -/
def Expr.floats : Expr → List Float
  | .float _ x => [x]
  | .int _ _ | .string _ _ | .bool _ _ | .ident _ _ => []
  | .binary _ _ left right => left.floats ++ right.floats
  | .unary _ _ operand => operand.floats
  | .call _ callee args => callee.floats ++ Expr.floatsList args
  | .subscript _ base index => base.floats ++ index.floats
  | .member _ base _ => base.floats
  | .array _ items => Expr.floatsList items
  | .object _ members => Expr.floatsMembers members

/-- The floats that are written in several expressions. -/
def Expr.floatsList : List Expr → List Float
  | [] => []
  | e :: es => e.floats ++ Expr.floatsList es

/-- The floats that are written in the members of an object. -/
def Expr.floatsMembers : List (String × Expr) → List Float
  | [] => []
  | (_, e) :: members => e.floats ++ Expr.floatsMembers members

end

mutual

/-- The floats that are written in a statement. -/
def Stmt.floats : Stmt → List Float
  | .declareVar _ _ _ init => init.floats
  | .declareFunc _ _ _ _ _ body => Stmt.floatsList body
  | .bump _ _ target => target.floats
  | .assign _ target source => target.floats ++ source.floats
  | .call _ value | .returnValue _ value => value.floats
  | .breakLoop _ | .returnNone _ => []
  | .branch _ test body orElse => test.floats ++ Stmt.floatsList body ++ orElse.floats
  | .whileLoop _ test body => test.floats ++ Stmt.floatsList body
  | .forEach _ _ collection body => collection.floats ++ Stmt.floatsList body
  | .forTurn _ _ _ args body => Expr.floatsList args ++ Stmt.floatsList body

/-- The floats that are written behind an arm. -/
def Else.floats : Else → List Float
  | .nothing => []
  | .elseIf test body orElse => test.floats ++ Stmt.floatsList body ++ orElse.floats
  | .block body => Stmt.floatsList body

/-- The floats that are written in a block. -/
def Stmt.floatsList : List Stmt → List Float
  | [] => []
  | s :: ss => s.floats ++ Stmt.floatsList ss

end

/-- The floats that are written in a program. -/
def floats (tree : List Source.Stmt) : List Float := Stmt.floatsList tree

def Phrase.floats : Phrase → List Float
  | expr e => e.floats
  | list es => Expr.floatsList es
  | members ms => Expr.floatsMembers ms

def Passage.floats : Passage → List Float
  | stmt s => s.floats
  | arms e => e.floats
  | block ss => Stmt.floatsList ss

end Source

/-- The floats in a lowered expression were written there. -/
theorem PhraseLowered.float_written {setting : Setting} {d : Source.Phrase} {d' : Phrase}
    (h : PhraseLowered setting d d') {x : Float} (hx : .expr (.float x) ∈ d'.nodes) :
    x ∈ d.floats := by
  induction h with
  | int | string | bool => cases List.mem_singleton.mp hx
  | float =>
    cases List.mem_singleton.mp hx
    exact List.mem_cons_self
  | @ident _ _ entity => cases entity <;> cases List.mem_singleton.mp hx
  | binary _ _ _ ihleft ihright | subscript _ _ _ ihleft ihright =>
    rcases List.mem_cons.mp hx with heq | hx
    · cases heq
    · exact List.mem_append.mpr ((List.mem_append.mp hx).imp ihleft ihright)
  | unary _ ih | member _ ih | object _ ih =>
    rcases List.mem_cons.mp hx with heq | hx
    · cases heq
    · exact ih hx
  | @call _ _ _ f args' _ _ _ _ _ ih =>
    rcases Expr.mem_nodes_callOf.mp hx with heq | hx
    · rcases Expr.callOf_cases setting.returns f args' with
        ⟨i, _, _, _, hcall⟩ | ⟨i, _, _, _, _, hcall⟩ | hcall <;>
      · rw [hcall] at heq
        cases heq
    · exact List.mem_append_right _ (ih hx)
  | @array _ _ items' _ ih =>
    rcases Expr.mem_nodes_arrayOf.mp hx with heq | hx
    · cases items' <;> cases heq
    · exact ih hx
  | listNil | membersNil => cases hx
  | listCons _ _ ihfirst ihrest | membersCons _ _ ihfirst ihrest =>
    exact List.mem_append.mpr ((List.mem_append.mp hx).imp ihfirst ihrest)

/-- A float in a lowered passage was written in the source: lowering computes none. -/
theorem PassageLowered.float_written {strictness : Strictness} {scope scope' : Scope}
    {session session' : Session} {d : Source.Passage} {d' : Passage}
    (h : PassageLowered strictness scope session d d' scope' session') {x : Float}
    (hx : .expr (.float x) ∈ d'.nodes) : x ∈ d.floats := by
  -- The node of a statement is no expression, so a float is in one of the parts.
  have hparts : ∀ {s : Stmt} {xs : List Node}, .expr (.float x) ∈ Node.stmt s :: xs →
      .expr (.float x) ∈ xs := by
    intro s xs hmem
    rcases List.mem_cons.mp hmem with heq | hmem
    · cases heq
    · exact hmem
  induction h with
  | declareVar _ hpart | bump hpart | call hpart | returnValue _ hpart =>
    exact hpart.float_written (hparts hx)
  | assign htarget _ hsource =>
    exact List.mem_append.mpr
      ((List.mem_append.mp (hparts hx)).imp htarget.float_written hsource.float_written)
  | breakLoop | returnNone => cases hparts hx
  | declareFunc _ _ _ _ _ _ _ ih => exact ih (hparts hx)
  | shortBranch htest _ _ ih =>
    have hboth := (List.mem_append.mp (hparts hx)).imp htest.float_written ih
    exact List.mem_append_left _ (List.mem_append.mpr hboth)
  | whileLoop htest _ _ ih | forEach htest _ _ ih =>
    exact List.mem_append.mpr ((List.mem_append.mp (hparts hx)).imp htest.float_written ih)
  | branch htest _ _ _ _ ihbody ihelse | elseIf htest _ _ _ ihbody ihelse =>
    rcases List.mem_append.mp (hparts hx) with hfirst | helse
    · have hboth := (List.mem_append.mp hfirst).imp htest.float_written ihbody
      exact List.mem_append_left _ (List.mem_append.mpr hboth)
    · exact List.mem_append_right _ (ihelse helse)
  | forTurn hlow hhigh hstep _ _ _ ih =>
    have hargs := PhraseLowered.listCons hlow (.listCons hhigh (.listCons hstep .listNil))
    rcases List.mem_append.mp (hparts hx) with hbounds | hbody
    · refine List.mem_append_left _ (hargs.float_written ?_)
      show _ ∈ _ ++ (_ ++ (_ ++ []))
      rw [List.append_nil, ← List.append_assoc]
      exact hbounds
    · exact List.mem_append_right _ (ih hbody)
  | nothing | nil => cases hx
  | block _ ih => exact ih hx
  | cons _ _ ihfirst ihrest =>
    exact List.mem_append.mpr ((List.mem_append.mp hx).imp ihfirst ihrest)

/-! ### Nodes without floats and with assignments that names decide -/

/-- No float, and no assignment on whose sides names and numbers say different things. -/
def Node.Clear : Node → Prop
  | .expr (.float _) => False
  | .stmt (.assign target source) => Told target source
  | .expr _ | .stmt _ => True

/-- All nodes are clear. -/
def Clear (nodes : List Node) : Prop := ∀ x ∈ nodes, x.Clear

namespace Clear

variable {x : Node} {xs ys : List Node}

theorem tail (h : Clear (x :: xs)) : Clear xs := (List.forall_mem_cons.mp h).2

theorem left (h : Clear (xs ++ ys)) : Clear xs := (List.forall_mem_append.mp h).1

theorem right (h : Clear (xs ++ ys)) : Clear ys := (List.forall_mem_append.mp h).2

end Clear

/-- A program lowered from a source without floats has only clear nodes. -/
theorem Program.clear_of_lower {strictness : Strictness} {tree : List Source.Stmt} {p : Program}
    (hfloats : Source.floats tree = []) (h : Source.lower strictness tree = .ok p) :
    Clear p.nodes := by
  intro x hx
  unfold Node.Clear
  split
  next value =>
    obtain ⟨last, session, hlowered, _⟩ := passageLowered_of_program h
    have hwritten : value ∈ Source.floats tree := hlowered.float_written hx
    rw [hfloats] at hwritten
    cases hwritten
  next => exact Program.told_of_lower h hx
  next => trivial
  next => trivial

/-! ### What is alike -/

/-- Two phrases without floats that agree up to numbers and up to the order in unions. `R` and `S`
are the results that are settled in the programs which they are from. -/
inductive PhraseAlike (R S : Returns) : Phrase → Phrase → Prop where
  | int (n : Int) : PhraseAlike R S (.expr (.int n)) (.expr (.int n))
  | string (text : String) : PhraseAlike R S (.expr (.string text)) (.expr (.string text))
  | bool (b : Bool) : PhraseAlike R S (.expr (.bool b)) (.expr (.bool b))
  | var {v w : Var} (hv : v.same w = true) : PhraseAlike R S (.expr (.var v)) (.expr (.var w))
  | func {f g : Func} (hf : f.same R S g = true) :
    PhraseAlike R S (.expr (.func f)) (.expr (.func g))
  | array {es fs : List Expr} {s t : Ty} (hitems : PhraseAlike R S (.list es) (.list fs))
      (hty : (s == t) = true) : PhraseAlike R S (.expr (.array es s)) (.expr (.array fs t))
  | emptyArray {s t : Ty} (hty : (s == t) = true) :
    PhraseAlike R S (.expr (.emptyArray s)) (.expr (.emptyArray t))
  | object {ms ns : List (String × Expr)} (hmembers : PhraseAlike R S (.members ms) (.members ns)) :
    PhraseAlike R S (.expr (.object ms)) (.expr (.object ns))
  | binary {head : BinaryHead} {a b c d : Expr} {s t : Ty}
      (hleft : PhraseAlike R S (.expr a) (.expr c)) (hright : PhraseAlike R S (.expr b) (.expr d))
      (hty : (s == t) = true) :
    PhraseAlike R S (.expr (.binary head a b s)) (.expr (.binary head c d t))
  | unary {head : UnaryHead} {a c : Expr} {s t : Ty}
      (hoperand : PhraseAlike R S (.expr a) (.expr c)) (hty : (s == t) = true) :
    PhraseAlike R S (.expr (.unary head a s)) (.expr (.unary head c t))
  | subscript {a b c d : Expr} {s t : Ty} (hbase : PhraseAlike R S (.expr a) (.expr c))
      (hindex : PhraseAlike R S (.expr b) (.expr d)) (hty : (s == t) = true) :
    PhraseAlike R S (.expr (.subscript a b s)) (.expr (.subscript c d t))
  | member {a c : Expr} {field : String} {s t : Ty} (hbase : PhraseAlike R S (.expr a) (.expr c))
      (hty : (s == t) = true) :
    PhraseAlike R S (.expr (.member a field s)) (.expr (.member c field t))
  | call {f g : Func} {es fs : List Expr} {s t : Ty} (hf : f.same R S g = true)
      (hargs : PhraseAlike R S (.list es) (.list fs)) (hty : (s == t) = true) :
    PhraseAlike R S (.expr (.call f es s)) (.expr (.call g fs t))
  | listNil : PhraseAlike R S (.list []) (.list [])
  | listCons {e f : Expr} {es fs : List Expr} (hfirst : PhraseAlike R S (.expr e) (.expr f))
      (hrest : PhraseAlike R S (.list es) (.list fs)) :
    PhraseAlike R S (.list (e :: es)) (.list (f :: fs))
  | membersNil : PhraseAlike R S (.members []) (.members [])
  | membersCons {key : String} {e f : Expr} {ms ns : List (String × Expr)}
      (hfirst : PhraseAlike R S (.expr e) (.expr f))
      (hrest : PhraseAlike R S (.members ms) (.members ns)) :
    PhraseAlike R S (.members ((key, e) :: ms)) (.members ((key, f) :: ns))

/-- Two passages without floats that agree up to numbers and up to the order in unions. `K` is what
is known of the sides of their assignments. -/
inductive PassageAlike (K : Expr → Expr → Prop) (R S : Returns) : Passage → Passage → Prop where
  | declareVar {v w : Var} {e f : Expr} (hv : v.same w = true)
      (hinit : PhraseAlike R S (.expr e) (.expr f)) :
    PassageAlike K R S (.stmt (.declareVar v e)) (.stmt (.declareVar w f))
  | declareFunc {f g : Func} {b c : List Stmt} (hf : f.same R S g = true)
      (hbody : PassageAlike K R S (.block b) (.block c)) :
    PassageAlike K R S (.stmt (.declareFunc f b)) (.stmt (.declareFunc g c))
  | assign {target source target' source' : Expr}
      (htarget : PhraseAlike R S (.expr target) (.expr target'))
      (hsource : PhraseAlike R S (.expr source) (.expr source'))
      (hknown : K target source) (hknown' : K target' source') :
    PassageAlike K R S (.stmt (.assign target source)) (.stmt (.assign target' source'))
  | bump {op : BumpOperator} {e f : Expr} (htarget : PhraseAlike R S (.expr e) (.expr f)) :
    PassageAlike K R S (.stmt (.bump op e)) (.stmt (.bump op f))
  | call {e f : Expr} (hvalue : PhraseAlike R S (.expr e) (.expr f)) :
    PassageAlike K R S (.stmt (.call e)) (.stmt (.call f))
  | breakLoop : PassageAlike K R S (.stmt .breakLoop) (.stmt .breakLoop)
  | returnValue {e f : Expr} (hvalue : PhraseAlike R S (.expr e) (.expr f)) :
    PassageAlike K R S (.stmt (.returnValue e)) (.stmt (.returnValue f))
  | returnNone : PassageAlike K R S (.stmt .returnNone) (.stmt .returnNone)
  | branch {e f : Expr} {b c : List Stmt} {r s : Else} (htest : PhraseAlike R S (.expr e) (.expr f))
      (hbody : PassageAlike K R S (.block b) (.block c))
      (helse : PassageAlike K R S (.arms r) (.arms s)) :
    PassageAlike K R S (.stmt (.branch e b r)) (.stmt (.branch f c s))
  | shortBranch {e f : Expr} {b c : List Stmt} (htest : PhraseAlike R S (.expr e) (.expr f))
      (hbody : PassageAlike K R S (.block b) (.block c)) :
    PassageAlike K R S (.stmt (.shortBranch e b)) (.stmt (.shortBranch f c))
  | whileLoop {e f : Expr} {b c : List Stmt} (htest : PhraseAlike R S (.expr e) (.expr f))
      (hbody : PassageAlike K R S (.block b) (.block c)) :
    PassageAlike K R S (.stmt (.whileLoop e b)) (.stmt (.whileLoop f c))
  | forEach {v w : Var} {e f : Expr} {b c : List Stmt} (hv : v.same w = true)
      (hcollection : PhraseAlike R S (.expr e) (.expr f))
      (hbody : PassageAlike K R S (.block b) (.block c)) :
    PassageAlike K R S (.stmt (.forEach v e b)) (.stmt (.forEach w f c))
  | forTurn {v w : Var} {low high step low' high' step' : Expr} {direction : Direction}
      {b c : List Stmt} (hv : v.same w = true) (hlow : PhraseAlike R S (.expr low) (.expr low'))
      (hhigh : PhraseAlike R S (.expr high) (.expr high'))
      (hstep : PhraseAlike R S (.expr step) (.expr step'))
      (hbody : PassageAlike K R S (.block b) (.block c)) :
    PassageAlike K R S (.stmt (.forTurn v low high step direction b))
      (.stmt (.forTurn w low' high' step' direction c))
  | elseIf {e f : Expr} {b c : List Stmt} {r s : Else} (htest : PhraseAlike R S (.expr e) (.expr f))
      (hbody : PassageAlike K R S (.block b) (.block c))
      (helse : PassageAlike K R S (.arms r) (.arms s)) :
    PassageAlike K R S (.arms (.elseIf e b r)) (.arms (.elseIf f c s))
  | block {b c : List Stmt} (hbody : PassageAlike K R S (.block b) (.block c)) :
    PassageAlike K R S (.arms (.block b)) (.arms (.block c))
  | nil : PassageAlike K R S (.block []) (.block [])
  | cons {s t : Stmt} {ss ts : List Stmt} (hfirst : PassageAlike K R S (.stmt s) (.stmt t))
      (hrest : PassageAlike K R S (.block ss) (.block ts)) :
    PassageAlike K R S (.block (s :: ss)) (.block (t :: ts))

/-! ### Sameness is likeness -/

section Same

variable {R S : Returns}

mutual

/-- Clear expressions that compare as the same are alike, part by part. -/
theorem Expr.alike_of_same (e other : Expr) (hclear : Clear e.nodes)
    (h : e.same R S other = true) : PhraseAlike R S (.expr e) (.expr other) := by
  match e with
  | .int m =>
    cases other with
    | int n =>
      cases eq_of_beq h
      exact .int m
    | _ => cases h
  | .float x => exact (hclear _ List.mem_cons_self).elim
  | .string text =>
    cases other with
    | string text' =>
      cases eq_of_beq h
      exact .string text
    | _ => cases h
  | .bool a =>
    cases other with
    | bool b =>
      cases eq_of_beq h
      exact .bool a
    | _ => cases h
  | .var v =>
    cases other with
    | var w => exact .var h
    | _ => cases h
  | .func f =>
    cases other with
    | func g => exact .func h
    | _ => cases h
  | .array es s =>
    cases other with
    | array fs t =>
      rw [Expr.same, Bool.and_eq_true] at h
      exact .array (Expr.alikeList_of_same es fs hclear.tail h.1) h.2
    | _ => cases h
  | .emptyArray s =>
    cases other with
    | emptyArray t => exact .emptyArray h
    | _ => cases h
  | .object ms =>
    cases other with
    | object ns => exact .object (Expr.alikeMembers_of_same ms ns hclear.tail h)
    | _ => cases h
  | .binary head a b s =>
    cases other with
    | binary head' c d t =>
      simp only [Expr.same, Bool.and_eq_true] at h
      obtain ⟨⟨⟨hhead, hleft⟩, hright⟩, hty⟩ := h
      cases eq_of_beq hhead
      exact .binary (a.alike_of_same c hclear.tail.left hleft)
        (b.alike_of_same d hclear.tail.right hright) hty
    | _ => cases h
  | .unary head a s =>
    cases other with
    | unary head' c t =>
      simp only [Expr.same, Bool.and_eq_true] at h
      obtain ⟨⟨hhead, hoperand⟩, hty⟩ := h
      cases eq_of_beq hhead
      exact .unary (a.alike_of_same c hclear.tail hoperand) hty
    | _ => cases h
  | .subscript a b s =>
    cases other with
    | subscript c d t =>
      simp only [Expr.same, Bool.and_eq_true] at h
      obtain ⟨⟨hbase, hindex⟩, hty⟩ := h
      exact .subscript (a.alike_of_same c hclear.tail.left hbase)
        (b.alike_of_same d hclear.tail.right hindex) hty
    | _ => cases h
  | .member a field s =>
    cases other with
    | member c field' t =>
      simp only [Expr.same, Bool.and_eq_true] at h
      obtain ⟨⟨hbase, hfield⟩, hty⟩ := h
      cases eq_of_beq hfield
      exact .member (a.alike_of_same c hclear.tail hbase) hty
    | _ => cases h
  | .call f es s =>
    cases other with
    | call g fs t =>
      simp only [Expr.same, Bool.and_eq_true] at h
      obtain ⟨⟨hf, hargs⟩, hty⟩ := h
      exact .call hf (Expr.alikeList_of_same es fs hclear.tail hargs) hty
    | _ => cases h

theorem Expr.alikeList_of_same (es others : List Expr) (hclear : Clear (Expr.nodesList es))
    (h : Expr.sameList R S es others = true) : PhraseAlike R S (.list es) (.list others) := by
  match es, others with
  | [], [] => exact .listNil
  | [], _ :: _ => cases h
  | _ :: _, [] => cases h
  | e :: es, f :: fs =>
    rw [Expr.sameList, Bool.and_eq_true] at h
    exact .listCons (e.alike_of_same f hclear.left h.1)
      (Expr.alikeList_of_same es fs hclear.right h.2)

theorem Expr.alikeMembers_of_same (ms others : List (String × Expr))
    (hclear : Clear (Expr.nodesMembers ms)) (h : Expr.sameMembers R S ms others = true) :
    PhraseAlike R S (.members ms) (.members others) := by
  match ms, others with
  | [], [] => exact .membersNil
  | [], _ :: _ => cases h
  | _ :: _, [] => cases h
  | (key, e) :: ms, (key', f) :: ns =>
    simp only [Expr.sameMembers, Bool.and_eq_true] at h
    obtain ⟨⟨hkey, hfirst⟩, hrest⟩ := h
    cases eq_of_beq hkey
    exact .membersCons (e.alike_of_same f hclear.left hfirst)
      (Expr.alikeMembers_of_same ms ns hclear.right hrest)

end

mutual

/-- Statements that compare as the same are alike, part by part. What is compared by numbers, the
sides of an assignment, is told apart by names as well. -/
theorem Stmt.alike_of_same (s other : Stmt) (hclear : Clear s.nodes) (hclear' : Clear other.nodes)
    (h : s.same R S other = true) : PassageAlike Told R S (.stmt s) (.stmt other) := by
  match s with
  | .declareVar v e =>
    cases other with
    | declareVar w f =>
      rw [Stmt.same, Bool.and_eq_true] at h
      exact .declareVar h.1 (e.alike_of_same f hclear.tail h.2)
    | _ => cases h
  | .declareFunc f b =>
    cases other with
    | declareFunc g c =>
      rw [Stmt.same, Bool.and_eq_true] at h
      exact .declareFunc h.1 (Stmt.alikeList_of_same b c hclear.tail hclear'.tail h.2)
    | _ => cases h
  | .assign target source =>
    cases other with
    | assign target' source' =>
      rw [Stmt.same, Bool.and_eq_true] at h
      exact .assign (target.alike_of_same target' hclear.tail.left h.1)
        (source.alike_of_same source' hclear.tail.right h.2) (hclear _ List.mem_cons_self)
        (hclear' _ List.mem_cons_self)
    | _ => cases h
  | .bump op e =>
    cases other with
    | bump op' f =>
      rw [Stmt.same, Bool.and_eq_true] at h
      cases eq_of_beq h.1
      exact .bump (e.alike_of_same f hclear.tail h.2)
    | _ => cases h
  | .call e =>
    cases other with
    | call f => exact .call (e.alike_of_same f hclear.tail h)
    | _ => cases h
  | .breakLoop =>
    cases other with
    | breakLoop => exact .breakLoop
    | _ => cases h
  | .returnValue e =>
    cases other with
    | returnValue f => exact .returnValue (e.alike_of_same f hclear.tail h)
    | _ => cases h
  | .returnNone =>
    cases other with
    | returnNone => exact .returnNone
    | _ => cases h
  | .branch e b r =>
    cases other with
    | branch f c s =>
      simp only [Stmt.same, Bool.and_eq_true] at h
      obtain ⟨⟨htest, hbody⟩, helse⟩ := h
      exact .branch (e.alike_of_same f hclear.tail.left.left htest)
        (Stmt.alikeList_of_same b c hclear.tail.left.right hclear'.tail.left.right hbody)
        (Else.alike_of_same r s hclear.tail.right hclear'.tail.right helse)
    | _ => cases h
  | .shortBranch e b =>
    cases other with
    | shortBranch f c =>
      rw [Stmt.same, Bool.and_eq_true] at h
      exact .shortBranch (e.alike_of_same f hclear.tail.left h.1)
        (Stmt.alikeList_of_same b c hclear.tail.right hclear'.tail.right h.2)
    | _ => cases h
  | .whileLoop e b =>
    cases other with
    | whileLoop f c =>
      rw [Stmt.same, Bool.and_eq_true] at h
      exact .whileLoop (e.alike_of_same f hclear.tail.left h.1)
        (Stmt.alikeList_of_same b c hclear.tail.right hclear'.tail.right h.2)
    | _ => cases h
  | .forEach v e b =>
    cases other with
    | forEach w f c =>
      simp only [Stmt.same, Bool.and_eq_true] at h
      obtain ⟨⟨hv, hcollection⟩, hbody⟩ := h
      exact .forEach hv (e.alike_of_same f hclear.tail.left hcollection)
        (Stmt.alikeList_of_same b c hclear.tail.right hclear'.tail.right hbody)
    | _ => cases h
  | .forTurn v low high step direction b =>
    cases other with
    | forTurn w low' high' step' direction' c =>
      simp only [Stmt.same, Bool.and_eq_true] at h
      obtain ⟨⟨⟨⟨⟨hv, hlow⟩, hhigh⟩, hstep⟩, hdirection⟩, hbody⟩ := h
      cases eq_of_beq hdirection
      exact .forTurn hv (low.alike_of_same low' hclear.tail.left.left.left hlow)
        (high.alike_of_same high' hclear.tail.left.left.right hhigh)
        (step.alike_of_same step' hclear.tail.left.right hstep)
        (Stmt.alikeList_of_same b c hclear.tail.right hclear'.tail.right hbody)
    | _ => cases h

theorem Else.alike_of_same (e other : Else) (hclear : Clear e.nodes) (hclear' : Clear other.nodes)
    (h : e.same R S other = true) : PassageAlike Told R S (.arms e) (.arms other) := by
  match e, other with
  | .elseIf e b r, .elseIf f c s =>
    simp only [Else.same, Bool.and_eq_true] at h
    obtain ⟨⟨htest, hbody⟩, helse⟩ := h
    exact .elseIf (e.alike_of_same f hclear.tail.left.left htest)
      (Stmt.alikeList_of_same b c hclear.tail.left.right hclear'.tail.left.right hbody)
      (Else.alike_of_same r s hclear.tail.right hclear'.tail.right helse)
  | .elseIf _ _ _, .block _ => cases h
  | .block _, .elseIf _ _ _ => cases h
  | .block b, .block c => exact .block (Stmt.alikeList_of_same b c hclear hclear' h)

theorem Stmt.alikeList_of_same (ss others : List Stmt) (hclear : Clear (Stmt.nodesList ss))
    (hclear' : Clear (Stmt.nodesList others)) (h : Stmt.sameList R S ss others = true) :
    PassageAlike Told R S (.block ss) (.block others) := by
  match ss, others with
  | [], [] => exact .nil
  | [], _ :: _ => cases h
  | _ :: _, [] => cases h
  | s :: ss, t :: ts =>
    rw [Stmt.sameList, Bool.and_eq_true] at h
    exact .cons (s.alike_of_same t hclear.left hclear'.left h.1)
      (Stmt.alikeList_of_same ss ts hclear.right hclear'.right h.2)

end

/-- Sameness of two phrases of one kind. -/
def Phrase.same (R S : Returns) : Phrase → Phrase → Bool
  | .expr e, .expr f => e.same R S f
  | .list es, .list fs => Expr.sameList R S es fs
  | .members ms, .members ns => Expr.sameMembers R S ms ns
  | _, _ => false

/-- Sameness of two passages of one kind. -/
def Passage.same (R S : Returns) : Passage → Passage → Bool
  | .stmt s, .stmt t => s.same R S t
  | .arms e, .arms f => e.same R S f
  | .block ss, .block ts => Stmt.sameList R S ss ts
  | _, _ => false

/-- Phrases that are alike compare as the same. With `Expr.alike_of_same` the relation says exactly
what the comparison computes of clear expressions. -/
theorem PhraseAlike.same {d d' : Phrase} (h : PhraseAlike R S d d') : d.same R S d' = true := by
  induction h with
  | listNil | membersNil => rfl
  | int | string | bool => exact beq_self_eq_true _
  | var hv => exact hv
  | func hf => exact hf
  | emptyArray hty => exact hty
  | object _ ih => exact ih
  | array _ hty ih | unary _ hty ih | member _ hty ih => simp_all [Phrase.same, Expr.same]
  | call hf _ hty ih => simp_all [Phrase.same, Expr.same]
  | binary _ _ hty ihleft ihright | subscript _ _ hty ihleft ihright =>
    simp_all [Phrase.same, Expr.same]
  | listCons _ _ ihfirst ihrest | membersCons _ _ ihfirst ihrest =>
    simp_all [Phrase.same, Expr.sameList, Expr.sameMembers]

theorem PhraseAlike.same_expr {e f : Expr} (h : PhraseAlike R S (.expr e) (.expr f)) :
    e.same R S f = true :=
  h.same

/-- Passages that are alike compare as the same, whatever is known of their assignments. -/
theorem PassageAlike.same {K : Expr → Expr → Prop} {d d' : Passage}
    (h : PassageAlike K R S d d') : d.same R S d' = true := by
  induction h with
  | breakLoop | returnNone | nil => rfl
  | declareVar hv hinit => simp [Passage.same, Stmt.same, hv, hinit.same_expr]
  | assign htarget hsource =>
    simp [Passage.same, Stmt.same, htarget.same_expr, hsource.same_expr]
  | bump hpart | call hpart | returnValue hpart =>
    simp [Passage.same, Stmt.same, hpart.same_expr]
  | declareFunc hf _ ih => exact Bool.and_eq_true_iff.mpr ⟨hf, ih⟩
  | shortBranch htest _ ih | whileLoop htest _ ih =>
    exact Bool.and_eq_true_iff.mpr ⟨htest.same_expr, ih⟩
  | forEach hv hcollection _ ih =>
    have hhead := Bool.and_eq_true_iff.mpr ⟨hv, hcollection.same_expr⟩
    exact Bool.and_eq_true_iff.mpr ⟨hhead, ih⟩
  | forTurn hv hlow hhigh hstep _ ih =>
    refine Bool.and_eq_true_iff.mpr ⟨?_, ih⟩
    simp [hv, hlow.same_expr, hhigh.same_expr, hstep.same_expr]
  | branch htest _ _ ihbody ihelse | elseIf htest _ _ ihbody ihelse =>
    have hfirst := Bool.and_eq_true_iff.mpr ⟨htest.same_expr, ihbody⟩
    exact Bool.and_eq_true_iff.mpr ⟨hfirst, ihelse⟩
  | block _ ih => exact ih
  | cons _ _ ihfirst ihrest => exact Bool.and_eq_true_iff.mpr ⟨ihfirst, ihrest⟩

end Same

end Croupier
