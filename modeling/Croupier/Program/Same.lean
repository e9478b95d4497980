import Croupier.Program.Basic

/-!
# Sameness of programs

Two programs are the same when they agree node by node, entities being compared by what is known
of them and not by their numbers. Numbers compare as numbers do, so `0.0` is the same as `-0.0`
and a NaN is not the same as itself; types compare by `Ty.same`, which takes the members of a
union in any order.
-/

namespace Croupier

mutual

/-- Sameness of two expressions, of programs with the given settled results. -/
def Expr.same (R S : Returns) : Expr → Expr → Bool
  | .int m, .int n => m == n
  | .float x, .float y => x == y
  | .string s, .string t => s == t
  | .bool a, .bool b => a == b
  | .var v, .var w => v.same w
  | .func f, .func g => f.same R S g
  | .array es s, .array fs t => Expr.sameList R S es fs && s == t
  | .emptyArray s, .emptyArray t => s == t
  | .object ms, .object ns => Expr.sameMembers R S ms ns
  | .binary h a b s, .binary k c d t =>
    h == k && Expr.same R S a c && Expr.same R S b d && s == t
  | .unary h a s, .unary k c t => h == k && Expr.same R S a c && s == t
  | .subscript a b s, .subscript c d t =>
    Expr.same R S a c && Expr.same R S b d && s == t
  | .member a m s, .member c n t => Expr.same R S a c && m == n && s == t
  | .call f es s, .call g fs t =>
    f.same R S g && Expr.sameList R S es fs && s == t
  | _, _ => false

/-- Sameness of two lists of expressions, position by position. -/
def Expr.sameList (R S : Returns) : List Expr → List Expr → Bool
  | [], [] => true
  | e :: es, f :: fs => Expr.same R S e f && Expr.sameList R S es fs
  | _, _ => false

/-- Sameness of two lists of object members, position by position. -/
def Expr.sameMembers (R S : Returns) :
    List (String × Expr) → List (String × Expr) → Bool
  | [], [] => true
  | (m, e) :: ms, (n, f) :: ns =>
    m == n && Expr.same R S e f && Expr.sameMembers R S ms ns
  | _, _ => false

end

mutual

/-- Sameness of two statements, of programs with the given settled results. -/
def Stmt.same (R S : Returns) : Stmt → Stmt → Bool
  | .declareVar v e, .declareVar w f => v.same w && e.same R S f
  | .declareFunc f b, .declareFunc g c => f.same R S g && Stmt.sameList R S b c
  | .assign a b, .assign c d => a.same R S c && b.same R S d
  | .bump o e, .bump p f => o == p && e.same R S f
  | .call e, .call f => e.same R S f
  | .breakLoop, .breakLoop => true
  | .returnValue e, .returnValue f => e.same R S f
  | .returnNone, .returnNone => true
  | .branch e b r, .branch f c s =>
    e.same R S f && Stmt.sameList R S b c && Else.same R S r s
  | .shortBranch e b, .shortBranch f c => e.same R S f && Stmt.sameList R S b c
  | .whileLoop e b, .whileLoop f c => e.same R S f && Stmt.sameList R S b c
  | .forEach v e b, .forEach w f c =>
    v.same w && e.same R S f && Stmt.sameList R S b c
  | .forTurn v l h s d b, .forTurn w m i t e c =>
    v.same w && l.same R S m && h.same R S i && s.same R S t &&
      d == e && Stmt.sameList R S b c
  | _, _ => false

/-- Sameness of what follows two arms. -/
def Else.same (R S : Returns) : Else → Else → Bool
  | .elseIf e b r, .elseIf f c s =>
    e.same R S f && Stmt.sameList R S b c && Else.same R S r s
  | .block b, .block c => Stmt.sameList R S b c
  | _, _ => false

/-- Sameness of two blocks, statement by statement. -/
def Stmt.sameList (R S : Returns) : List Stmt → List Stmt → Bool
  | [], [] => true
  | s :: ss, t :: ts => Stmt.same R S s t && Stmt.sameList R S ss ts
  | _, _ => false

end

/-- Sameness of two programs. -/
def Program.same (p q : Program) : Bool := Stmt.sameList p.returns q.returns p.body q.body

end Croupier
