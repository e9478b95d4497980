import Croupier.Program.Basic
import Croupier.Decimal.Layout
import Croupier.Text.Quoted
import Croupier.Markup

/-!
# Listings

A typed program as text, one statement a line and the bodies of compound statements indented.
Bindings show their types, operations are put in parentheses, and a turn shows its direction. A
listing is `Markup`, so that with and without colours it is the same text.
-/

namespace Croupier

namespace Listing

open Markup (plain coloured joined)

/-- Floats show the fewest digits that read back, positionally from a ten-thousandth up to
sixteen digits in front of the point; a whole number keeps its point. -/
def floatLayout : Decimal.Layout :=
  { leastPositional := -4
    greatestPositional := 15
    wholeMark := ['.', '0']
    exponentMark := ['e']
    infinity := ['i', 'n', 'f']
    notANumber := ['N', 'a', 'N'] }

/-- How far each level of nesting is indented. -/
def indent : String := "    "

def keyword (word : String) : Markup := coloured .magenta word

def punctuation (mark : String) : Markup := coloured .white mark

def name (text : String) : Markup := coloured .blue text

def typeText (ty : Ty) : Markup := coloured .yellow ty.text

def number (text : String) : Markup := coloured .magenta text

def builtin (word : String) : Markup := coloured .cyan word

/-- A line at a level of nesting. -/
def line (depth : Nat) (content : Markup) : Markup :=
  plain (String.join (List.replicate depth indent)) ++ content ++ plain "\n"

/-- A variable with its type. -/
def binding (v : Var) : Markup := name v.name ++ punctuation ":" ++ plain " " ++ typeText v.ty

/-- Pieces of a line with a space between each two. -/
def spaced (parts : List Markup) : Markup := joined " " parts

end Listing

open Listing
open Markup (plain coloured joined)

mutual

/-- The text of an expression. -/
def Expr.markup : Expr → Markup
  | .int n => number (toString n)
  | .float x => number (floatLayout.float x)
  | .string s => coloured .green (Text.quoted s)
  | .bool b => number (if b then "true" else "false")
  | .var v => name v.name
  | .func f => name f.name
  | .array items _ => plain "[" ++ joined ", " (Expr.markups items) ++ plain "]"
  | .emptyArray _ => plain "[]"
  | .object members => plain "\x7b" ++ joined ", " (Expr.memberMarkups members) ++ plain "\x7d"
  | .binary (.operator op) left right _ =>
    plain "(" ++ spaced [left.markup, punctuation op.spelling, right.markup] ++ plain ")"
  | .binary (.intrinsic i) left right _ =>
    builtin i.spelling ++ plain "(" ++ joined ", " [left.markup, right.markup] ++ plain ")"
  | .unary (.operator op) operand _ => punctuation op.spelling ++ operand.markup
  | .unary (.intrinsic i) operand _ =>
    builtin i.spelling ++ plain "(" ++ operand.markup ++ plain ")"
  | .subscript base index _ => base.markup ++ plain "[" ++ index.markup ++ plain "]"
  | .member base field _ => base.markup ++ plain "." ++ plain field
  | .call callee args _ =>
    name callee.name ++ plain "(" ++ joined ", " (Expr.markups args) ++ plain ")"

/-- The texts of several expressions. -/
def Expr.markups : List Expr → List Markup
  | [] => []
  | e :: es => e.markup :: Expr.markups es

/-- The texts of the members of an object. -/
def Expr.memberMarkups : List (String × Expr) → List Markup
  | [] => []
  | (key, e) :: members => (plain key ++ plain ": " ++ e.markup) :: Expr.memberMarkups members

end

mutual

/-- The lines of a statement at a level of nesting. -/
def Stmt.markup (returns : Returns) (depth : Nat) : Stmt → Markup
  | .declareVar v init =>
    line depth (spaced [keyword (if v.access = .constant then "all in" else "hand"), binding v,
      punctuation "=", init.markup])
  | .declareFunc f body =>
    line depth (spaced [keyword "deal",
      name f.name ++ punctuation "(" ++ joined ", " (f.params.map binding) ++ punctuation ")",
      punctuation "->", typeText (f.returnTy returns), punctuation "\x7b"]) ++
    Stmt.markups returns (depth + 1) body ++ line depth (punctuation "\x7d")
  | .assign target source => line depth (spaced [target.markup, punctuation "=", source.markup])
  | .bump op target => line depth (target.markup ++ punctuation op.spelling)
  | .call value => line depth value.markup
  | .breakLoop => line depth (keyword "break")
  | .returnValue value => line depth (spaced [keyword "return", value.markup])
  | .returnNone => line depth (keyword "return")
  | .branch test body orElse =>
    line depth (spaced [keyword "if", test.markup, punctuation "\x7b"]) ++
    Stmt.markups returns (depth + 1) body ++ Else.markup returns depth orElse ++
    line depth (punctuation "\x7d")
  | .shortBranch test body =>
    line depth (spaced [keyword "if", test.markup, punctuation "\x7b"]) ++
    Stmt.markups returns (depth + 1) body ++ line depth (punctuation "\x7d")
  | .whileLoop test body =>
    line depth (spaced [keyword "while", test.markup, punctuation "\x7b"]) ++
    Stmt.markups returns (depth + 1) body ++ line depth (punctuation "\x7d")
  | .forEach iterator collection body =>
    line depth (spaced [keyword "for", binding iterator, keyword "in", collection.markup,
      punctuation "\x7b"]) ++
    Stmt.markups returns (depth + 1) body ++ line depth (punctuation "\x7d")
  | .forTurn iterator low high step direction body =>
    line depth (spaced [keyword "for", binding iterator, keyword "in",
      builtin "turn" ++ punctuation "(" ++ joined ", " [low.markup, high.markup, step.markup] ++
        punctuation ")",
      builtin direction.spelling, punctuation "\x7b"]) ++
    Stmt.markups returns (depth + 1) body ++ line depth (punctuation "\x7d")

/-- The lines behind an arm of an `if`. A further arm goes on in the line that closes the one
before, and an empty last arm is not shown. -/
def Else.markup (returns : Returns) (depth : Nat) : Else → Markup
  | .elseIf test body orElse =>
    line depth (spaced [keyword "\x7d else if", test.markup, punctuation "\x7b"]) ++
    Stmt.markups returns (depth + 1) body ++ Else.markup returns depth orElse
  | .block [] => []
  | .block body =>
    line depth (spaced [keyword "\x7d else", punctuation "\x7b"]) ++
    Stmt.markups returns (depth + 1) body

/-- The lines of the statements of a block. -/
def Stmt.markups (returns : Returns) (depth : Nat) : List Stmt → Markup
  | [] => []
  | s :: ss => Stmt.markup returns depth s ++ Stmt.markups returns depth ss

end

/-- The listing of a program. -/
def Program.listing (p : Program) : Markup := Stmt.markups p.returns 0 p.body

/-- The text of an expression without colours. -/
def Expr.text (e : Expr) : String := e.markup.toPlain

end Croupier
