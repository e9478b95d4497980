import Croupier.Lowering.Stmt
import Croupier.Simplify.Stmt

/-!
# Compiling

The way from a source tree, or from program text, to a simplified typed program.
-/

namespace Croupier

/-- Checks a program, gives it types and simplifies it. -/
def compile (strictness : Strictness) (tree : List Source.Stmt) : Except Fault Program :=
  (Source.lower strictness tree).map Program.simplify

/-- Compiles what a reader makes of a text, leniently. -/
def compileText (read : String → Except Unreadable (List Source.Stmt)) (text : String) :
    Except Rejection Program :=
  match read text with
  | .error u => .error (.unreadable u)
  | .ok tree =>
    match compile .lenient tree with
    | .error fault => .error (.faulty fault)
    | .ok program => .ok program

end Croupier
