import Croupier.Entity

/-!
# The standard library

What every program can name without declaring it: two constants, the functions that the machine
computes itself (`Intrinsic`) and the variadic `raise`. Its entities carry the numbers below
`Library.size`, so numbers from there on are free for the entities of a program.
-/

namespace Croupier

/-- The functions that the machine computes itself; calling one is an operation and no call. -/
inductive Intrinsic where
  | sqrt
  | sin
  | cos
  | exp
  | ln
  | hypot
  | max
  | min
  | abs
  | bytes
  | codepoints
deriving DecidableEq

namespace Intrinsic

/-- All intrinsics, in library order. -/
def all : List Intrinsic := [sqrt, sin, cos, exp, ln, hypot, max, min, abs, bytes, codepoints]

/-- The name under which an intrinsic is called. -/
def spelling : Intrinsic → String
  | sqrt => "sqrt"
  | sin => "sin"
  | cos => "cos"
  | exp => "exp"
  | ln => "ln"
  | hypot => "hypot"
  | max => "max"
  | min => "min"
  | abs => "abs"
  | bytes => "bytes"
  | codepoints => "codepoints"

/-- The intrinsic of a given name. -/
def ofSpelling? (text : String) : Option Intrinsic := all.find? (·.spelling == text)

/-- Every intrinsic is found under its own spelling. -/
theorem ofSpelling?_spelling (i : Intrinsic) : ofSpelling? i.spelling = some i := by
  cases i <;> decide

/-- What an intrinsic takes and gives. -/
def signature : Intrinsic → Signature
  | sqrt | sin | cos | exp | ln | abs => ⟨[.float], .float⟩
  | hypot | max | min => ⟨[.float, .float], .float⟩
  | bytes | codepoints => ⟨[.string], .array .int⟩

/-- Whether the arguments have to be numbers. -/
def wantsNumbers : Intrinsic → Bool
  | sqrt | sin | cos | exp | ln | hypot | max | min | abs => true
  | bytes | codepoints => false

end Intrinsic

namespace Library

/-- The constants, with their numbers. -/
def constants : List Var := [⟨0, "π", .readOnly, .float⟩, ⟨1, "E", .readOnly, .float⟩]

/-- The function behind an intrinsic, under a given number. -/
def intrinsic (i : Intrinsic) (id : Nat) : Func := ⟨id, i.spelling, .intrinsic i.signature⟩

/-- Prints its arguments, as many as there are. -/
def raise : Func := ⟨13, "raise", .variadic .any⟩

/-- The entities of the library, each with its name, in library order. -/
def bindings : List (String × Entity) :=
  constants.map (fun v => (v.name, .var v)) ++
  (Intrinsic.all.zipIdx constants.length).map
    (fun (i, id) => (i.spelling, .func (intrinsic i id))) ++
  [(raise.name, .func raise)]

/-- How many entities the library has. -/
def size : Nat := bindings.length

/-- What the library binds to a name. -/
def get? (name : String) : Option Entity := bindings.lookup name

end Library

/-- The intrinsic that a call of the function amounts to. Only a function of the machine can be
one. -/
def Func.intrinsic? (f : Func) : Option Intrinsic :=
  if f.isIntrinsic then Intrinsic.ofSpelling? f.name else none

end Croupier
