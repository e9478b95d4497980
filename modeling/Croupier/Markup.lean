/-!
# Coloured text

A text is a list of pieces, some of which have a colour. It can be shown plain, which drops the
colours, or for a terminal, which puts each coloured piece between a sequence that switches its
colour on and one that switches all colours off.
-/

namespace Croupier

/-- The colours of a terminal that listings use. -/
inductive Colour where
  | green
  | yellow
  | blue
  | magenta
  | cyan
  | white
deriving DecidableEq

/-- The number of a colour in the terminal's sequences. -/
def Colour.code : Colour → String
  | green => "32"
  | yellow => "33"
  | blue => "34"
  | magenta => "35"
  | cyan => "36"
  | white => "37"

/-- A stretch of text in one colour, or in none. -/
structure Piece where
  colour : Option Colour
  text : String

/-- A text with colours. -/
abbrev Markup := List Piece

namespace Markup

/-- Text without a colour. -/
def plain (text : String) : Markup := [⟨none, text⟩]

/-- Text in a colour. -/
def coloured (colour : Colour) (text : String) : Markup := [⟨some colour, text⟩]

/-- Texts with a plain text between each two. -/
def joined (separator : String) : List Markup → Markup
  | [] => []
  | [m] => m
  | m :: ms => m ++ plain separator ++ joined separator ms

/-- The sequence that switches a colour on. -/
def switchOn (colour : Colour) : List Char := '\x1b' :: '[' :: (colour.code ++ "m").toList

/-- The sequence that switches all colours off. -/
def switchOff : List Char := ['\x1b', '[', '0', 'm']

/-- Switches a colour on again wherever a text switches all colours off. -/
def reassert (colour : Colour) : List Char → List Char
  | '\x1b' :: '[' :: '0' :: 'm' :: rest => switchOff ++ switchOn colour ++ reassert colour rest
  | c :: rest => c :: reassert colour rest
  | [] => []

/-- A piece as a terminal needs it. -/
def terminal (piece : Piece) : List Char :=
  match piece.colour with
  | none => piece.text.toList
  | some colour => switchOn colour ++ reassert colour piece.text.toList ++ switchOff

/-- A text without its colours. -/
def toPlain (m : Markup) : String := String.ofList (m.flatMap (·.text.toList))

/-- A text as a terminal needs it. -/
def toTerminal (m : Markup) : String := String.ofList (m.flatMap terminal)

theorem toPlain_append (m n : Markup) : toPlain (m ++ n) = toPlain m ++ toPlain n := by
  simp [toPlain]

theorem toTerminal_append (m n : Markup) : toTerminal (m ++ n) = toTerminal m ++ toTerminal n := by
  simp [toTerminal]

end Markup

end Croupier
