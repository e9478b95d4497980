import Croupier.Proofs.Nodes
import Croupier.Program.Listing

/-!
# Colours leave the text alone

A terminal takes its input for characters to show, except where the input has a sequence that
switches a colour on or all colours off. A listing for a terminal is meant to show the plain
listing, whatever stands in the program. Two things could spoil that: text that a terminal takes
for a sequence, or for a part of one, and a sequence that it does not take for one.

Every sequence starts with the escape character and has no other, so both are out of the question
once no piece of the listing has that character itself (`Markup.Legible`). Numbers, types and the
words of the language never have it, and strings are quoted with it written by its code point.
What is left are names, which are shown as they are:

> `Program.legible_listing`: a listing is legible exactly when the names in the program are.

`Markup.signs` is what a terminal takes its input for, `Markup.withoutSwitches` what it shows of
it and `Markup.switches` what it obeys. Which number a colour has, and what becomes of text that has
the escape character itself, is left to a `Markup.Painter`; `Markup.terminal` is one of them.

> `Program.listing_unpainted`: of a listing in colours, whoever painted it, a terminal shows the
> plain listing, and the switches it obeys are those around the coloured pieces.
-/

namespace Croupier

namespace Markup

/-! ### Reading as a terminal does -/

/-- What a terminal takes a stretch of its input for. -/
inductive Sign where
  | glyph (c : Char)
  | switch (code : String)

/-- A switch as it is written. -/
def sequence (code : String) : List Char := '\x1b' :: '[' :: (code ++ "m").toList

/-- The switch that a text starts with, and the text behind it. The code of a switch has two digits
or is a zero. -/
def sequence? : List Char → Option (String × List Char)
  | '\x1b' :: '[' :: '0' :: 'm' :: rest => some ("0", rest)
  | '\x1b' :: '[' :: d :: e :: 'm' :: rest =>
    if d.isDigit && e.isDigit then some (String.ofList [d, e], rest) else none
  | _ => none

/-- What is read as a control sequence is one, written in front of what is left. -/
theorem eq_of_sequence? {text rest : List Char} {code : String}
    (h : sequence? text = some (code, rest)) : text = sequence code ++ rest := by
  unfold sequence? at h
  split at h
  next => cases h; rfl
  next =>
    split at h
    next => cases h; simp [sequence]
    next => cases h
  next => cases h

/-- A text that does not start with the escape character does not start with a switch. -/
theorem sequence?_of_ne {c : Char} (h : c ≠ '\x1b') (rest : List Char) :
    sequence? (c :: rest) = none := by
  cases hfound : sequence? (c :: rest) with
  | none => rfl
  | some found =>
    obtain ⟨code, behind⟩ := found
    exact absurd (List.cons.inj (eq_of_sequence? hfound)).1 h

/-- A text, read from the left: wherever a switch starts it is read as a whole, and any other
character by itself. -/
def signs (text : List Char) : List Sign :=
  match text with
  | [] => []
  | c :: rest =>
    match _h : sequence? (c :: rest) with
    | some (code, behind) => .switch code :: signs behind
    | none => .glyph c :: signs rest
termination_by text.length
decreasing_by
  · rw [eq_of_sequence? _h]
    simp [sequence]
    omega
  · simp

def Sign.glyph? : Sign → Option Char
  | glyph c => some c
  | switch _ => none

def Sign.code? : Sign → Option String
  | glyph _ => none
  | switch code => some code

/-- A text with all its switches deleted. -/
def withoutSwitches (text : String) : String :=
  String.ofList ((signs text.toList).filterMap Sign.glyph?)

/-- The codes of the switches in a text. -/
def switches (text : String) : List String := (signs text.toList).filterMap Sign.code?

@[simp]
theorem signs_nil : signs [] = [] := by
  rw [signs]

/-- A text that begins with a control sequence begins with a switch. -/
theorem signs_of_sequence? {text rest : List Char} {code : String}
    (h : sequence? text = some (code, rest)) : signs text = .switch code :: signs rest := by
  cases text with
  | nil => cases h
  | cons c text =>
    rw [signs]
    split
    next code' behind hfound =>
      rw [h] at hfound
      cases hfound
      rfl
    next hnone =>
      rw [h] at hnone
      cases hnone

/-- Any other character than the escape character is a glyph. -/
theorem signs_cons_of_ne {c : Char} (h : c ≠ '\x1b') (rest : List Char) :
    signs (c :: rest) = .glyph c :: signs rest := by
  have hnone := sequence?_of_ne h rest
  rw [signs]
  split
  next hfound =>
    rw [hnone] at hfound
    cases hfound
  next => rfl

/-- Text without an escape character is shown as it is, whatever comes after it. -/
theorem signs_append_of_not_mem {text : List Char} (h : '\x1b' ∉ text) (rest : List Char) :
    signs (text ++ rest) = text.map .glyph ++ signs rest := by
  induction text with
  | nil => rfl
  | cons c text ih =>
    rw [List.cons_append, signs_cons_of_ne (List.ne_of_not_mem_cons h).symm,
      ih (List.not_mem_of_not_mem_cons h)]
    rfl

/-- A code of two digits. -/
def TwoDigits (code : String) : Prop :=
  ∃ d e : Char, d.isDigit = true ∧ e.isDigit = true ∧ code = String.ofList [d, e]

/-- A control sequence with a code of two digits is read as a switch, whatever follows it. -/
theorem signs_sequence {code : String} (h : TwoDigits code) (rest : List Char) :
    signs (sequence code ++ rest) = .switch code :: signs rest := by
  obtain ⟨d, e, hd, he, rfl⟩ := h
  have hwritten : sequence (String.ofList [d, e]) ++ rest =
      '\x1b' :: '[' :: d :: e :: 'm' :: rest := by
    simp [sequence]
  have hzero : e ≠ 'm' := by
    rintro rfl
    exact absurd he (by decide)
  apply signs_of_sequence?
  rw [hwritten, sequence?]
  · simp [hd, he]
  · intro rest' hcodes
    simp [hzero] at hcodes

/-- So is the sequence that switches colours off. -/
theorem signs_sequence_zero (rest : List Char) :
    signs (sequence "0" ++ rest) = .switch "0" :: signs rest :=
  signs_of_sequence? rfl

/-! ### Legible texts -/

/-- No piece has the escape character in its text. -/
def Legible (m : Markup) : Prop := ∀ piece ∈ m, '\x1b' ∉ piece.text.toList

@[simp]
theorem legible_nil : Legible [] := by
  simp [Legible]

/-- A text in two parts is legible if both parts are. -/
@[simp]
theorem legible_append {m n : Markup} : Legible (m ++ n) ↔ Legible m ∧ Legible n :=
  List.forall_mem_append

@[simp]
theorem legible_plain {text : String} : Legible (plain text) ↔ '\x1b' ∉ text.toList := by
  simp [Legible, plain]

@[simp]
theorem legible_coloured {colour : Colour} {text : String} :
    Legible (coloured colour text) ↔ '\x1b' ∉ text.toList := by
  simp [Legible, coloured]

/-- Pieces that are joined are legible if each of them is, given that the separator is. -/
theorem legible_joined {separator : String} (h : '\x1b' ∉ separator.toList) {ms : List Markup} :
    Legible (joined separator ms) ↔ ∀ m ∈ ms, Legible m := by
  induction ms using joined.induct with
  | case1 => simp [joined]
  | case2 m => simp [joined]
  | case3 m ms _ ih => simp [joined, ih, h]

/-! ### Painters -/

/-- A way to write pieces for a terminal. Text without a colour is written as it is, and text in a
colour between the switch to this colour and the switch to no colour. How text with the escape
character is written is left open. -/
structure Painter where
  /-- The number of a colour. -/
  code : Colour → String
  /-- A piece as it is written. -/
  paint : Piece → List Char
  code_twoDigits : ∀ colour, TwoDigits (code colour)
  paint_plain : ∀ text : String, '\x1b' ∉ text.toList → paint ⟨none, text⟩ = text.toList
  paint_coloured : ∀ (colour : Colour) (text : String), '\x1b' ∉ text.toList →
    paint ⟨some colour, text⟩ = sequence (code colour) ++ text.toList ++ sequence "0"

/-- Characters that stand for themselves are read back. -/
theorem glyphs_map_glyph (text : List Char) :
    (text.map Sign.glyph).filterMap Sign.glyph? = text := by
  induction text with
  | nil => rfl
  | cons c text ih => exact congrArg (c :: ·) ih

namespace Painter

/-- A text as it is written, piece by piece. -/
def painted (painter : Painter) (m : Markup) : String := String.ofList (m.flatMap painter.paint)

/-- What a terminal takes a piece for. -/
def signs (painter : Painter) (piece : Piece) : List Sign :=
  match piece.colour with
  | none => piece.text.toList.map .glyph
  | some colour => .switch (painter.code colour) :: piece.text.toList.map .glyph ++ [.switch "0"]

/-- The codes of the switches around a piece. -/
def switches (painter : Painter) (piece : Piece) : List String :=
  match piece.colour with
  | none => []
  | some colour => [painter.code colour, "0"]

variable (painter : Painter)

/-- Leaving the switches out of what a painter writes leaves the text of the piece. -/
theorem glyphs_signs (piece : Piece) :
    (painter.signs piece).filterMap Sign.glyph? = piece.text.toList := by
  obtain ⟨colour, text⟩ := piece
  cases colour with
  | none => exact glyphs_map_glyph text.toList
  | some colour =>
    show List.filterMap Sign.glyph? (text.toList.map .glyph ++ [.switch "0"]) = text.toList
    rw [List.filterMap_append, glyphs_map_glyph]
    exact List.append_nil _

/-- The switches in what a painter writes are the ones that it says it makes. -/
theorem codes_signs (piece : Piece) :
    (painter.signs piece).filterMap Sign.code? = painter.switches piece := by
  obtain ⟨colour, text⟩ := piece
  cases colour with
  | none => simp [signs, switches, Sign.code?]
  | some colour => simp [signs, switches, Sign.code?]

/-- A legible piece is taken for what it is, whatever comes after it. -/
theorem signs_paint_append {piece : Piece} (h : '\x1b' ∉ piece.text.toList) (rest : List Char) :
    Markup.signs (painter.paint piece ++ rest) = painter.signs piece ++ Markup.signs rest := by
  obtain ⟨colour, text⟩ := piece
  cases colour with
  | none =>
    rw [painter.paint_plain text h]
    exact signs_append_of_not_mem h rest
  | some colour =>
    -- From the left: the switch to the colour, the text, the switch to no colour.
    rw [painter.paint_coloured colour text h, List.append_assoc, List.append_assoc,
      signs_sequence (painter.code_twoDigits colour), signs_append_of_not_mem h,
      signs_sequence_zero]
    simp [signs]

/-- And so is a legible text, piece by piece. -/
theorem signs_painted {m : Markup} (h : m.Legible) :
    Markup.signs (painter.painted m).toList = m.flatMap painter.signs := by
  simp only [painted, String.toList_ofList]
  induction m with
  | nil => simp
  | cons piece m ih =>
    obtain ⟨hpiece, hm⟩ := List.forall_mem_cons.mp h
    rw [List.flatMap_cons, List.flatMap_cons, painter.signs_paint_append hpiece, ih hm]

/-- Deleting the switches from a legible text leaves the plain text. -/
theorem withoutSwitches_painted {m : Markup} (h : m.Legible) :
    withoutSwitches (painter.painted m) = m.toPlain := by
  rw [withoutSwitches, painter.signs_painted h, List.filterMap_flatMap]
  simp only [glyphs_signs, toPlain]

/-- The switches in a legible text are those around its coloured pieces. -/
theorem switches_painted {m : Markup} (h : m.Legible) :
    Markup.switches (painter.painted m) = m.flatMap painter.switches := by
  rw [Markup.switches, painter.signs_painted h, List.filterMap_flatMap]
  simp only [codes_signs]

end Painter

/-- Text without an escape character gives no reason to switch a colour on again. -/
theorem reassert_of_not_mem (colour : Colour) {text : List Char} (h : '\x1b' ∉ text) :
    reassert colour text = text := by
  induction text with
  | nil => rfl
  | cons c text ih =>
    rw [reassert, ih (List.not_mem_of_not_mem_cons h)]
    rintro rest rfl
    exact absurd rfl (List.ne_of_not_mem_cons h)

/-- The codes of the usual colours have two digits. -/
theorem code_twoDigits (colour : Colour) : TwoDigits colour.code := by
  cases colour <;> exact ⟨_, _, by decide, by decide, rfl⟩

/-- The painter of listings, with the usual numbers for the colours. -/
def usualPainter : Painter where
  code := Colour.code
  paint := terminal
  code_twoDigits := code_twoDigits
  paint_plain _ _ := rfl
  paint_coloured colour text h := by
    show switchOn colour ++ reassert colour text.toList ++ switchOff = _
    rw [reassert_of_not_mem colour h]
    rfl

/-- A legible text has no escape character. -/
theorem escape_not_mem_toPlain {m : Markup} (h : m.Legible) : '\x1b' ∉ m.toPlain.toList := by
  simpa [toPlain, Legible] using h

end Markup

/-! ### What is always legible -/

/-- Digits are no escape characters, in any base that has more than one. -/
theorem Text.escape_not_mem_toDigits {base : Nat} (hbase : 1 < base) (n : Nat) :
    '\x1b' ∉ Nat.toDigits base n := by
  have hdigit (d : Nat) : '\x1b' ≠ d.digitChar := (Nat.digitChar_ne '\x1b' rfl).symm
  induction n using Nat.strongRecOn with
  | ind n ih =>
    rcases Nat.lt_or_ge n base with hlt | hge
    · simp [Nat.toDigits_of_lt_base hlt, hdigit]
    · have hrest := ih (n / base) (Nat.div_lt_self (by omega) hbase)
      simp [Nat.toDigits_of_base_le hbase hge, hdigit, hrest]

/-- Neither is anything in an integer. -/
@[simp]
theorem Text.escape_not_mem_int (n : Int) : '\x1b' ∉ n.repr.toList := by
  cases n with
  | ofNat n =>
    show '\x1b' ∉ (Nat.repr n).toList
    simp [Nat.repr_eq_ofList_toDigits, escape_not_mem_toDigits]
  | negSucc n =>
    show '\x1b' ∉ ("-" ++ Nat.repr (n + 1)).toList
    simp [Nat.repr_eq_ofList_toDigits, escape_not_mem_toDigits]

/-- The escape character is one of those that are written by their code points. -/
theorem Text.escape_not_mem_quoteChar (c : Char) : '\x1b' ∉ quoteChar c := by
  have hcode : '\x1b' ∉ escapeCode c := by simp [escapeCode, hexCode, escape_not_mem_toDigits]
  have hself (h : ¬ isElusive c) : '\x1b' ≠ c := by
    rintro rfl
    exact h (by decide)
  unfold quoteChar
  -- Six characters have letters or signs of their own.
  iterate 6
    split
    · decide
  split
  next => exact hcode
  next h => simpa using hself h

/-- A quoted text writes the escape character out, so that it is not there as such. -/
@[simp]
theorem Text.escape_not_mem_quoted (text : String) : '\x1b' ∉ (quoted text).toList := by
  simp [quoted, escape_not_mem_quoteChar]

namespace Decimal

/-- The significant digits of a number are digits. -/
theorem escape_not_mem_significant (digits : Nat) : '\x1b' ∉ significant digits := by
  intro h
  have hmem := (List.dropWhile_sublist _).subset (List.mem_reverse.mp h)
  exact Text.escape_not_mem_toDigits (by decide) digits (List.mem_reverse.mp hmem)

/-- An integer is written with digits and perhaps a sign. -/
theorem escape_not_mem_intText (n : Int) : '\x1b' ∉ intText n := by
  unfold intText
  split <;> simp [Text.escape_not_mem_toDigits]

namespace Layout

/-- The marks of a layout are free of the escape character. -/
structure Legible (layout : Layout) : Prop where
  wholeMark : '\x1b' ∉ layout.wholeMark
  exponentMark : '\x1b' ∉ layout.exponentMark
  infinity : '\x1b' ∉ layout.infinity
  notANumber : '\x1b' ∉ layout.notANumber

variable {layout : Layout} (hlayout : layout.Legible)
include hlayout

/-- Digits with a point between them are legible if the digits are. -/
theorem escape_not_mem_positional {digits : List Char} (h : '\x1b' ∉ digits) (e : Int) :
    '\x1b' ∉ layout.positional digits e := by
  unfold positional
  dsimp only
  split
  · simp [h, List.mem_replicate]
  · split
    · simp [h, hlayout.wholeMark, List.mem_replicate]
    · have htake : '\x1b' ∉ digits.take (e.toNat + 1) := mt List.mem_of_mem_take h
      have hdrop : '\x1b' ∉ digits.drop (e.toNat + 1) := mt List.mem_of_mem_drop h
      simp [htake, hdrop]

/-- Digits with an exponent are legible if the digits are. -/
theorem escape_not_mem_scientific {digits : List Char} (h : '\x1b' ∉ digits) (e : Int) :
    '\x1b' ∉ layout.scientific digits e := by
  unfold scientific
  dsimp only
  split
  next => simpa [hlayout.exponentMark, escape_not_mem_intText] using h
  next => simp [h, hlayout.exponentMark, escape_not_mem_intText]

/-- A decimal is legible in any layout that is. -/
theorem escape_not_mem_decimal (d : Scaled) : '\x1b' ∉ layout.decimal d := by
  unfold decimal
  dsimp only
  split
  · exact escape_not_mem_positional hlayout (escape_not_mem_significant _) _
  · exact escape_not_mem_scientific hlayout (escape_not_mem_significant _) _

/-- So is a float, finite or not. -/
theorem escape_not_mem_float (x : Float) : '\x1b' ∉ (layout.float x).toList := by
  unfold float
  split
  next f _ =>
    have hmagnitude : '\x1b' ∉ (if f.mantissa = 0 then '0' :: layout.wholeMark
        else layout.decimal (shortest f.mantissa f.exponent)) := by
      split
      · simp [hlayout.wholeMark]
      · exact escape_not_mem_decimal hlayout _
    dsimp only
    split <;> simp [hmagnitude]
  next =>
    rw [String.toList_ofList]
    split
    · exact hlayout.notANumber
    · split <;> simp [hlayout.infinity]

end Layout

end Decimal

/-- Texts that are put together with a separator have the escape character only if one of the parts
has. -/
theorem Text.escape_not_mem_intercalate {separator : List Char} (h : '\x1b' ∉ separator)
    {texts : List (List Char)} (htexts : ∀ text ∈ texts, '\x1b' ∉ text) :
    '\x1b' ∉ separator.intercalate texts := by
  induction texts with
  | nil => simp
  | cons text texts ih =>
    obtain ⟨htext, hrest⟩ := List.forall_mem_cons.mp htexts
    cases texts with
    | nil => simpa using htext
    | cons next texts =>
      rw [List.intercalate_cons_cons]
      simp [h, htext, ih hrest]

mutual

/-- The text of a type has no escape character. -/
@[simp]
theorem Ty.escape_not_mem_text (t : Ty) : '\x1b' ∉ t.text.toList := by
  match t with
  | .prim p => cases p <;> decide
  | .array t => simp [Ty.text, t.escape_not_mem_text]
  | .func ps r =>
    have hparams : '\x1b' ∉ [',', ' '].intercalate ((Ty.texts ps).map String.toList) :=
      Text.escape_not_mem_intercalate (by decide) (Ty.escape_not_mem_texts ps)
    simp [Ty.text, hparams, r.escape_not_mem_text]
  | .union ms =>
    rw [Ty.text, String.toList_intercalate]
    exact Text.escape_not_mem_intercalate (by decide) (Ty.escape_not_mem_texts ms)

theorem Ty.escape_not_mem_texts (ts : List Ty) :
    ∀ text ∈ (Ty.texts ts).map String.toList, '\x1b' ∉ text := by
  match ts with
  | [] => simp [Ty.texts]
  | t :: ts => exact List.forall_mem_cons.mpr ⟨t.escape_not_mem_text, Ty.escape_not_mem_texts ts⟩

end

/-- No operator is spelled with the escape character. -/
@[simp]
theorem BinaryOperator.escape_not_mem_spelling (op : BinaryOperator) :
    '\x1b' ∉ op.spelling.toList := by
  cases op <;> decide

@[simp]
theorem UnaryOperator.escape_not_mem_spelling (op : UnaryOperator) :
    '\x1b' ∉ op.spelling.toList := by
  cases op <;> decide

@[simp]
theorem BumpOperator.escape_not_mem_spelling (op : BumpOperator) :
    '\x1b' ∉ op.spelling.toList := by
  cases op <;> decide

/-- No intrinsic is spelled with the escape character. -/
@[simp]
theorem Intrinsic.escape_not_mem_spelling (i : Intrinsic) : '\x1b' ∉ i.spelling.toList := by
  cases i <;> decide

@[simp]
theorem Direction.escape_not_mem_spelling (direction : Direction) :
    '\x1b' ∉ direction.spelling.toList := by
  cases direction <;> decide

/-! ### Names -/

/-- The names that stand at a node, its parts left aside. -/
def Node.names : Node → List String
  | .expr (.var v) => [v.name]
  | .expr (.func f) | .expr (.call f _ _) => [f.name]
  | .expr (.object members) => members.map Prod.fst
  | .expr (.member _ field _) => [field]
  | .stmt (.declareVar v _) | .stmt (.forEach v _ _) | .stmt (.forTurn v _ _ _ _ _) => [v.name]
  | .stmt (.declareFunc f _) => f.name :: f.params.map Var.name
  | .expr _ | .stmt _ => []

/-- All names in a program: of variables and functions, where they are declared and where they
are mentioned or called, and of the members of objects. -/
def Program.names (p : Program) : List String := p.nodes.flatMap Node.names

/-- No name at the nodes has the escape character. -/
def LegiblyNamed (nodes : List Node) : Prop :=
  ∀ name ∈ nodes.flatMap Node.names, '\x1b' ∉ name.toList

@[simp]
theorem legiblyNamed_nil : LegiblyNamed [] := by
  simp [LegiblyNamed]

/-- Nodes are legibly named if the first one is and the others are. -/
@[simp]
theorem legiblyNamed_cons {x : Node} {xs : List Node} :
    LegiblyNamed (x :: xs) ↔ (∀ name ∈ x.names, '\x1b' ∉ name.toList) ∧ LegiblyNamed xs := by
  rw [LegiblyNamed, List.flatMap_cons, List.forall_mem_append]
  rfl

/-- Nodes in two parts are legibly named if both parts are. -/
@[simp]
theorem legiblyNamed_append {xs ys : List Node} :
    LegiblyNamed (xs ++ ys) ↔ LegiblyNamed xs ∧ LegiblyNamed ys := by
  rw [LegiblyNamed, List.flatMap_append, List.forall_mem_append]
  rfl

/-! ### Listings -/

namespace Listing

open Markup

theorem legible_floatLayout : floatLayout.Legible := by
  constructor <;> decide

@[simp]
theorem legible_keyword {word : String} : (keyword word).Legible ↔ '\x1b' ∉ word.toList :=
  legible_coloured

@[simp]
theorem legible_punctuation {mark : String} :
    (punctuation mark).Legible ↔ '\x1b' ∉ mark.toList :=
  legible_coloured

@[simp]
theorem legible_name {text : String} : (name text).Legible ↔ '\x1b' ∉ text.toList :=
  legible_coloured

@[simp]
theorem legible_number {text : String} : (number text).Legible ↔ '\x1b' ∉ text.toList :=
  legible_coloured

@[simp]
theorem legible_builtin {word : String} : (builtin word).Legible ↔ '\x1b' ∉ word.toList :=
  legible_coloured

/-- A type is always legible. -/
@[simp]
theorem legible_typeText (ty : Ty) : (typeText ty).Legible :=
  legible_coloured.mpr ty.escape_not_mem_text

/-- Indenting a line does not make it less legible. -/
@[simp]
theorem legible_line {depth : Nat} {content : Markup} :
    (line depth content).Legible ↔ content.Legible := by
  simp [line, indent, List.mem_replicate]

/-- Parts with spaces between them are legible if each of them is. -/
@[simp]
theorem legible_spaced {parts : List Markup} : (spaced parts).Legible ↔ ∀ m ∈ parts, m.Legible :=
  legible_joined (by decide)

/-- A binding is as legible as the name of its variable. -/
@[simp]
theorem legible_binding {v : Var} : (binding v).Legible ↔ '\x1b' ∉ v.name.toList := by
  simp [binding]

end Listing

open Markup Listing

mutual

/-- Around what its parts contribute, an expression shows words and marks of the language, literals
and the names that stand at it. Only the last can go wrong, so the two sides split alike. -/
theorem Expr.legible_markup (e : Expr) : e.markup.Legible ↔ LegiblyNamed e.nodes := by
  match e with
  | .int _ | .string _ | .var _ | .func _ | .emptyArray _ =>
    simp [Expr.markup, Expr.nodes, Node.names]
  | .float x =>
    simp [Expr.markup, Expr.nodes, Node.names,
      Decimal.Layout.escape_not_mem_float legible_floatLayout x]
  | .bool b => cases b <;> simp [Expr.markup, Expr.nodes, Node.names]
  | .array items _ =>
    simp [Expr.markup, Expr.nodes, Node.names, legible_joined, Expr.legible_markups items]
  | .object members =>
    simp [Expr.markup, Expr.nodes, Node.names, legible_joined, Expr.legible_memberMarkups members]
  | .binary (.operator _) left right _ =>
    simp [Expr.markup, Expr.nodes, Node.names, left.legible_markup, right.legible_markup]
  | .binary (.intrinsic _) left right _ =>
    simp [Expr.markup, Expr.nodes, Node.names, legible_joined, left.legible_markup,
      right.legible_markup]
  | .unary (.operator _) operand _ | .unary (.intrinsic _) operand _ =>
    simp [Expr.markup, Expr.nodes, Node.names, operand.legible_markup]
  | .subscript base index _ =>
    simp [Expr.markup, Expr.nodes, Node.names, base.legible_markup, index.legible_markup]
  | .member base _ _ =>
    simp [Expr.markup, Expr.nodes, Node.names, base.legible_markup, and_comm]
  | .call _ args _ =>
    simp [Expr.markup, Expr.nodes, Node.names, legible_joined, Expr.legible_markups args]

theorem Expr.legible_markups (es : List Expr) :
    (∀ m ∈ Expr.markups es, m.Legible) ↔ LegiblyNamed (Expr.nodesList es) := by
  match es with
  | [] => simp [Expr.markups, Expr.nodesList]
  | e :: es =>
    rw [Expr.markups, Expr.nodesList, List.forall_mem_cons, legiblyNamed_append, e.legible_markup,
      Expr.legible_markups es]

/-- The keys are names at the object itself, what they stand for has names at nodes of its own. -/
theorem Expr.legible_memberMarkups (members : List (String × Expr)) :
    (∀ m ∈ Expr.memberMarkups members, m.Legible) ↔
      (∀ key ∈ members.map Prod.fst, '\x1b' ∉ key.toList) ∧
        LegiblyNamed (Expr.nodesMembers members) := by
  match members with
  | [] => simp [Expr.memberMarkups, Expr.nodesMembers]
  | (key, e) :: members =>
    have hmember : (plain key ++ plain ": " ++ e.markup).Legible ↔
        '\x1b' ∉ key.toList ∧ LegiblyNamed e.nodes := by
      simp [e.legible_markup]
    rw [Expr.memberMarkups, Expr.nodesMembers, List.forall_mem_cons, hmember,
      Expr.legible_memberMarkups members, List.map_cons, List.forall_mem_cons, legiblyNamed_append]
    exact and_and_and_comm

end

mutual

/-- A statement is listed legibly exactly if all names in it are legible. -/
theorem Stmt.legible_markup (returns : Returns) (depth : Nat) (s : Stmt) :
    (s.markup returns depth).Legible ↔ LegiblyNamed s.nodes := by
  match s with
  | .declareVar v init =>
    have hkeyword : '\x1b' ∉ (if v.access = .constant then "all in" else "hand").toList := by
      split <;> decide
    simp [Stmt.markup, Stmt.nodes, Node.names, hkeyword, init.legible_markup]
  | .declareFunc _ body =>
    simp [Stmt.markup, Stmt.nodes, Node.names, legible_joined,
      Stmt.legible_markups returns (depth + 1) body]
  | .assign target source =>
    simp [Stmt.markup, Stmt.nodes, Node.names, target.legible_markup, source.legible_markup]
  | .bump _ e | .call e | .returnValue e =>
    simp [Stmt.markup, Stmt.nodes, Node.names, e.legible_markup]
  | .breakLoop | .returnNone => simp [Stmt.markup, Stmt.nodes, Node.names]
  | .branch test body orElse =>
    simp [Stmt.markup, Stmt.nodes, Node.names, test.legible_markup,
      Stmt.legible_markups returns (depth + 1) body, Else.legible_markup returns depth orElse]
  | .shortBranch test body | .whileLoop test body =>
    simp [Stmt.markup, Stmt.nodes, Node.names, test.legible_markup,
      Stmt.legible_markups returns (depth + 1) body]
  | .forEach _ collection body =>
    simp [Stmt.markup, Stmt.nodes, Node.names, collection.legible_markup,
      Stmt.legible_markups returns (depth + 1) body, and_assoc]
  | .forTurn _ low high step _ body =>
    simp [Stmt.markup, Stmt.nodes, Node.names, legible_joined, low.legible_markup,
      high.legible_markup, step.legible_markup, Stmt.legible_markups returns (depth + 1) body,
      and_assoc]

theorem Else.legible_markup (returns : Returns) (depth : Nat) (orElse : Else) :
    (orElse.markup returns depth).Legible ↔ LegiblyNamed orElse.nodes := by
  match orElse with
  | .elseIf test body orElse =>
    simp [Else.markup, Else.nodes, Node.names, test.legible_markup,
      Stmt.legible_markups returns (depth + 1) body, Else.legible_markup returns depth orElse]
  | .block [] => simp [Else.markup, Else.nodes, Stmt.nodesList]
  | .block (s :: ss) =>
    simp [Else.markup, Else.nodes, Stmt.legible_markups returns (depth + 1) (s :: ss)]

/-- The lines of a block are legible exactly when the names in it are, at any depth of nesting and
whatever results have been settled. -/
theorem Stmt.legible_markups (returns : Returns) (depth : Nat) (ss : List Stmt) :
    (Stmt.markups returns depth ss).Legible ↔ LegiblyNamed (Stmt.nodesList ss) := by
  match ss with
  | [] => simp [Stmt.markups, Stmt.nodesList]
  | s :: ss =>
    simp [Stmt.markups, Stmt.nodesList, Stmt.legible_markup returns depth s,
      Stmt.legible_markups returns depth ss]

end

/-- Names are the only part of a program that can make its listing illegible. -/
theorem Program.legible_listing (p : Program) :
    p.listing.Legible ↔ ∀ name ∈ p.names, '\x1b' ∉ name.toList :=
  Stmt.legible_markups p.returns 0 p.body

/-- If no name in a program has the escape character, deleting the switches from its listing gives
its plain listing, whoever painted it. What is deleted are, for each piece in a colour, the switch
to this colour in front of it and the switch to no colour behind it; and no escape character is
left. -/
theorem Program.listing_unpainted (painter : Painter) (p : Program)
    (h : ∀ name ∈ p.names, '\x1b' ∉ name.toList) :
    withoutSwitches (painter.painted p.listing) = p.listing.toPlain ∧
      Markup.switches (painter.painted p.listing) = p.listing.flatMap painter.switches ∧
      '\x1b' ∉ p.listing.toPlain.toList := by
  have hlegible : p.listing.Legible := p.legible_listing.mpr h
  exact ⟨painter.withoutSwitches_painted hlegible, painter.switches_painted hlegible,
    escape_not_mem_toPlain hlegible⟩

/-- The codes of the switches around a piece in a listing. -/
def Piece.switches (piece : Piece) : List String :=
  match piece.colour with
  | none => []
  | some colour => [colour.code, "0"]

/-- If no name in a program has the escape character, deleting the switches from its listing in
colours gives its plain listing. What is deleted are, for each piece in a colour, the switch to
this colour in front of it and the switch to no colour behind it; and no escape character is
left. -/
theorem Program.listing_uncoloured (p : Program)
    (h : ∀ name ∈ p.names, '\x1b' ∉ name.toList) :
    withoutSwitches p.listing.toTerminal = p.listing.toPlain ∧
      switches p.listing.toTerminal = p.listing.flatMap Piece.switches ∧
      '\x1b' ∉ p.listing.toPlain.toList := by
  exact p.listing_unpainted usualPainter h

namespace Disguise

/-- A variable with the name `[0m`, which is a switch but for the escape character. -/
def masked : Var := ⟨14, "[0m", .constant, .any⟩

/-- A declaration full of text that looks like switches, a string with a real one among it. -/
def program : Program :=
  ⟨[.declareVar masked (.object [("[35m", .string "\x1b[0m"),
    ("m", .member (.var masked) "35m" .any)])], []⟩

/-- All of it is shown, the string with its escape character spelled out. -/
theorem listing_uncoloured_disguise : (∀ name ∈ program.names, '\x1b' ∉ name.toList) ∧
    withoutSwitches program.listing.toTerminal =
      "all in [0m: any = \x7b[35m: \"\\u\x7b1b\x7d[0m\", m: [0m.35m\x7d\n" ∧
    switches program.listing.toTerminal =
      ["35", "0", "34", "0", "37", "0", "33", "0", "37", "0", "32", "0", "34", "0"] := by
  have hnames : ∀ name ∈ program.names, '\x1b' ∉ name.toList := by decide
  obtain ⟨htext, hswitches, _⟩ := program.listing_uncoloured hnames
  refine ⟨hnames, htext.trans ?_, hswitches.trans ?_⟩
  · decide +kernel
  · decide +kernel

end Disguise

end Croupier
