import Croupier.Proofs.Occurrences

/-!
# Literals stay small

Operations on literals are carried out exactly, and the results feed further operations, so
literals grow in the course of a pass: a sum takes one binary digit more than its summands do, a
product as many as its factors do together, and a power may take any number. Only powers that take
at most `powerLimit` digits are carried out, though. Each operation thus adds a bounded number of
digits to those of its operands, and it does so once, as nothing is left of it then. So there is a
bound for whole programs, however deep the operations are nested.

The digits of an integer are those of its magnitude. `Within` compares what is left of a list of
nodes with what there was.

> `Program.literalBits_simplify`: a pass adds at most 4096 binary digits for each operation in a
> program, and no power that is carried out takes more digits than that.
-/

namespace Croupier

/-! ### Binary digits -/

/-- The binary digits of a number are the least that it can be written with. -/
theorem bitLength_le_iff {n k : Nat} : bitLength n ≤ k ↔ n < Nat.pow 2 k := by
  unfold bitLength
  by_cases hn : n = 0
  · rw [if_pos hn, hn]
    exact ⟨fun _ => Nat.two_pow_pos k, fun _ => Nat.zero_le k⟩
  · rw [if_neg hn]
    exact Nat.log2_lt hn

/-- A number is less than the power of two with as many bits as it has. -/
theorem lt_pow_bitLength (n : Nat) : n < Nat.pow 2 (bitLength n) :=
  bitLength_le_iff.mp (Nat.le_refl _)

theorem bitLength_mono {m n : Nat} (h : m ≤ n) : bitLength m ≤ bitLength n :=
  bitLength_le_iff.mpr (Nat.lt_of_le_of_lt h (lt_pow_bitLength n))

/-- A product has at most the bits of its factors. -/
theorem bitLength_mul (m n : Nat) : bitLength (m * n) ≤ bitLength m + bitLength n := by
  have hproduct := Nat.mul_lt_mul'' (lt_pow_bitLength m) (lt_pow_bitLength n)
  have hpow := Nat.pow_add 2 (bitLength m) (bitLength n)
  exact bitLength_le_iff.mpr (Nat.lt_of_lt_of_eq hproduct hpow.symm)

/-- A sum has at most one bit more than its summands have together. -/
theorem bitLength_add (m n : Nat) : bitLength (m + n) ≤ bitLength m + bitLength n + 1 := by
  have hm := lt_pow_bitLength m
  have hn := lt_pow_bitLength n
  have hleft : Nat.pow 2 (bitLength m) ≤ Nat.pow 2 (bitLength m + bitLength n) :=
    Nat.pow_le_pow_right Nat.two_pos (Nat.le_add_right _ _)
  have hright : Nat.pow 2 (bitLength n) ≤ Nat.pow 2 (bitLength m + bitLength n) :=
    Nat.pow_le_pow_right Nat.two_pos (Nat.le_add_left _ _)
  refine bitLength_le_iff.mpr ?_
  show m + n < Nat.pow 2 (bitLength m + bitLength n) * 2
  omega

/-- A power takes no more digits than its factors do together. -/
theorem bitLength_pow (a : Int) (k : Nat) :
    bitLength (Int.pow a (k + 1)).natAbs ≤ bitLength a.natAbs * (k + 1) := by
  induction k with
  | zero =>
    have hone : Int.pow a 1 = a := Int.pow_one a
    exact Nat.le_of_eq (by rw [Nat.zero_add, hone, Nat.mul_one])
  | succ k ih =>
    have hsucc : Int.pow a (k + 1 + 1) = Int.pow a (k + 1) * a := Int.pow_succ a (k + 1)
    have hfactor := bitLength_mul (Int.pow a (k + 1)).natAbs a.natAbs
    rw [hsucc, Int.natAbs_mul, Nat.mul_succ]
    omega

/-! ### Operations that are carried out -/

/-- A power that is computed has at most 4096 bits: longer ones are not computed. -/
theorem bitLength_intPower {a b n : Int} (h : intPower? a b = some n) :
    bitLength n.natAbs ≤ 4096 := by
  unfold intPower? at h
  split at h
  · cases h
  · split at h
    · cases h
    · split at h
      · cases h
      next hlimit =>
        cases h
        cases hexponent : b.toNat with
        | zero =>
          have hone : Int.pow a 0 = 1 := Int.pow_zero a
          rw [hone]
          decide
        | succ k =>
          have hpow := bitLength_pow a k
          rw [powerLimit_lt_powerDigits, hexponent] at hlimit
          unfold powerLimit at hlimit
          omega

/-- An integer that comes out of an operation takes at most 4096 digits more than the operands. -/
theorem BinaryOperator.foldInt_bits {op : BinaryOperator} {a b n : Int}
    (h : op.foldInt a b = some (.int n)) :
    bitLength n.natAbs ≤ bitLength a.natAbs + bitLength b.natAbs + 4096 := by
  have hsum := bitLength_add a.natAbs b.natAbs
  cases op with
  | add =>
    cases h
    have hle := bitLength_mono (Int.natAbs_add_le a b)
    omega
  | subtract =>
    cases h
    have hle := bitLength_mono (Int.natAbs_sub_le a b)
    omega
  | multiply =>
    cases h
    have hle := bitLength_mul a.natAbs b.natAbs
    rw [Int.natAbs_mul]
    omega
  | divide =>
    simp only [foldInt] at h
    split at h
    · cases h
    · cases h
      have hle := bitLength_mono (Nat.div_le_self a.natAbs b.natAbs)
      rw [Int.natAbs_tdiv]
      exact Nat.le_trans hle (by omega)
  | remainder =>
    simp only [foldInt] at h
    split at h
    · cases h
    · cases h
      have hle := bitLength_mono (Nat.mod_le a.natAbs b.natAbs)
      rw [Int.natAbs_tmod]
      omega
  | floorDivide =>
    simp only [foldInt] at h
    split at h
    · cases h
    · cases h
      have hle := bitLength_mono (Int.natAbs_fdiv_le_natAbs a b)
      omega
  | power =>
    obtain ⟨m, hm, hmn⟩ := Option.map_eq_some_iff.mp h
    cases hmn
    have hle := bitLength_intPower hm
    omega
  | equal | notEqual | less | lessOrEqual | greater | greaterOrEqual | and | or =>
    simp only [foldInt, Option.map_eq_some_iff] at h
    obtain ⟨_, _, hbool⟩ := h
    cases hbool

/-! ### Counting -/

/-- The sum of what nodes count for. -/
def tally (count : Node → Nat) : List Node → Nat
  | [] => 0
  | x :: xs => count x + tally count xs

/-- The binary digits of an integer that is written out. -/
def Node.literalBits : Node → Nat
  | .expr (.int n) => bitLength n.natAbs
  | .expr _ | .stmt _ => 0

/-- Whether a node is an operation on two operands. -/
def Node.operations : Node → Nat
  | .expr (.binary _ _ _ _) => 1
  | .expr _ | .stmt _ => 0

/-- The binary digits of all integers that are written out in a program. -/
def Program.literalBits (p : Program) : Nat := tally Node.literalBits p.nodes

/-- The number of operations on two operands in a program. -/
def Program.operations (p : Program) : Nat := tally Node.operations p.nodes

/-- Nodes in two parts have together what the parts have. -/
theorem tally_append (count : Node → Nat) (xs ys : List Node) :
    tally count (xs ++ ys) = tally count xs + tally count ys := by
  induction xs with
  | nil => exact (Nat.zero_add _).symm
  | cons x xs ih => rw [List.cons_append, tally, tally, ih, Nat.add_assoc]

/-- Leaving out nodes does not make a tally greater. -/
theorem tally_sublist (count : Node → Nat) {xs ys : List Node} (h : xs.Sublist ys) :
    tally count xs ≤ tally count ys := by
  induction h with
  | slnil => exact Nat.le_refl _
  | cons y _ ih =>
    rw [tally]
    omega
  | cons_cons y _ ih =>
    rw [tally, tally]
    omega

/-- The integers in the first nodes take at most as many digits as those in the second ones, and
4096 more for each operation there. -/
def Within (xs ys : List Node) : Prop :=
  tally Node.literalBits xs ≤ tally Node.literalBits ys + 4096 * tally Node.operations ys

namespace Within

variable {x y : Node} {xs xs' ys ys' : List Node}

theorem refl (xs : List Node) : Within xs xs := Nat.le_add_right _ _

/-- What stays within bounds part by part stays within them as a whole. -/
theorem append (h : Within xs ys) (h' : Within xs' ys') : Within (xs ++ xs') (ys ++ ys') := by
  unfold Within at h h' ⊢
  rw [tally_append, tally_append, tally_append]
  omega

/-- More nodes to start from give a wider bound. -/
theorem widen {zs : List Node} (h : Within xs ys) (hsub : ys.Sublist zs) : Within xs zs := by
  have hbits := tally_sublist Node.literalBits hsub
  have hoperations := tally_sublist Node.operations hsub
  unfold Within at h ⊢
  omega

/-- A node stays, with other parts. -/
theorem kept (h : Within xs ys) (hnode : x.literalBits ≤ y.literalBits) :
    Within (x :: xs) (y :: ys) := by
  unfold Within at h ⊢
  rw [tally, tally, tally]
  omega

/-- The bound composes over the parts of a passage. -/
theorem composes : Composes Within where
  nil := refl []
  append := append
  widen := widen
  stmt _ := (refl []).kept (Nat.le_refl 0)

end Within

/-! ### Expressions -/

/-- The binary digits of all integers that are written out in an expression. -/
def Expr.literalBits (e : Expr) : Nat := tally Node.literalBits e.nodes

theorem Expr.literalBits_int (n : Int) : (Expr.int n).literalBits = bitLength n.natAbs := rfl

/-- An operation has the bits of its operands. -/
theorem Expr.literalBits_binary (head : BinaryHead) (left right : Expr) (ty : Ty) :
    (Expr.binary head left right ty).literalBits = left.literalBits + right.literalBits := by
  rw [Expr.literalBits, Expr.nodes, tally, tally_append]
  exact Nat.zero_add _

theorem Expr.literalBits_unary (head : UnaryHead) (operand : Expr) (ty : Ty) :
    (Expr.unary head operand ty).literalBits = operand.literalBits := by
  rw [Expr.literalBits, Expr.nodes, tally]
  exact Nat.zero_add _

/-- The literal of the number that an expression is read as is the expression. -/
theorem Numeral.expr_of_ofExpr? {e : Expr} {n : Numeral} (h : Numeral.ofExpr? e = some n) :
    n.expr = e := by
  cases e <;> cases h <;> rfl

/-- Changing the sign of a number does not change its bits. -/
theorem Numeral.literalBits_negate (n : Numeral) :
    n.negate.expr.literalBits = n.expr.literalBits := by
  cases n with
  | int n =>
    show bitLength (-n).natAbs = bitLength n.natAbs
    rw [Int.natAbs_neg]
  | float x => rfl

namespace BinaryOperator

/-- No integer comes out of an operation on floats. -/
theorem foldFloat_bits {op : BinaryOperator} {a b : Float} {e : Expr}
    (h : op.foldFloat a b = some e) : e.literalBits = 0 := by
  rcases foldFloat_cases h with ⟨_, x, rfl⟩ | ⟨_, c, rfl⟩
  · rfl
  · rfl

/-- A folded operation has at most 4096 bits more than its operands. -/
theorem fold_bits {op : BinaryOperator} {a b : Numeral} {e : Expr} (h : op.fold a b = some e) :
    e.literalBits ≤ a.expr.literalBits + b.expr.literalBits + 4096 := by
  unfold fold at h
  split at h
  next =>
    rcases foldInt_cases h with ⟨_, n, rfl⟩ | ⟨_, c, rfl⟩
    · exact foldInt_bits h
    · exact Nat.zero_le _
  next =>
    rw [foldFloat_bits h]
    exact Nat.zero_le _

/-- A power of floats is a float, so an integer is a power of integers. -/
theorem fold_power_bits {a b : Numeral} {n : Int} (h : power.fold a b = some (.int n)) :
    bitLength n.natAbs ≤ 4096 := by
  unfold fold at h
  split at h
  next base exponent =>
    obtain ⟨m, hm, hmn⟩ := Option.map_eq_some_iff.mp h
    cases hmn
    exact bitLength_intPower hm
  next =>
    have hfloat := foldFloat_bits h
    rw [Expr.literalBits_int] at hfloat
    omega

end BinaryOperator

/-- An operation that is dropped leaves an operand, or a literal of one digit. -/
theorem literalBits_identity (returns : Returns) (op : BinaryOperator) (left right : Expr)
    (ty : Ty) :
    (simplifyIdentity returns op left right ty).literalBits ≤
      left.literalBits + right.literalBits + 1 := by
  have hkept := Expr.literalBits_binary (.operator op) left right ty
  have hnegation : (Expr.negation returns right).literalBits = right.literalBits :=
    Expr.literalBits_unary (.operator .negate) right (right.ty returns)
  have hzero : (Expr.int 0).literalBits = 0 := rfl
  have hone : (Expr.int 1).literalBits = 1 := rfl
  unfold simplifyIdentity
  cases op with
  | add | subtract | divide | power =>
    dsimp only
    split
    · omega
    · split <;> omega
  | multiply =>
    dsimp only
    split
    · omega
    · split
      · omega
      · split <;> omega
  | remainder | floorDivide | equal | notEqual | less | lessOrEqual | greater | greaterOrEqual
  | and | or =>
    dsimp only
    omega

/-- An operation adds at most 4096 digits to those of its operands. -/
theorem literalBits_operation (returns : Returns) (op : BinaryOperator) (left right : Expr)
    (ty : Ty) :
    (simplifyOperation returns op left right ty).literalBits ≤
      left.literalBits + right.literalBits + 4096 := by
  have hidentity := literalBits_identity returns op left right ty
  rcases simplifyOperation_cases returns op left right ty with ⟨a, b, ha, hb, hfold⟩ | ⟨_, heq⟩
  · have hfolded := BinaryOperator.fold_bits hfold
    rw [Numeral.expr_of_ofExpr? ha, Numeral.expr_of_ofExpr? hb] at hfolded
    exact hfolded
  · rw [heq]
    omega

/-- A sign that is folded into a number adds no bits. -/
theorem literalBits_simplifyUnary (head : UnaryHead) (operand : Expr) (ty : Ty) :
    (simplifyUnary head operand ty).literalBits = operand.literalBits := by
  unfold simplifyUnary
  split
  next n hn => rw [Numeral.literalBits_negate, Numeral.expr_of_ofExpr? hn]
  next => exact Expr.literalBits_unary _ operand ty

/-- Two operands with an operation on them, which pays for what it adds. -/
theorem Within.operation {head : BinaryHead} {left right left' right' e : Expr} {ty : Ty}
    (hleft : Within left'.nodes left.nodes) (hright : Within right'.nodes right.nodes)
    (h : e.literalBits ≤ left'.literalBits + right'.literalBits + 4096) :
    Within e.nodes (Expr.binary head left right ty).nodes := by
  unfold Within at hleft hright ⊢
  unfold Expr.literalBits at h
  rw [Expr.nodes, tally, tally, tally_append, tally_append]
  show tally Node.literalBits e.nodes ≤ 0 + _ + 4096 * (1 + _)
  omega

mutual

/-- Simplifying an expression stays within the bound. Each operation that is folded is gone
afterwards, so that it pays for the bits that its result has more. -/
theorem Expr.within_simplify (returns : Returns) (e : Expr) :
    Within (e.simplify returns).nodes e.nodes := by
  match e with
  | .int _ | .float _ | .string _ | .bool _ | .func _ | .emptyArray _ => exact Within.refl _
  | .var v =>
    rw [Expr.simplify]
    split
    · exact Nat.zero_le _
    · split
      · exact Nat.zero_le _
      · exact Within.refl _
  | .binary (.intrinsic i) left right ty =>
    rw [Expr.simplify]
    have hsides := (left.within_simplify returns).append (right.within_simplify returns)
    exact hsides.kept (Nat.le_refl 0)
  | .binary (.operator op) left right ty =>
    have hleft := left.within_simplify returns
    have hright := right.within_simplify returns
    rw [Expr.simplify]
    split
    · exact Nat.zero_le _
    · exact hleft.operation hright (by omega)
    · exact hleft.operation hright (by omega)
    · exact hleft.operation hright (literalBits_operation returns op _ _ ty)
  | .unary head operand ty =>
    have hoperand := operand.within_simplify returns
    rw [Expr.simplify]
    have hsame := literalBits_simplifyUnary head (operand.simplify returns) ty
    unfold Within at hoperand ⊢
    unfold Expr.literalBits at hsame
    rw [hsame]
    exact Within.widen hoperand (List.sublist_cons_self _ _)
  | .array items ty =>
    rw [Expr.simplify]
    exact (Expr.within_simplifyList returns items).kept (Nat.le_refl 0)
  | .object members =>
    rw [Expr.simplify]
    exact (Expr.within_simplifyMembers returns members).kept (Nat.le_refl 0)
  | .subscript base index ty =>
    rw [Expr.simplify]
    have hsides := (base.within_simplify returns).append (index.within_simplify returns)
    exact hsides.kept (Nat.le_refl 0)
  | .member base field ty =>
    rw [Expr.simplify]
    exact (base.within_simplify returns).kept (Nat.le_refl 0)
  | .call callee args ty =>
    rw [Expr.simplify]
    exact (Expr.within_simplifyList returns args).kept (Nat.le_refl 0)

theorem Expr.within_simplifyList (returns : Returns) (es : List Expr) :
    Within (Expr.nodesList (Expr.simplifyList returns es)) (Expr.nodesList es) := by
  match es with
  | [] => exact Within.refl _
  | e :: es => exact (e.within_simplify returns).append (Expr.within_simplifyList returns es)

theorem Expr.within_simplifyMembers (returns : Returns) (ms : List (String × Expr)) :
    Within (Expr.nodesMembers (Expr.simplifyMembers returns ms)) (Expr.nodesMembers ms) := by
  match ms with
  | [] => exact Within.refl _
  | (_, e) :: ms =>
    exact (e.within_simplify returns).append (Expr.within_simplifyMembers returns ms)

end

/-! ### Whole programs -/

/-- The integers in a simplified program take at most as many binary digits as those in the
program, and 4096 more for each operation on two operands. A power that is carried out takes at
most 4096. -/
theorem Program.literalBits_simplify (p : Program) :
    p.simplify.literalBits ≤ p.literalBits + 4096 * p.operations ∧
    ∀ a b n, BinaryOperator.power.fold a b = some (.int n) → bitLength n.natAbs ≤ 4096 := by
  have hpass := passageSimplified_list p.returns p.body
  refine ⟨hpass.related Within.composes (Expr.within_simplify p.returns), ?_⟩
  intro a b n hfold
  exact BinaryOperator.fold_power_bits hfold

namespace Tower

def power (base exponent : Expr) : Expr := .binary (.operator .power) base exponent .int

/-- `hand x = (2 ** 60) ** 60`. -/
def tower : Program :=
  ⟨[.declareVar ⟨14, "x", .mutable, .int⟩ (power (power (.int 2) (.int 60)) (.int 60))], []⟩

/-- A power of a power: fourteen binary digits and two operations give 3601 digits. The largest
power of two that is carried out takes 2049. -/
theorem literalBits_tower :
    tower.literalBits = 14 ∧ tower.operations = 2 ∧ tower.simplify.literalBits = 3601 ∧
    tower.simplify.literalBits ≤ 14 + 4096 * 2 ∧
    BinaryOperator.power.fold (.int 2) (.int 2048) = some (.int (Int.pow 2 2048)) ∧
    bitLength (Int.pow 2 2048).natAbs ≤ 4096 := by
  obtain ⟨htotal, hpower⟩ := tower.literalBits_simplify
  have hfold : BinaryOperator.power.fold (.int 2) (.int 2048) = some (.int (Int.pow 2 2048)) := rfl
  have hbits : tower.simplify.literalBits = 3601 := by decide +kernel
  exact ⟨rfl, rfl, hbits, htotal, hfold, hpower _ _ _ hfold⟩

end Tower

end Croupier
