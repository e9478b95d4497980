import Croupier.Proofs.LiteralSize
import Croupier.Proofs.Tidy

/-!
# Arithmetic on integers is exact

An operation on two integers that are written out is carried out if it has a result and the result
is not too large, and then what is left is that result. Here the results are said in terms of
integers alone (`BinaryOperator.Result`): the two divisions by the laws that fix their quotients,
the comparisons by the order of integers.

There are two divisions. One cuts its quotient off toward zero and leaves a remainder with the sign
of the dividend (`Truncates`), the other rounds its quotient down (`Floors`). They differ by one
where something is left over and the operands have different signs, and nowhere else.

> `BinaryOperator.fold_exact`: which operations on integers are carried out, and with what result.
-/

namespace Croupier

/-! ### Cutting off -/

/-- `q` is the quotient of `a` and `b` cut off toward zero, and `r` is what is left. -/
structure Truncates (a b q r : Int) : Prop where
  whole : a = q * b + r
  small : r.natAbs < b.natAbs
  signed : r = 0 ∨ r.sign = a.sign

/-- The library's quotient and remainder are those of truncating division. -/
theorem truncates_tdiv {a b : Int} (hb : b ≠ 0) : Truncates a b (a.tdiv b) (a.tmod b) where
  whole := (Int.tdiv_mul_add_tmod a b).symm
  small := by
    rw [Int.natAbs_tmod]
    exact Nat.mod_lt _ (by omega)
  signed := by
    rw [← Int.sign_eq_zero_iff_zero, Int.sign_tmod]
    by_cases hdvd : b ∣ a
    · exact .inl (if_pos hdvd)
    · exact .inr (if_neg hdvd)

namespace Truncates

variable {a b q r q' r' : Int}

/-- What is left lies on the dividend's side of zero. -/
theorem side (h : Truncates a b q r) : (0 ≤ a → 0 ≤ r) ∧ (a ≤ 0 → r ≤ 0) := by
  rcases h.signed with hzero | hsign
  · rw [hzero]
    exact ⟨fun _ => Int.le_refl 0, fun _ => Int.le_refl 0⟩
  · rw [← Int.sign_nonneg_iff, ← Int.sign_nonpos_iff, ← hsign, Int.sign_nonneg_iff,
      Int.sign_nonpos_iff]
    exact ⟨id, id⟩

/-- Truncating division has one quotient and one remainder. -/
theorem unique (h : Truncates a b q r) (h' : Truncates a b q' r') : q' = q ∧ r' = r := by
  have hdifference : (q - q') * b = r' - r := by
    rw [Int.sub_mul]
    have hwhole := h.whole
    have hwhole' := h'.whole
    omega
  -- Both remainders lie on one side of zero, so they are less than a divisor apart.
  have hnear : (r' - r).natAbs < b.natAbs := by
    have hsmall := h.small
    have hsmall' := h'.small
    have hside := h.side
    have hside' := h'.side
    omega
  rw [← hdifference, Int.natAbs_mul] at hnear
  have hquotients : (q - q').natAbs < 1 := by
    refine @Nat.lt_of_mul_lt_mul_right b.natAbs _ _ ?_
    rw [Nat.one_mul]
    exact hnear
  have hq : q' = q := by omega
  rw [hq, Int.sub_self, Int.zero_mul] at hdifference
  exact ⟨hq, by omega⟩

end Truncates

/-! ### Rounding down -/

/-- `f` is the quotient of `a` and `b` rounded down. -/
def Floors (a b f : Int) : Prop :=
  0 < b ∧ f * b ≤ a ∧ a < (f + 1) * b ∨ b < 0 ∧ (f + 1) * b < a ∧ a ≤ f * b

/-- Changing both signs changes nothing. -/
theorem Floors.neg {a b f : Int} (h : Floors a b f) : Floors (-a) (-b) f := by
  unfold Floors at h ⊢
  rw [Int.mul_neg, Int.mul_neg]
  omega

/-- For a positive divisor the library's quotient is the floor. -/
theorem floors_fdiv_of_pos {b : Int} (a : Int) (hb : 0 < b) : Floors a b (a.fdiv b) := by
  have hwhole := Int.fdiv_mul_add_fmod a b
  have hleast := Int.fmod_nonneg_of_pos a hb
  have hmost := Int.fmod_lt_of_pos a hb
  refine .inl ⟨hb, ?_, ?_⟩
  · omega
  · rw [Int.add_mul, Int.one_mul]
    omega

/-- So it is for a negative one, by changing both signs. -/
theorem floors_fdiv {b : Int} (a : Int) (hb : b ≠ 0) : Floors a b (a.fdiv b) := by
  rcases Int.lt_or_gt_of_ne hb with hneg | hpos
  · have hopposite := (floors_fdiv_of_pos (-a) (Int.neg_pos_of_neg hneg)).neg
    rwa [Int.neg_neg, Int.neg_neg, Int.neg_fdiv_neg] at hopposite
  · exact floors_fdiv_of_pos a hpos

namespace Floors

variable {a b f g : Int}

theorem divisor_ne_zero (h : Floors a b f) : b ≠ 0 := by
  unfold Floors at h
  omega

/-- Half of uniqueness: for a positive divisor no floor is greater than another by one or more. -/
theorem lt_succ_of_pos (hb : 0 < b) (h : Floors a b f) (h' : Floors a b g) : f < g + 1 := by
  unfold Floors at h h'
  have hproducts : f * b < (g + 1) * b := by omega
  exact Int.lt_of_mul_lt_mul_right hproducts (Int.le_of_lt hb)

/-- A quotient has one floor. -/
theorem unique (h : Floors a b f) (h' : Floors a b g) : g = f := by
  rcases Int.lt_or_gt_of_ne h.divisor_ne_zero with hneg | hpos
  · have hopposite := Int.neg_pos_of_neg hneg
    have hle := lt_succ_of_pos hopposite h.neg h'.neg
    have hge := lt_succ_of_pos hopposite h'.neg h.neg
    omega
  · have hle := lt_succ_of_pos hpos h h'
    have hge := lt_succ_of_pos hpos h' h
    omega

end Floors

/-- The two quotients differ where something is left over and the signs are different. -/
theorem fdiv_eq_tdiv_sub_one_iff {a b : Int} (hb : b ≠ 0) :
    a.fdiv b = a.tdiv b - 1 ↔ a.tmod b ≠ 0 ∧ (a < 0 ∧ 0 < b ∨ 0 < a ∧ b < 0) := by
  rw [Int.fdiv_eq_tdiv, ne_eq, ← Int.dvd_iff_tmod_eq_zero]
  by_cases hdvd : b ∣ a
  · rw [if_pos hdvd]
    constructor
    · omega
    · rintro ⟨hleft, _⟩
      exact absurd hdvd hleft
  · have ha : a ≠ 0 := by
      rintro rfl
      exact hdvd (Int.dvd_zero b)
    have hsign : b < 0 ∧ b.sign = -1 ∨ 0 < b ∧ b.sign = 1 := by
      rcases Int.lt_or_gt_of_ne hb with hneg | hpos
      · exact .inl ⟨hneg, Int.sign_eq_neg_one_of_neg hneg⟩
      · exact .inr ⟨hpos, Int.sign_eq_one_of_pos hpos⟩
    rw [if_neg hdvd, and_iff_right hdvd]
    split <;> split <;> omega

namespace BinaryOperator

/-! ### Results -/

/-- What a comparison says of two integers. -/
def Relates (a b : Int) : BinaryOperator → Prop
  | equal => a = b
  | notEqual => a ≠ b
  | less => a < b
  | lessOrEqual => a ≤ b
  | greater => b < a
  | greaterOrEqual => b ≤ a
  | _ => False

/-- An operator that turns an order into a truth value is a comparison, and the truth value says
whether the integers stand in its relation. -/
theorem relates_of_holds? {op : BinaryOperator} {a b : Int} {t : Bool}
    (h : op.holds? (compare a b) = some t) :
    op.opClass = .comparison ∧ (t = true ↔ op.Relates a b) := by
  cases op <;> cases h
  case equal => exact ⟨rfl, Ordering.isEq_iff_eq_eq.trans Int.compare_eq_eq⟩
  case notEqual => exact ⟨rfl, Ordering.isNe_iff_ne_eq.trans (not_congr Int.compare_eq_eq)⟩
  case less => exact ⟨rfl, Ordering.isLT_iff_eq_lt.trans Int.compare_eq_lt⟩
  case lessOrEqual => exact ⟨rfl, Int.isLE_compare⟩
  case greater => exact ⟨rfl, Ordering.isGT_iff_eq_gt.trans Int.compare_eq_gt⟩
  case greaterOrEqual => exact ⟨rfl, Int.isGE_compare⟩

/-- What an operation on two integers comes to. -/
inductive Result (a b : Int) : BinaryOperator → Expr → Prop
  | add : Result a b add (.int (a + b))
  | subtract : Result a b subtract (.int (a - b))
  | multiply : Result a b multiply (.int (a * b))
  | divide {q r : Int} (h : Truncates a b q r) : Result a b divide (.int q)
  | remainder {q r : Int} (h : Truncates a b q r) : Result a b remainder (.int r)
  | floorDivide {f : Int} (h : Floors a b f) : Result a b floorDivide (.int f)
  | power (n : Nat) (h : b = n) : Result a b power (.int (Int.pow a n))
  | comparison {op : BinaryOperator} {t : Bool} (hop : op.opClass = .comparison)
      (h : t = true ↔ op.Relates a b) : Result a b op (.bool t)

/-- An operation comes to one thing at most. -/
theorem Result.unique {op : BinaryOperator} {a b : Int} {e e' : Expr} (h : op.Result a b e)
    (h' : op.Result a b e') : e' = e := by
  cases h with
  | add | subtract | multiply =>
    cases h' with
    | comparison hop => cases hop
    | _ => rfl
  | divide h =>
    cases h' with
    | divide h' => rw [(h.unique h').1]
    | comparison hop => cases hop
  | remainder h =>
    cases h' with
    | remainder h' => rw [(h.unique h').2]
    | comparison hop => cases hop
  | floorDivide h =>
    cases h' with
    | floorDivide h' => rw [h.unique h']
    | comparison hop => cases hop
  | power n h =>
    cases h' with
    | power m h' =>
      have hexponent : m = n := by omega
      rw [hexponent]
    | comparison hop => cases hop
  | comparison hop h =>
    cases h' with
    | comparison _ h' => rw [Bool.eq_iff_iff.mpr (h'.trans h.symm)]
    | _ => cases hop

/-- A power that is computed has an exponent that is not negative, and it is the power. -/
theorem intPower?_eq_some {a b c : Int} (h : intPower? a b = some c) :
    0 ≤ b ∧ c = Int.pow a b.toNat := by
  unfold intPower? at h
  split at h
  · cases h
  next hnatural =>
    refine ⟨Int.not_lt.mp hnatural, ?_⟩
    split at h
    · cases h
    · split at h
      · cases h
      · cases h
        rfl

/-- What is left of an operation is its result. -/
theorem result_of_foldInt {op : BinaryOperator} {a b : Int} {e : Expr}
    (h : op.foldInt a b = some e) : op.Result a b e := by
  cases op with
  | add =>
    cases h
    exact .add
  | subtract =>
    cases h
    exact .subtract
  | multiply =>
    cases h
    exact .multiply
  | divide =>
    rw [foldInt] at h
    split at h
    · cases h
    next hb =>
      cases h
      exact .divide (truncates_tdiv hb)
  | remainder =>
    rw [foldInt] at h
    split at h
    · cases h
    next hb =>
      cases h
      exact .remainder (truncates_tdiv hb)
  | floorDivide =>
    rw [foldInt] at h
    split at h
    · cases h
    next hb =>
      cases h
      exact .floorDivide (floors_fdiv a hb)
  | power =>
    obtain ⟨c, hc, rfl⟩ := Option.map_eq_some_iff.mp h
    obtain ⟨hnatural, rfl⟩ := intPower?_eq_some hc
    exact .power b.toNat (Int.toNat_of_nonneg hnatural).symm
  | equal | notEqual | less | lessOrEqual | greater | greaterOrEqual =>
    simp only [foldInt] at h
    obtain ⟨t, ht, rfl⟩ := Option.map_eq_some_iff.mp h
    obtain ⟨hop, hrelates⟩ := relates_of_holds? ht
    exact .comparison hop hrelates
  | and | or => cases h

/-- `and` and `or` have no result for integers. -/
theorem Result.not_logical {op : BinaryOperator} {a b : Int} {e : Expr} (h : op.Result a b e) :
    op.opClass ≠ .logical := by
  intro hlogical
  cases h with
  | comparison hop =>
    rw [hop] at hlogical
    cases hlogical
  | _ => cases hlogical

/-- Folding integers gives nothing for `and` and `or`, and where the operation is left undone. -/
theorem fold_eq_none_iff {op : BinaryOperator} {a b : Int} :
    op.fold (.int a) (.int b) = none ↔ op.opClass = .logical ∨ op.LeftUndone a b := by
  by_cases hop : op.opClass = .logical
  · refine iff_of_true ?_ (.inl hop)
    cases op with
    | and | or => rfl
    | _ => cases hop
  · rw [or_iff_right hop]
    exact foldInt_eq_none_iff hop

/-- Folding integers gives exactly the result, unless the operation is left undone. -/
theorem fold_eq_some_iff {op : BinaryOperator} {a b : Int} {e : Expr} :
    op.fold (.int a) (.int b) = some e ↔ ¬ op.LeftUndone a b ∧ op.Result a b e := by
  constructor
  · intro h
    refine ⟨fun hundone => ?_, result_of_foldInt h⟩
    rw [fold_eq_none_iff.mpr (.inr hundone)] at h
    cases h
  · rintro ⟨hdone, hresult⟩
    cases h : op.fold (.int a) (.int b) with
    | none => exact absurd (fold_eq_none_iff.mp h) (not_or.mpr ⟨hresult.not_logical, hdone⟩)
    | some e' => rw [hresult.unique (result_of_foldInt h)]

/-- An operation on two integers stays if it is `and` or `or`, if it divides by zero, or if it is a
power with a negative exponent, an exponent beyond 32 bits or more than 4096 binary digits, taking
as many digits for each factor as the base has. In all other cases its result takes its place. Where
both divisions are carried out, the quotient that is rounded down is one less than the other
exactly if something is left over and the operands have different signs. -/
theorem fold_exact (op : BinaryOperator) (a b : Int) :
    (∀ k, bitLength a.natAbs ≤ k ↔ a.natAbs < Nat.pow 2 k) ∧
      (op.fold (.int a) (.int b) = none ↔ op.opClass = .logical ∨ op.LeftUndone a b) ∧
      (∀ e, op.fold (.int a) (.int b) = some e ↔ ¬ op.LeftUndone a b ∧ op.Result a b e) ∧
      (b ≠ 0 → ∃ q r f : Int, divide.fold (.int a) (.int b) = some (.int q) ∧
        remainder.fold (.int a) (.int b) = some (.int r) ∧
        floorDivide.fold (.int a) (.int b) = some (.int f) ∧
        Truncates a b q r ∧ Floors a b f ∧ (∀ g, Floors a b g → g = f) ∧
        (f = q - 1 ↔ r ≠ 0 ∧ (a < 0 ∧ 0 < b ∨ 0 < a ∧ b < 0))) := by
  refine ⟨fun k => bitLength_le_iff, fold_eq_none_iff, fun e => fold_eq_some_iff, ?_⟩
  intro hb
  refine ⟨a.tdiv b, a.tmod b, a.fdiv b, if_neg hb, if_neg hb, if_neg hb, truncates_tdiv hb,
    floors_fdiv a hb, ?_, fdiv_eq_tdiv_sub_one_iff hb⟩
  intro g hg
  exact (floors_fdiv a hb).unique hg

/-- Of `-7` and `2`, one quotient is `-3` with `-1` left over, and the other is `-4`. -/
theorem fold_exact_seven : (2 : Int) ≠ 0 ∧ floorDivide.Result (-7) 2 (.int (-4)) ∧
    Truncates (-7) 2 (-3) (-1) ∧ Floors (-7) 2 (-4) ∧ ∀ g, Floors (-7) 2 g → g = -4 := by
  obtain ⟨_, _, hresult, hquotients⟩ := fold_exact floorDivide (-7) 2
  have hdivisor : (2 : Int) ≠ 0 := by decide
  obtain ⟨q, r, f, hq, hr, hf, htruncates, hfloors, hunique, _⟩ := hquotients hdivisor
  have hquotient : some (Expr.int (-3)) = some (.int q) := hq
  have hremainder : some (Expr.int (-1)) = some (.int r) := hr
  have hfloor : some (Expr.int (-4)) = some (.int f) := hf
  cases hquotient
  cases hremainder
  cases hfloor
  exact ⟨hdivisor, ((hresult _).mp hf).2, htruncates, hfloors, hunique⟩

end BinaryOperator

end Croupier
