import Mathlib.Data.Fintype.EquivFin
import Croupier.Proofs.Members
import Croupier.Lowering.Expr

/-!
# Sameness from either side

Two unions are the same if they have equally many members and for each member on the left there is
one on the right that is the same as it (`Ty.same`). The test looks in one direction only, and it is
not symmetric on all types: of three members on the left two may be the same, and then the third
member on the right is never asked for. In a type without such repetitions, at any depth
(`Ty.Irredundant`), this cannot happen, because different members on the left need different places
on the right:

> `Ty.Distinct.exists_place`: distinct types that all occur in a list occur there at different
> places.

So sameness of irredundant types is an equivalence, and whatever is decided by it treats its two
sides alike: compatibility, promotion, and the rule for the operands of an operator.
-/

namespace Croupier

namespace Ty

/-! ### Inversion -/

/-- Only an array of the same items is the same as an array. -/
theorem array_same_iff {s t : Ty} :
    (array s == t) = true ↔ ∃ t', t = array t' ∧ (s == t') = true := by
  change same (array s) t = true ↔ ∃ t', t = array t' ∧ same s t' = true
  cases t <;> simp [same]

/-- Only a function with the same parameters and the same result is the same as a function. -/
theorem func_same_iff {ps : List Ty} {r t : Ty} :
    (func ps r == t) = true ↔
      ∃ qs r', t = func qs r' ∧ sameList ps qs = true ∧ (r == r') = true := by
  change same (func ps r) t = true ↔ ∃ qs r', t = func qs r' ∧ sameList ps qs = true ∧
    same r r' = true
  cases t <;> simp [same]

/-- Only a union with as many members, among which all of its own are, is the same as a union. -/
theorem union_same_iff {ms : List Ty} {t : Ty} :
    (union ms == t) = true ↔
      ∃ ns, t = union ns ∧ ms.length = ns.length ∧ ∀ m ∈ ms, ∃ n ∈ ns, (n == m) = true := by
  change same (union ms) t = true ↔ _
  cases t <;> simp [same, allAmong_iff]

/-- The same, with the array on the right. -/
theorem same_array_iff {s t : Ty} :
    (s == array t) = true ↔ ∃ s', s = array s' ∧ (s' == t) = true := by
  change same s (array t) = true ↔ ∃ s', s = array s' ∧ same s' t = true
  cases s <;> simp [same]

/-- The same, with the function on the right. -/
theorem same_func_iff {ps : List Ty} {r s : Ty} :
    (s == func ps r) = true ↔
      ∃ qs r', s = func qs r' ∧ sameList qs ps = true ∧ (r' == r) = true := by
  change same s (func ps r) = true ↔ ∃ qs r', s = func qs r' ∧ sameList qs ps = true ∧
    same r' r = true
  cases s <;> simp [same]

/-- The same, with the union on the right. -/
theorem same_union_iff {ms : List Ty} {s : Ty} :
    (s == union ms) = true ↔
      ∃ ns, s = union ns ∧ ns.length = ms.length ∧ ∀ n ∈ ns, ∃ m ∈ ms, (m == n) = true := by
  change same s (union ms) = true ↔ _
  cases s <;> simp [same, allAmong_iff]

/-! ### Transitivity -/

/-- Transitivity with the type at the beginning of the chain, and with the type at its end. -/
def Transitive (s : Ty) : Prop :=
  ∀ t u, ((s == t) = true → (t == u) = true → (s == u) = true) ∧
    ((u == t) = true → (t == s) = true → (u == s) = true)

/-- Lists are compared transitively if their members are. -/
theorem sameList_trans {ss : List Ty} (h : ∀ s ∈ ss, s.Transitive) (ts us : List Ty) :
    (sameList ss ts = true → sameList ts us = true → sameList ss us = true) ∧
      (sameList us ts = true → sameList ts ss = true → sameList us ss = true) := by
  induction ss generalizing ts us with
  | nil => cases ts <;> cases us <;> simp [sameList]
  | cons s ss ih =>
    rw [List.forall_mem_cons] at h
    cases ts with
    | nil => cases us <;> simp [sameList]
    | cons t ts =>
      cases us with
      | nil => simp [sameList]
      | cons u us =>
        simp only [sameList, Bool.and_eq_true]
        obtain ⟨hfirst, hlast⟩ := h.1 t u
        obtain ⟨ihfirst, ihlast⟩ := ih h.2 ts us
        exact ⟨fun hst htu => ⟨hfirst hst.1 htu.1, ihfirst hst.2 htu.2⟩,
          fun hut hts => ⟨hlast hut.1 hts.1, ihlast hut.2 hts.2⟩⟩

/-- Transitivity holds of all types, with or without repeated members. -/
theorem transitive (s : Ty) : s.Transitive := by
  -- The members of a chain of unions form chains the other way round.
  induction s using inductionOn with
  | hprim p =>
    refine fun t u => ⟨fun hst htu => ?_, fun hut hts => ?_⟩
    · exact eq_of_prim_same hst ▸ htu
    · exact eq_prim_of_same hts ▸ hut
  | harray s ih =>
    refine fun t u => ⟨fun hst htu => ?_, fun hut hts => ?_⟩
    · obtain ⟨t, rfl, hst⟩ := array_same_iff.mp hst
      obtain ⟨u, rfl, htu⟩ := array_same_iff.mp htu
      exact array_same_iff.mpr ⟨u, rfl, (ih t u).1 hst htu⟩
    · obtain ⟨t, rfl, hts⟩ := same_array_iff.mp hts
      obtain ⟨u, rfl, hut⟩ := same_array_iff.mp hut
      exact same_array_iff.mpr ⟨u, rfl, (ih t u).2 hut hts⟩
  | hfunc ps r ihps ihr =>
    refine fun t u => ⟨fun hst htu => ?_, fun hut hts => ?_⟩
    · obtain ⟨qs, r', rfl, hps, hr⟩ := func_same_iff.mp hst
      obtain ⟨us, r'', rfl, hqs, hr'⟩ := func_same_iff.mp htu
      exact func_same_iff.mpr
        ⟨us, r'', rfl, (sameList_trans ihps qs us).1 hps hqs, (ihr r' r'').1 hr hr'⟩
    · obtain ⟨qs, r', rfl, hps, hr⟩ := same_func_iff.mp hts
      obtain ⟨us, r'', rfl, hqs, hr'⟩ := same_func_iff.mp hut
      exact same_func_iff.mpr
        ⟨us, r'', rfl, (sameList_trans ihps qs us).2 hqs hps, (ihr r' r'').2 hr' hr⟩
  | hunion ms ih =>
    refine fun t u => ⟨fun hst htu => ?_, fun hut hts => ?_⟩
    · obtain ⟨ns, rfl, hlength, hms⟩ := union_same_iff.mp hst
      obtain ⟨ks, rfl, hlength', hns⟩ := union_same_iff.mp htu
      refine union_same_iff.mpr ⟨ks, rfl, hlength.trans hlength', fun m hm => ?_⟩
      obtain ⟨n, hn, hnm⟩ := hms m hm
      obtain ⟨k, hk, hkn⟩ := hns n hn
      exact ⟨k, hk, (ih m hm n k).2 hkn hnm⟩
    · obtain ⟨ns, rfl, hlength, hns⟩ := same_union_iff.mp hts
      obtain ⟨ks, rfl, hlength', hks⟩ := same_union_iff.mp hut
      refine same_union_iff.mpr ⟨ks, rfl, hlength'.trans hlength, fun k hk => ?_⟩
      obtain ⟨n, hn, hnk⟩ := hks k hk
      obtain ⟨m, hm, hmn⟩ := hns n hn
      exact ⟨m, hm, (ih m hm n k).1 hmn hnk⟩

/-- Comparing types is transitive, well formed or not. -/
theorem same_trans {s t u : Ty} (hst : (s == t) = true) (htu : (t == u) = true) :
    (s == u) = true :=
  (s.transitive t u).1 hst htu

/-! ### Places -/

/-- Distinct types that all occur in a list occur there at different places. -/
theorem Distinct.exists_place {ms ns : List Ty} (hdistinct : Distinct ms)
    (hcomm : ∀ m ∈ ms, ∀ n ∈ ns, (m == n) = (n == m))
    (hoccurs : ∀ m ∈ ms, ∃ n ∈ ns, (m == n) = true) :
    ∃ place : Fin ms.length → Fin ns.length, Function.Injective place ∧
      ∀ i, (ms.get i == ns.get (place i)) = true := by
  have hplace : ∀ i : Fin ms.length, ∃ j : Fin ns.length, (ms.get i == ns.get j) = true := by
    intro i
    obtain ⟨n, hn, hsame⟩ := hoccurs _ (List.get_mem ms i)
    obtain ⟨j, rfl⟩ := List.mem_iff_get.mp hn
    exact ⟨j, hsame⟩
  choose place hsame using hplace
  -- Members that share a place are the same, whichever of them comes first.
  have hshared : ∀ i j, place i = place j → (ms.get i == ms.get j) = true := by
    intro i j hij
    have hj := hsame j
    rw [hcomm _ (List.get_mem ms j) _ (List.get_mem ns (place j)), ← hij] at hj
    exact same_trans (hsame i) hj
  refine ⟨place, ?_, hsame⟩
  intro i j hij
  have hearlier := List.pairwise_iff_get.mp hdistinct
  by_contra hne
  rcases Nat.lt_or_gt_of_ne (Fin.val_ne_of_ne hne) with hlt | hgt
  · exact ne_true_of_eq_false (hearlier i j hlt) (hshared i j hij)
  · exact ne_true_of_eq_false (hearlier j i hgt) (hshared j i hij.symm)

/-- Distinct types that all occur in a list are no more than the list has. -/
theorem Distinct.length_le {ms ns : List Ty} (hdistinct : Distinct ms)
    (hcomm : ∀ m ∈ ms, ∀ n ∈ ns, (m == n) = (n == m))
    (hoccurs : ∀ m ∈ ms, ∃ n ∈ ns, (m == n) = true) : ms.length ≤ ns.length := by
  obtain ⟨place, hinjective, _⟩ := hdistinct.exists_place hcomm hoccurs
  simpa using Fintype.card_le_of_injective place hinjective

/-- If they are as many as the list has, nothing else is in the list. -/
theorem Distinct.exhausts {ms ns : List Ty} (hdistinct : Distinct ms)
    (hcomm : ∀ m ∈ ms, ∀ n ∈ ns, (m == n) = (n == m))
    (hoccurs : ∀ m ∈ ms, ∃ n ∈ ns, (m == n) = true) (hlength : ms.length = ns.length) :
    ∀ n ∈ ns, ∃ m ∈ ms, (m == n) = true := by
  obtain ⟨place, hinjective, hsame⟩ := hdistinct.exists_place hcomm hoccurs
  have hbijective : Function.Bijective place := by
    rw [Fintype.bijective_iff_injective_and_card]
    exact ⟨hinjective, by simpa using hlength⟩
  intro n hn
  obtain ⟨j, rfl⟩ := List.mem_iff_get.mp hn
  obtain ⟨i, rfl⟩ := hbijective.surjective j
  exact ⟨ms.get i, List.get_mem ms i, hsame i⟩

/-! ### Symmetry -/

mutual

/-- No union in the type, at any depth, has two members that are the same. -/
def Irredundant : Ty → Prop
  | prim _ => True
  | array t => Irredundant t
  | func ps r => IrredundantList ps ∧ Irredundant r
  | union ms => Distinct ms ∧ IrredundantList ms

/-- All types of a list are irredundant. -/
def IrredundantList : List Ty → Prop
  | [] => True
  | t :: ts => Irredundant t ∧ IrredundantList ts

end

/-- Types are irredundant one by one. -/
theorem irredundantList_iff {ts : List Ty} : IrredundantList ts ↔ ∀ t ∈ ts, t.Irredundant := by
  induction ts with
  | nil => simp [IrredundantList]
  | cons t ts ih => simp [IrredundantList, ih]

/-- Lists are compared symmetrically if their members are. -/
theorem sameList_comm {ss ts : List Ty} (h : ∀ s ∈ ss, ∀ t ∈ ts, (s == t) = (t == s)) :
    sameList ss ts = sameList ts ss := by
  induction ss generalizing ts with
  | nil => cases ts <;> rfl
  | cons s ss ih =>
    cases ts with
    | nil => rfl
    | cons t ts =>
      have hfirst : same s t = same t s := h s List.mem_cons_self t List.mem_cons_self
      have hrest := ih (fun s hs t ht =>
        h s (List.mem_cons_of_mem _ hs) t (List.mem_cons_of_mem _ ht))
      rw [sameList, sameList, hfirst, hrest]

/-- Unions can be compared from the other side if their members can, and those on the left are
distinct. -/
theorem Distinct.union_symm {ms ns : List Ty} (hdistinct : Distinct ms)
    (hcomm : ∀ m ∈ ms, ∀ n ∈ ns, (m == n) = (n == m)) (h : (union ms == union ns) = true) :
    (union ns == union ms) = true := by
  obtain ⟨_, ⟨⟩, hlength, hms⟩ := union_same_iff.mp h
  refine union_same_iff.mpr ⟨ms, rfl, hlength.symm, ?_⟩
  refine hdistinct.exhausts hcomm (fun m hm => ?_) hlength
  obtain ⟨n, hn, hnm⟩ := hms m hm
  exact ⟨n, hn, (hcomm m hm n hn).trans hnm⟩

/-- Irredundant types are compared alike from either side. -/
theorem same_comm {s t : Ty} (hs : s.Irredundant) (ht : t.Irredundant) :
    (s == t) = (t == s) := by
  induction s using inductionOn generalizing t with
  | hprim p =>
    cases t with
    | prim q =>
      show (p == q) = (q == p)
      exact Bool.beq_comm
    | array | func | union => rfl
  | harray s ih =>
    cases t with
    | array t =>
      rw [Irredundant] at hs ht
      exact ih hs ht
    | prim | func | union => rfl
  | hfunc ps r ihps ihr =>
    cases t with
    | func qs r' =>
      rw [Irredundant, irredundantList_iff] at hs ht
      have hparams := sameList_comm (fun p hp q hq => ihps p hp (hs.1 p hp) (ht.1 q hq))
      have hresult : same r r' = same r' r := ihr hs.2 ht.2
      show same (func ps r) (func qs r') = same (func qs r') (func ps r)
      rw [same, same, hparams, hresult]
    | prim | array | union => rfl
  | hunion ms ih =>
    cases t with
    | union ns =>
      rw [Irredundant, irredundantList_iff] at hs ht
      have hcomm : ∀ m ∈ ms, ∀ n ∈ ns, (m == n) = (n == m) :=
        fun m hm n hn => ih m hm (hs.2 m hm) (ht.2 n hn)
      exact Bool.eq_iff_iff.mpr ⟨hs.1.union_symm hcomm,
        ht.1.union_symm (fun n hn m hm => (hcomm m hm n hn).symm)⟩
    | prim | array | func => rfl

/-- Comparing types is symmetric, provided that no union says a member twice. -/
theorem same_symm {s t : Ty} (hs : s.Irredundant) (ht : t.Irredundant) (h : (s == t) = true) :
    (t == s) = true :=
  (same_comm ht hs).trans h

/-! ### What is decided by sameness -/

/-- Which types go together does not depend on the side. -/
theorem compatible_comm {s t : Ty} (hs : s.Irredundant) (ht : t.Irredundant) :
    s.compatible t = t.compatible s := by
  unfold compatible
  rw [same_comm hs ht, Bool.or_comm s.isAny]

/-- Both types are missing, or both are there and are the same. -/
def SameOrMissing : Option Ty → Option Ty → Prop := Option.Rel (fun s t => (s == t) = true)

/-- Promotion does not ask which operand stands on the left. -/
theorem promote_comm {s t : Ty} (hs : s.Irredundant) (ht : t.Irredundant) :
    SameOrMissing (s.promote t) (t.promote s) := by
  unfold promote
  rw [same_comm ht hs]
  by_cases hsame : (s == t) = true
  · rw [if_pos hsame, if_pos hsame]
    exact .some hsame
  · rw [if_neg hsame, if_neg hsame]
    split
    next => exact .some rfl
    next => exact .some rfl
    next hleft hright =>
      split
      next => exact absurd rfl (hright rfl)
      next => exact absurd rfl (hleft rfl)
      next => exact .none

theorem SameOrMissing.isSome_eq {a b : Option Ty} (h : SameOrMissing a b) :
    a.isSome = b.isSome := by
  cases h with
  | some | none => rfl

theorem SameOrMissing.getD {a b : Option Ty} (h : SameOrMissing a b) :
    (a.getD any == b.getD any) = true := by
  cases h with
  | some hsame => exact hsame
  | none => rfl

end Ty

/-- Operands go together in either order. -/
theorem checkOperands_comm {returns : Returns} {left right : Expr}
    (hleft : (left.ty returns).Irredundant) (hright : (right.ty returns).Irredundant)
    (span : Span) :
    (checkOperands returns left right span).toOption =
      (checkOperands returns right left span).toOption := by
  unfold checkOperands
  simp only [Ty.compatible_comm hleft hright, (Ty.promote_comm hleft hright).isSome_eq,
    Bool.or_comm left.isFunc]
  by_cases hfunc : (right.isFunc || left.isFunc) = true
  · rw [if_pos hfunc, if_pos hfunc]
  · rw [if_neg hfunc, if_neg hfunc]
    split <;> rfl

/-- Whether the operands of `and` and `or` pass does not depend on the side, though the complaint
may. -/
theorem checkLogical_comm (setting : Setting) (left right : Expr) (span : Span) :
    (checkLogical setting left right span).toOption =
      (checkLogical setting right left span).toOption := by
  unfold checkLogical
  cases setting.strictness with
  | lenient => rfl
  | strict =>
    cases checkBoolean setting.returns left span <;>
      cases checkBoolean setting.returns right span <;> rfl

/-- Two checks that pass together, before types that are the same. -/
theorem Ty.SameOrMissing.behind {check check' : Except Fault Unit} {t u : Ty}
    (hcheck : check.toOption = check'.toOption) (hsame : (t == u) = true) :
    SameOrMissing (check >>= fun _ => pure t).toOption (check' >>= fun _ => pure u).toOption := by
  cases check with
  | error =>
    cases check' with
    | error => exact .none
    | ok => cases hcheck
  | ok =>
    cases check' with
    | error => cases hcheck
    | ok => exact .some hsame

/-- An operation has the same type with its operands exchanged, or none either way. -/
theorem binaryTy_comm {setting : Setting} {left right : Expr}
    (hleft : (left.ty setting.returns).Irredundant)
    (hright : (right.ty setting.returns).Irredundant) (op : BinaryOperator) (span : Span) :
    Ty.SameOrMissing (binaryTy setting op left right span).toOption
      (binaryTy setting op right left span).toOption := by
  unfold binaryTy
  cases op.opClass with
  | arithmetic =>
    exact .behind (checkOperands_comm hleft hright span) (Ty.promote_comm hleft hright).getD
  | comparison => exact .behind (checkOperands_comm hleft hright span) rfl
  | logical => exact .behind (checkLogical_comm setting left right span) rfl

/-- Sameness is an equivalence on the types without repeated members. On these, compatibility is
symmetric, promotion in either order gives the same type or none, and an operator takes two
operands exactly when it takes them the other way round, with the same type. -/
theorem Ty.same_equivalence :
    Equivalence (fun s t : {t : Ty // t.Irredundant} => (s.val == t.val) = true) ∧
      (∀ s t : Ty, s.Irredundant → t.Irredundant →
        s.compatible t = t.compatible s ∧ SameOrMissing (s.promote t) (t.promote s)) ∧
      ∀ (setting : Setting) (op : BinaryOperator) (left right : Expr) (span : Span),
        (left.ty setting.returns).Irredundant → (right.ty setting.returns).Irredundant →
          SameOrMissing (binaryTy setting op left right span).toOption
            (binaryTy setting op right left span).toOption := by
  have hequivalence : Equivalence
      (fun s t : {t : Ty // t.Irredundant} => (s.val == t.val) = true) :=
    ⟨fun s => same_self s.val, fun {s t} h => same_symm s.property t.property h, same_trans⟩
  refine ⟨hequivalence, ?_, ?_⟩
  · intro s t hs ht
    exact ⟨compatible_comm hs ht, promote_comm hs ht⟩
  · intro setting op left right span hleft hright
    exact binaryTy_comm hleft hright op span

/-- With a repeated member, sameness holds from one side only. -/
example : (Ty.union [.int, .int, .float] == Ty.union [.int, .float, .string]) = true ∧
    (Ty.union [.int, .float, .string] == Ty.union [.int, .int, .float]) = false := by
  decide

namespace Interchanged

/-- `[int | float] | string`. -/
def entry : Ty := .union [.array (.union [.int, .float]), .string]

/-- `string | [float | int]`. -/
def record : Ty := .union [.string, .array (.union [.float, .int])]

def x : Expr := .var ⟨14, "x", .mutable, entry⟩

def y : Expr := .var ⟨15, "y", .mutable, record⟩

def setting : Setting := ⟨.strict, [], .root⟩

/-- `x + y` and `y + x` are both taken, the one as an `entry` and the other as a `record`. -/
theorem same_equivalence_entry : entry.Irredundant ∧ record.Irredundant ∧
    (entry == record) = true ∧ (record == entry) = true ∧
    entry.compatible record = record.compatible entry ∧
    binaryTy setting .add x y ⟨0, 0⟩ = .ok entry ∧
    Ty.SameOrMissing (some entry) (binaryTy setting .add y x ⟨0, 0⟩).toOption := by
  have hentry : entry.Irredundant := by
    simp only [entry, Ty.Irredundant, Ty.IrredundantList, Ty.Distinct, and_true]
    decide
  have hrecord : record.Irredundant := by
    simp only [record, Ty.Irredundant, Ty.IrredundantList, Ty.Distinct, and_true, true_and]
    decide
  have hsame : (entry == record) = true := by decide
  obtain ⟨hequivalence, htypes, hoperands⟩ := Ty.same_equivalence
  refine ⟨hentry, hrecord, hsame, ?_, (htypes entry record hentry hrecord).1, rfl, ?_⟩
  · exact @hequivalence.symm ⟨entry, hentry⟩ ⟨record, hrecord⟩ hsame
  · exact hoperands setting .add x y ⟨0, 0⟩ hentry hrecord

end Interchanged

end Croupier
