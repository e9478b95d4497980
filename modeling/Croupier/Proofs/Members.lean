import Croupier.Source

/-!
# The members of a union

A type stands for its members: itself, or the members of its members if it is a union (`Ty.parts`).
The union of several types keeps one of each kind of member, where two members are of one kind if
they are the same (`==`). This module says what that amounts to without the order in which members
are met: `Ty.DistinctAmong` says of a list that it has one of each, and `Ty.IsUnion` of a type that
its members are such a list, or that it is `any` because there would be none or too many.

A type is well formed if the unions in it, at any depth, have two or three members, no two of them
the same and none of them a union (`Ty.WellFormed`).

> `Ty.isUnion_unionOf`: the union of types that have members is one.
>
> `Ty.wellFormed_unionOf`: the union of well-formed types is well formed.
>
> `Ty.unionOf_same`: unions are the same if they have equally many members and each member of the
> one is the same as one of the other.
-/

namespace Croupier

namespace Ty

/-! ### Sameness -/

/-- The test for `any` holds of `any` alone. -/
theorem isAny_iff {t : Ty} : t.isAny = true ↔ t = any := by
  unfold isAny
  split <;> simp_all

/-- Only a primitive type itself is the same as it. -/
theorem eq_prim_of_same {s : Ty} {p : Prim} (h : (s == prim p) = true) : s = prim p := by
  change same s (prim p) = true at h
  cases s with
  | prim q => rw [same, beq_iff_eq] at h; rw [h]
  | _ => simp [same] at h

/-- The same with the sides exchanged. -/
theorem eq_of_prim_same {t : Ty} {p : Prim} (h : (prim p == t) = true) : t = prim p := by
  change same (prim p) t = true at h
  cases t with
  | prim q => rw [same, beq_iff_eq] at h; rw [h]
  | _ => simp [same] at h

mutual

/-- Induction over types, with all members of a list at once. -/
theorem inductionOn {P : Ty → Prop} (hprim : ∀ p, P (prim p)) (harray : ∀ t, P t → P (array t))
    (hfunc : ∀ ps r, (∀ p ∈ ps, P p) → P r → P (func ps r))
    (hunion : ∀ ms, (∀ m ∈ ms, P m) → P (union ms)) (t : Ty) : P t := by
  match t with
  | prim p => exact hprim p
  | array t => exact harray t (inductionOn hprim harray hfunc hunion t)
  | func ps r =>
    exact hfunc ps r (inductionOn_mem hprim harray hfunc hunion ps)
      (inductionOn hprim harray hfunc hunion r)
  | union ms => exact hunion ms (inductionOn_mem hprim harray hfunc hunion ms)

/-- Induction over the types of a list. -/
theorem inductionOn_mem {P : Ty → Prop} (hprim : ∀ p, P (prim p))
    (harray : ∀ t, P t → P (array t)) (hfunc : ∀ ps r, (∀ p ∈ ps, P p) → P r → P (func ps r))
    (hunion : ∀ ms, (∀ m ∈ ms, P m) → P (union ms)) (ts : List Ty) : ∀ t ∈ ts, P t := by
  match ts with
  | [] => exact List.forall_mem_nil _
  | t :: ts =>
    exact List.forall_mem_cons.mpr ⟨inductionOn hprim harray hfunc hunion t,
      inductionOn_mem hprim harray hfunc hunion ts⟩

end

/-- All of the first types are among the second ones if each has one that is the same, seen from the
other side. -/
theorem allAmong_iff_converse {ss ts : List Ty} :
    allAmong ss ts = true ↔ ∀ s ∈ ss, ∃ t ∈ ts, converse s t = true := by
  induction ss with
  | nil => simp [allAmong]
  | cons s ss ih =>
    rw [allAmong, Bool.and_eq_true, ih, List.any_eq_true, List.forall_mem_cons]

/-- A type is among others if one of them is the same. -/
theorem isAmong_iff {ts : List Ty} {u : Ty} :
    isAmong ts u = true ↔ ∃ t ∈ ts, same t u = true := by
  induction ts with
  | nil => simp [isAmong]
  | cons t ts ih => simp [isAmong, ih]

/-- Lists are compared with the sides exchanged, if their members are. -/
theorem converseList_eq {ts : List Ty}
    (h : ∀ t ∈ ts, ∀ s, converse t s = same s t ∧ converse s t = same t s) (ss : List Ty) :
    converseList ts ss = sameList ss ts ∧ converseList ss ts = sameList ts ss := by
  induction ts generalizing ss with
  | nil => cases ss <;> exact ⟨rfl, rfl⟩
  | cons t ts ih =>
    rw [List.forall_mem_cons] at h
    cases ss with
    | nil => exact ⟨rfl, rfl⟩
    | cons s ss => simp only [converseList, sameList, h.1 s, ih h.2 ss, and_self]

/-- The converse of sameness is sameness from the other side. -/
theorem converse_eq (t s : Ty) : converse t s = same s t := by
  -- Members are compared the other way round, so both directions go through the induction at once.
  suffices hboth : converse t s = same s t ∧ converse s t = same t s from hboth.1
  induction t using inductionOn generalizing s with
  | hprim p => cases s <;> exact ⟨rfl, rfl⟩
  | harray t ih =>
    cases s with
    | array s => exact ih s
    | prim | func | union => exact ⟨rfl, rfl⟩
  | hfunc ps r ihps ihr =>
    cases s with
    | func qs s => simp only [converse, same, converseList_eq ihps qs, ihr s, and_self]
    | prim | array | union => exact ⟨rfl, rfl⟩
  | hunion ms ih =>
    cases s with
    | union ns =>
      have hright : ∀ n, (∃ m ∈ ms, same m n = true) ↔ ∃ m ∈ ms, converse n m = true :=
        fun n => exists_congr (fun m => and_congr_right (fun hm => by rw [(ih m hm n).2]))
      have hleft : ∀ m ∈ ms, (∃ n ∈ ns, same n m = true) ↔ ∃ n ∈ ns, converse m n = true :=
        fun m hm => exists_congr (fun n => and_congr_right (fun _ => by rw [(ih m hm n).1]))
      constructor
      · rw [Bool.eq_iff_iff]
        simp only [converse, same, Bool.and_eq_true, List.all_eq_true, isAmong_iff,
          allAmong_iff_converse, hright]
      · rw [Bool.eq_iff_iff]
        simp only [converse, same, Bool.and_eq_true, List.all_eq_true, isAmong_iff,
          allAmong_iff_converse]
        exact and_congr_right (fun _ => forall₂_congr hleft)
    | prim | array | func => exact ⟨rfl, rfl⟩

/-- All of the first types are among the second ones if each of them has one that is the same. -/
theorem allAmong_iff {ss ts : List Ty} :
    allAmong ss ts = true ↔ ∀ s ∈ ss, ∃ t ∈ ts, (t == s) = true := by
  simp only [allAmong_iff_converse, converse_eq]
  rfl

/-- A list is the same as itself if its members are. -/
theorem sameList_self {ts : List Ty} (h : ∀ t ∈ ts, (t == t) = true) : sameList ts ts = true := by
  induction ts with
  | nil => rfl
  | cons t ts ih =>
    rw [sameList, Bool.and_eq_true]
    exact ⟨h t List.mem_cons_self, ih (fun u hu => h u (List.mem_cons_of_mem _ hu))⟩

mutual

/-- Every type is the same as itself. -/
theorem same_self (t : Ty) : (t == t) = true := by
  show same t t = true
  match t with
  | prim p => rw [same, beq_self_eq_true]
  | array t =>
    rw [same]
    exact same_self t
  | func ps r =>
    rw [same, Bool.and_eq_true]
    exact ⟨sameList_self (same_self_of_mem ps), same_self r⟩
  | union ms =>
    rw [same, Bool.and_eq_true, beq_self_eq_true, allAmong_iff]
    exact ⟨rfl, fun m hm => ⟨m, hm, same_self_of_mem ms m hm⟩⟩

/-- Every type of a list is the same as itself. -/
theorem same_self_of_mem (ts : List Ty) : ∀ t ∈ ts, (t == t) = true := by
  match ts with
  | [] => simp
  | t :: ts =>
    rw [List.forall_mem_cons]
    exact ⟨same_self t, same_self_of_mem ts⟩

end

/-! ### Parts -/

/-- The parts of a list of types are those of its members. -/
theorem mem_partsList {ts : List Ty} {m : Ty} : m ∈ partsList ts ↔ ∃ t ∈ ts, m ∈ t.parts := by
  induction ts with
  | nil => simp [partsList]
  | cons t ts ih => simp [partsList, ih]

theorem partsList_singleton (t : Ty) : partsList [t] = t.parts := by
  rw [partsList, partsList, List.append_nil]

/-- A type that is no union is its only member. -/
theorem parts_eq_self {t : Ty} (h : ∀ ms, t ≠ union ms) : t.parts = [t] := by
  cases t with
  | union ms => exact absurd rfl (h ms)
  | _ => rfl

mutual

/-- No member is a union: unions are opened at every depth. -/
theorem not_union_of_mem_parts {m : Ty} (t : Ty) (h : m ∈ t.parts) (ms : List Ty) :
    m ≠ union ms := by
  match t with
  | prim _ | array _ | func _ _ =>
    obtain rfl := List.mem_singleton.mp h
    nofun
  | union ns => exact not_union_of_mem_partsList ns h ms

/-- No part of a type is a union. -/
theorem not_union_of_mem_partsList {m : Ty} (ts : List Ty) (h : m ∈ partsList ts)
    (ms : List Ty) : m ≠ union ms := by
  match ts with
  | [] => cases h
  | t :: ts =>
    rcases List.mem_append.mp h with h | h
    · exact not_union_of_mem_parts t h ms
    · exact not_union_of_mem_partsList ts h ms

end

/-- Types that are no unions are their own parts. -/
theorem partsList_eq_self {ts : List Ty} (h : ∀ t ∈ ts, ∀ ms, t ≠ union ms) :
    partsList ts = ts := by
  induction ts with
  | nil => rfl
  | cons t ts ih =>
    rw [List.forall_mem_cons] at h
    rw [partsList, parts_eq_self h.1, ih h.2]
    rfl

/-! ### Distinct members -/

/-- No type is the same as a later one. -/
def Distinct (ts : List Ty) : Prop := ts.Pairwise (fun s t => (s == t) = false)

/-- The list has one of each kind of type that occurs among `all`. -/
structure DistinctAmong (all members : List Ty) : Prop where
  among : members ⊆ all
  covers : ∀ t ∈ all, ∃ m ∈ members, (m == t) = true
  distinct : Distinct members

theorem Distinct.nodup {ts : List Ty} (h : Distinct ts) : ts.Nodup := by
  refine List.Pairwise.imp (fun hdiffer heq => ?_) h
  rw [heq, same_self] at hdiffer
  cases hdiffer

/-- A type can be added to distinct ones if none of them is the same. -/
theorem distinct_append_singleton {seen : List Ty} {t : Ty} :
    Distinct (seen ++ [t]) ↔ Distinct seen ∧ ∀ u ∈ seen, (u == t) = false := by
  simp [Distinct, List.pairwise_append]

/-- A type that is new is added at the end. -/
theorem addNew_of_new {seen : List Ty} {t : Ty} (h : ∀ u ∈ seen, (u == t) = false) :
    addNew seen t = seen ++ [t] := by
  rw [addNew, if_neg]
  simpa using h

/-- Adding a type keeps the list distinct, and it keeps standing for all that was seen. -/
theorem DistinctAmong.addNew {all seen : List Ty} (h : DistinctAmong all seen) (t : Ty) :
    DistinctAmong (all ++ [t]) (addNew seen t) := by
  unfold Ty.addNew
  split
  next hseen =>
    obtain ⟨u, hu, hsame⟩ := List.any_eq_true.mp hseen
    refine ⟨fun m hm => List.mem_append_left _ (h.among hm), ?_, h.distinct⟩
    rw [List.forall_mem_append, List.forall_mem_singleton]
    exact ⟨h.covers, u, hu, hsame⟩
  next hnew =>
    simp only [List.any_eq_true, not_exists, not_and, Bool.not_eq_true] at hnew
    refine ⟨?_, ?_, distinct_append_singleton.mpr ⟨h.distinct, hnew⟩⟩
    · exact List.append_subset.mpr ⟨fun m hm => List.mem_append_left _ (h.among hm),
        List.subset_append_right _ _⟩
    · rw [List.forall_mem_append, List.forall_mem_singleton]
      refine ⟨fun u hu => ?_, t, by simp, same_self t⟩
      obtain ⟨m, hm, hsame⟩ := h.covers u hu
      exact ⟨m, List.mem_append_left _ hm, hsame⟩

/-- The same for adding one type after the other. -/
theorem DistinctAmong.foldl_addNew {all seen : List Ty} (h : DistinctAmong all seen)
    (ts : List Ty) : DistinctAmong (all ++ ts) (ts.foldl Ty.addNew seen) := by
  induction ts generalizing all seen with
  | nil => rwa [List.append_nil]
  | cons t ts ih =>
    rw [List.foldl_cons, List.append_cons]
    exact ih (h.addNew t)

/-- Flattening leaves one of each kind of member. -/
theorem distinctAmong_flatten (ts : List Ty) : DistinctAmong (partsList ts) (flatten ts) :=
  have hnone : DistinctAmong [] [] := ⟨List.Subset.refl _, by simp, .nil⟩
  hnone.foldl_addNew (partsList ts)

/-- Distinct types are all added. -/
theorem foldl_addNew_eq_append {seen ts : List Ty} (h : Distinct (seen ++ ts)) :
    ts.foldl addNew seen = seen ++ ts := by
  induction ts generalizing seen with
  | nil => rw [List.append_nil]; rfl
  | cons t ts ih =>
    rw [List.append_cons] at h ⊢
    have hnew := (distinct_append_singleton.mp (List.Pairwise.sublist
      (List.sublist_append_left _ _) h)).2
    rw [List.foldl_cons, addNew_of_new hnew]
    exact ih h

/-- Flattening a type of distinct members leaves its members. -/
theorem flatten_singleton {t : Ty} (h : Distinct t.parts) : flatten [t] = t.parts := by
  rw [flatten, partsList_singleton]
  exact foldl_addNew_eq_append h

/-- No member of a flattened list is a union. -/
theorem not_union_of_mem_flatten {ts : List Ty} {m : Ty} (h : m ∈ flatten ts) (ms : List Ty) :
    m ≠ union ms :=
  not_union_of_mem_partsList ts ((distinctAmong_flatten ts).among h) ms

/-- Flattening once is enough. -/
theorem partsList_flatten (ts : List Ty) : partsList (flatten ts) = flatten ts :=
  partsList_eq_self (fun _ hm => not_union_of_mem_flatten hm)

/-- What has been flattened stays as it is. -/
theorem flatten_flatten (ts : List Ty) : flatten (flatten ts) = flatten ts := by
  rw [flatten, partsList_flatten]
  exact foldl_addNew_eq_append (distinctAmong_flatten ts).distinct

/-! ### Unions -/

/-- What the union of several types comes to: one of each kind of their members, or `any` if there
are no types or there would be too many members. -/
def IsUnion (ts : List Ty) (result : Ty) : Prop :=
  ∃ members, DistinctAmong (partsList ts) members ∧
    if ts = [] ∨ unionLimit < members.length then result = any else result.parts = members

/-- A union is made of all members that are left by flattening, or not at all. -/
theorem unionOf_cases (ts : List Ty) :
    ((flatten ts = [] ∨ unionLimit < (flatten ts).length) ∧ unionOf ts = any) ∨
      ((flatten ts ≠ [] ∧ (flatten ts).length ≤ unionLimit) ∧ (unionOf ts).parts = flatten ts) := by
  unfold unionOf
  split
  next hnone => exact Or.inl ⟨Or.inl hnone, rfl⟩
  next t hone =>
    have ht : t ∈ flatten ts := hone ▸ List.mem_singleton_self t
    rw [hone]
    exact Or.inr ⟨⟨by simp, by simp [unionLimit]⟩, parts_eq_self (not_union_of_mem_flatten ht)⟩
  next hnone _ =>
    split
    next hfew => exact Or.inr ⟨⟨hnone, hfew⟩, partsList_flatten ts⟩
    next hmany => exact Or.inl ⟨Or.inr (Nat.lt_of_not_le hmany), rfl⟩

/-- The type that is built from types which have members is their union. -/
theorem isUnion_unionOf {ts : List Ty} (h : ∀ t ∈ ts, t.parts ≠ []) :
    IsUnion ts (unionOf ts) := by
  have hmembers := distinctAmong_flatten ts
  -- As every type has a member, nothing is left by flattening only if there was no type.
  have hnone : flatten ts = [] ↔ ts = [] := by
    constructor
    · intro hempty
      rw [List.eq_nil_iff_forall_not_mem]
      intro t ht
      obtain ⟨m, hm⟩ := List.exists_mem_of_ne_nil _ (h t ht)
      obtain ⟨m', hm', _⟩ := hmembers.covers m (mem_partsList.mpr ⟨t, ht, hm⟩)
      rw [hempty] at hm'
      cases hm'
    · rintro rfl
      rfl
  refine ⟨flatten ts, hmembers, ?_⟩
  rcases unionOf_cases ts with ⟨hany, heq⟩ | ⟨⟨hsome, hfew⟩, hparts⟩
  · rw [hnone] at hany
    rw [if_pos hany, heq]
  · rw [ne_eq, hnone] at hsome
    rw [if_neg (by simp [hsome, hfew]), hparts]

/-- The members of a union are distinct. -/
theorem distinct_parts_unionOf (ts : List Ty) : Distinct (unionOf ts).parts := by
  rcases unionOf_cases ts with ⟨_, heq⟩ | ⟨_, hparts⟩
  · rw [heq]
    exact List.pairwise_singleton _ _
  · rw [hparts]
    exact (distinctAmong_flatten ts).distinct

/-- The union depends on the flattened list only. -/
theorem unionOf_congr {ss ts : List Ty} (h : flatten ss = flatten ts) :
    unionOf ss = unionOf ts := by
  unfold unionOf
  rw [h]

/-- The union of a union is that union. -/
theorem unionOf_unionOf (ts : List Ty) : unionOf [unionOf ts] = unionOf ts := by
  rcases unionOf_cases ts with ⟨_, heq⟩ | ⟨_, hparts⟩
  · rw [heq]
    rfl
  · exact unionOf_congr ((flatten_singleton (distinct_parts_unionOf ts)).trans hparts)

/-- Unions are the same if they have equally many members and each member of the one is the same as
one of the other, from either side. -/
theorem unionOf_same {ss ts : List Ty} (hlength : (flatten ss).length = (flatten ts).length)
    (hsame : ∀ s ∈ flatten ss, ∃ t ∈ flatten ts, (s == t) = true ∧ (t == s) = true) :
    (unionOf ss == unionOf ts) = true := by
  unfold unionOf
  revert hlength hsame
  generalize flatten ss = ss
  generalize flatten ts = ts
  intro hlength hsame
  match ss, ts with
  | [], [] => rfl
  | [s], [t] =>
    obtain ⟨u, hu, hsu, _⟩ := hsame s List.mem_cons_self
    exact List.mem_singleton.mp hu ▸ hsu
  | s :: s' :: ss, t :: t' :: ts =>
    simp only [hlength]
    split
    next =>
      show same (union _) (union _) = true
      rw [same, Bool.and_eq_true, beq_iff_eq, allAmong_iff]
      refine ⟨hlength, fun m hm => ?_⟩
      obtain ⟨n, hn, _, hnm⟩ := hsame m hm
      exact ⟨n, hn, hnm⟩
    next => rfl

/-! ### Well-formed types -/

mutual

/-- Every union in the type, at any depth, has two or three members, no two of them the same and
none of them a union. -/
def WellFormed : Ty → Prop
  | prim _ => True
  | array t => WellFormed t
  | func ps r => WellFormedList ps ∧ WellFormed r
  | union ms => (2 ≤ ms.length ∧ ms.length ≤ unionLimit) ∧ Distinct ms ∧
      (∀ m ∈ ms, ∀ ns, m ≠ union ns) ∧ WellFormedList ms

/-- All types of a list are well formed. -/
def WellFormedList : List Ty → Prop
  | [] => True
  | t :: ts => WellFormed t ∧ WellFormedList ts

end

/-- Types are well formed one by one. -/
theorem wellFormedList_iff {ts : List Ty} : WellFormedList ts ↔ ∀ t ∈ ts, t.WellFormed := by
  induction ts with
  | nil => simp [WellFormedList]
  | cons t ts ih => simp [WellFormedList, ih]

/-- The items of something well formed are well formed. -/
theorem WellFormed.element {t : Ty} (h : t.WellFormed) : t.element.WellFormed := by
  cases t with
  | array t =>
    rw [WellFormed] at h
    exact h
  | prim | func | union => trivial

/-- The members of a well-formed type. -/
theorem WellFormed.parts_eq {t : Ty} (h : t.WellFormed) :
    t.parts = [t] ∨ ∃ ms, t = union ms ∧ t.parts = ms := by
  cases t with
  | union ms =>
    rw [WellFormed] at h
    exact Or.inr ⟨ms, rfl, partsList_eq_self h.2.2.1⟩
  | prim | array | func => exact Or.inl rfl

/-- Well-formed types have parts. -/
theorem WellFormed.parts_ne_nil {t : Ty} (h : t.WellFormed) : t.parts ≠ [] := by
  rcases h.parts_eq with hself | ⟨ms, rfl, hms⟩
  · simp [hself]
  · rw [WellFormed] at h
    rw [hms]
    exact List.ne_nil_of_length_pos (by omega)

/-- The parts of a well-formed type are well formed. -/
theorem WellFormed.of_mem_parts {t m : Ty} (h : t.WellFormed) (hm : m ∈ t.parts) :
    m.WellFormed := by
  rcases h.parts_eq with hself | ⟨ms, rfl, hms⟩
  · rw [hself, List.mem_singleton] at hm
    exact hm ▸ h
  · rw [WellFormed, wellFormedList_iff] at h
    exact h.2.2.2 m (hms ▸ hm)

/-- The union of well-formed types is well formed. -/
theorem wellFormed_unionOf {ts : List Ty} (h : ∀ t ∈ ts, t.WellFormed) :
    (unionOf ts).WellFormed := by
  have hmembers := distinctAmong_flatten ts
  have hwell : ∀ m ∈ flatten ts, m.WellFormed := by
    intro m hm
    obtain ⟨t, ht, hm⟩ := mem_partsList.mp (hmembers.among hm)
    exact (h t ht).of_mem_parts hm
  unfold unionOf
  split
  next => trivial
  next t hone => exact hwell t (hone ▸ List.mem_singleton_self t)
  next hnone hmore =>
    split
    next hfew =>
      have htwo : 2 ≤ (flatten ts).length := by
        match hflat : flatten ts with
        | [] => exact absurd hflat hnone
        | [t] => exact absurd hflat (hmore t)
        | _ :: _ :: _ => simp
      rw [WellFormed, wellFormedList_iff]
      exact ⟨⟨htwo, hfew⟩, hmembers.distinct, fun m hm => not_union_of_mem_flatten hm, hwell⟩
    next => trivial

end Ty

/-! ### Ascriptions -/

namespace Ascription

/-- The types that an author lists, in the order in which they are listed. -/
def types (names : Ascription) : List Ty := names.map (fun n => .prim n.prim)

theorem ty_eq (names : Ascription) : names.ty = Ty.unionOf names.types :=
  Ty.unionOf_congr (Ty.flatten_flatten names.types)

/-- The types that an ascription names are their own parts. -/
theorem partsList_types (names : Ascription) : Ty.partsList names.types = names.types := by
  refine Ty.partsList_eq_self (fun t ht ms => ?_)
  obtain ⟨n, _, rfl⟩ := List.mem_map.mp ht
  nofun

/-- The members of an ascription are the types that are listed. -/
theorem mem_members {names : Ascription} {t : Ty} :
    t ∈ names.members ↔ ∃ n ∈ names, t = .prim n.prim := by
  have hmembers : Ty.DistinctAmong names.types names.members :=
    names.partsList_types ▸ Ty.distinctAmong_flatten names.types
  constructor
  · intro ht
    obtain ⟨n, hn, rfl⟩ := List.mem_map.mp (hmembers.among ht)
    exact ⟨n, hn, rfl⟩
  · rintro ⟨n, hn, rfl⟩
    obtain ⟨m, hm, hsame⟩ := hmembers.covers (.prim n.prim) (List.mem_map_of_mem hn)
    exact Ty.eq_prim_of_same hsame ▸ hm

/-- The type of an ascription is well formed. -/
theorem wellFormed_ty (names : Ascription) : names.ty.WellFormed := by
  refine Ty.wellFormed_unionOf (fun t ht => ?_)
  obtain ⟨n, _, rfl⟩ := mem_members.mp ht
  trivial

end Ascription

end Croupier
