import Croupier.Proofs.Symmetry

/-!
# Unions are canonical

A union is built from a list of types, and what comes out depends on the list only through its
members: neither their order, nor how often they occur, nor how they were grouped into unions
before makes a difference up to sameness. Two lists are compared by `Ty.SameMembers`, which says
that each member of the one is the same as some member of the other.

Keeping one of each kind leaves equally many members on both sides. This is where sameness has to be
an equivalence (`Croupier.Proofs.Symmetry`): members of one kind are recognised whichever of them
was met first, also where they are arrays or functions with unions of their own inside.

A group of types may be replaced by its union beforehand as long as the union keeps all of its
members. A union that has become `any` has lost them.

> `Ty.unionOf_canonical`: unions of well-formed types are well formed and depend on the members
> only.
-/

namespace Croupier

namespace Ty

/-- A well-formed type has no union with repeated members. -/
theorem WellFormed.irredundant {t : Ty} (h : t.WellFormed) : t.Irredundant := by
  induction t using inductionOn with
  | hprim => trivial
  | harray t ih =>
    rw [WellFormed] at h
    exact ih h
  | hfunc ps r ihps ihr =>
    rw [WellFormed, wellFormedList_iff] at h
    rw [Irredundant, irredundantList_iff]
    exact ⟨fun p hp => ihps p hp (h.1 p hp), ihr h.2⟩
  | hunion ms ih =>
    rw [WellFormed, wellFormedList_iff] at h
    obtain ⟨_, hdistinct, _, hms⟩ := h
    rw [Irredundant, irredundantList_iff]
    exact ⟨hdistinct, fun m hm => ih m hm (hms m hm)⟩

/-- Members of well-formed types say nothing twice. -/
theorem irredundant_of_mem_partsList {ts : List Ty} (hts : ∀ t ∈ ts, t.WellFormed) {m : Ty}
    (hm : m ∈ partsList ts) : m.Irredundant := by
  obtain ⟨t, ht, hm⟩ := mem_partsList.mp hm
  exact ((hts t ht).of_mem_parts hm).irredundant

theorem irredundant_of_mem_flatten {ts : List Ty} (hts : ∀ t ∈ ts, t.WellFormed) {m : Ty}
    (hm : m ∈ flatten ts) : m.Irredundant :=
  irredundant_of_mem_partsList hts ((distinctAmong_flatten ts).among hm)

/-! ### Members in common -/

/-- Each member of the first list is the same as some member of the second. -/
def MembersAmong (ss ts : List Ty) : Prop :=
  ∀ m ∈ partsList ss, ∃ n ∈ partsList ts, (m == n) = true

/-- The lists have the same members, whatever their order, their number and their grouping. -/
def SameMembers (ss ts : List Ty) : Prop := MembersAmong ss ts ∧ MembersAmong ts ss

instance (ss ts : List Ty) : Decidable (MembersAmong ss ts) :=
  inferInstanceAs (Decidable (∀ m ∈ partsList ss, ∃ n ∈ partsList ts, (m == n) = true))

instance (ss ts : List Ty) : Decidable (SameMembers ss ts) :=
  inferInstanceAs (Decidable (MembersAmong ss ts ∧ MembersAmong ts ss))

theorem MembersAmong.of_subset {ss ts : List Ty} (h : ss ⊆ ts) : MembersAmong ss ts := by
  intro m hm
  obtain ⟨t, ht, hm⟩ := mem_partsList.mp hm
  exact ⟨m, mem_partsList.mpr ⟨t, h ht, hm⟩, same_self m⟩

/-- Having members among others is transitive, since comparing them is. -/
theorem MembersAmong.trans {ss ts us : List Ty} (hst : MembersAmong ss ts)
    (htu : MembersAmong ts us) : MembersAmong ss us := by
  intro m hm
  obtain ⟨n, hn, hmn⟩ := hst m hm
  obtain ⟨k, hk, hnk⟩ := htu n hn
  exact ⟨k, hk, same_trans hmn hnk⟩

/-- Two lists have their members among others if each of them has. -/
theorem MembersAmong.append {ss ss' ts : List Ty} (h : MembersAmong ss ts)
    (h' : MembersAmong ss' ts) : MembersAmong (ss ++ ss') ts := by
  intro m hm
  obtain ⟨t, ht, hm⟩ := mem_partsList.mp hm
  rcases List.mem_append.mp ht with ht | ht
  · exact h m (mem_partsList.mpr ⟨t, ht, hm⟩)
  · exact h' m (mem_partsList.mpr ⟨t, ht, hm⟩)

namespace SameMembers

/-- The order of types does not matter to their members. -/
theorem of_perm {ss ts : List Ty} (h : ss.Perm ts) : SameMembers ss ts :=
  ⟨.of_subset h.subset, .of_subset h.symm.subset⟩

theorem trans {ss ts us : List Ty} (hst : SameMembers ss ts) (htu : SameMembers ts us) :
    SameMembers ss us :=
  ⟨hst.1.trans htu.1, htu.2.trans hst.2⟩

/-- Other types may stand behind both lists. -/
theorem behind {ss ts : List Ty} (h : SameMembers ss ts) (rest : List Ty) :
    SameMembers (ss ++ rest) (ts ++ rest) := by
  constructor
  · exact (h.1.trans (.of_subset (List.subset_append_left _ _))).append
      (.of_subset (List.subset_append_right _ _))
  · exact (h.2.trans (.of_subset (List.subset_append_left _ _))).append
      (.of_subset (List.subset_append_right _ _))

end SameMembers

/-! ### Keeping one of each -/

/-- What is left by flattening is found on the other side among what is left there. -/
theorem MembersAmong.flatten {ss ts : List Ty} (hts : ∀ t ∈ ts, t.WellFormed)
    (h : MembersAmong ss ts) : ∀ m ∈ flatten ss, ∃ n ∈ flatten ts, (m == n) = true := by
  intro m hm
  obtain ⟨n, hn, hmn⟩ := h m ((distinctAmong_flatten ss).among hm)
  obtain ⟨k, hk, hkn⟩ := (distinctAmong_flatten ts).covers n hn
  have hnk := same_symm (irredundant_of_mem_flatten hts hk)
    (irredundant_of_mem_partsList hts hn) hkn
  exact ⟨k, hk, same_trans hmn hnk⟩

/-- With members among others there are no more of them once each kind is kept once. -/
theorem MembersAmong.length_flatten_le {ss ts : List Ty} (hss : ∀ s ∈ ss, s.WellFormed)
    (hts : ∀ t ∈ ts, t.WellFormed) (h : MembersAmong ss ts) :
    (Ty.flatten ss).length ≤ (Ty.flatten ts).length := by
  refine (distinctAmong_flatten ss).distinct.length_le (fun m hm n hn => ?_) (h.flatten hts)
  exact same_comm (irredundant_of_mem_flatten hss hm) (irredundant_of_mem_flatten hts hn)

/-- The union of types depends on their members only. -/
theorem SameMembers.unionOf_same {ss ts : List Ty} (hss : ∀ s ∈ ss, s.WellFormed)
    (hts : ∀ t ∈ ts, t.WellFormed) (h : SameMembers ss ts) :
    (unionOf ss == unionOf ts) = true := by
  refine Ty.unionOf_same
    (Nat.le_antisymm (h.1.length_flatten_le hss hts) (h.2.length_flatten_le hts hss)) ?_
  intro m hm
  obtain ⟨n, hn, hmn⟩ := h.1.flatten hts m hm
  exact ⟨n, hn, hmn,
    same_symm (irredundant_of_mem_flatten hss hm) (irredundant_of_mem_flatten hts hn) hmn⟩

/-! ### Groups -/

/-- A union that has room for all members has the members of what it is made of. -/
theorem sameMembers_unionOf {group : List Ty} (hgroup : ∀ t ∈ group, t.WellFormed)
    (hsome : group ≠ []) (hfew : (flatten group).length ≤ unionLimit) :
    SameMembers [unionOf group] group := by
  have hmembers := distinctAmong_flatten group
  have hparts : partsList [unionOf group] = flatten group := by
    rw [partsList_singleton]
    rcases unionOf_cases group with ⟨hnone | hmany, _⟩ | ⟨_, hparts⟩
    · -- Well-formed types have members, so something is left by flattening.
      obtain ⟨t, ht⟩ := List.exists_mem_of_ne_nil _ hsome
      obtain ⟨m, hm⟩ := List.exists_mem_of_ne_nil _ (hgroup t ht).parts_ne_nil
      obtain ⟨k, hk, _⟩ := hmembers.covers m (mem_partsList.mpr ⟨t, ht, hm⟩)
      rw [hnone] at hk
      cases hk
    · omega
    · exact hparts
  constructor
  · intro m hm
    rw [hparts] at hm
    exact ⟨m, hmembers.among hm, same_self m⟩
  · intro n hn
    obtain ⟨m, hm, hmn⟩ := hmembers.covers n hn
    rw [hparts]
    exact ⟨m, hm, same_symm (irredundant_of_mem_flatten hgroup hm)
      (irredundant_of_mem_partsList hgroup hn) hmn⟩

/-- The union of well-formed types is well formed, and it is the same for all lists with the same
members. In particular, any of the types may be replaced by their union before the rest is added,
provided that they have no more members than a union can have. -/
theorem unionOf_canonical {ts : List Ty} (hts : ∀ t ∈ ts, t.WellFormed) :
    (unionOf ts).WellFormed ∧
      (∀ us : List Ty, (∀ u ∈ us, u.WellFormed) → SameMembers ts us →
        (unionOf ts == unionOf us) = true) ∧
      ∀ group rest us : List Ty, ts.Perm (group ++ rest) → group ≠ [] →
        (flatten group).length ≤ unionLimit → us.Perm (unionOf group :: rest) →
          (unionOf ts == unionOf us) = true := by
  refine ⟨wellFormed_unionOf hts, fun us hus h => h.unionOf_same hts hus, ?_⟩
  intro group rest us hperm hsome hfew hus
  have hboth : ∀ t ∈ group ++ rest, t.WellFormed := fun t ht => hts t (hperm.symm.subset ht)
  rw [List.forall_mem_append] at hboth
  obtain ⟨hgroup, hrest⟩ := hboth
  have hwell : ∀ u ∈ us, u.WellFormed := by
    intro u hu
    rcases List.mem_cons.mp (hus.subset hu) with rfl | hu
    · exact wellFormed_unionOf hgroup
    · exact hrest u hu
  have hreplaced : SameMembers (unionOf group :: rest) (group ++ rest) :=
    (sameMembers_unionOf hgroup hsome hfew).behind rest
  have hmembers : SameMembers us ts :=
    ((SameMembers.of_perm hus).trans hreplaced).trans (.of_perm hperm.symm)
  exact SameMembers.unionOf_same hts hwell ⟨hmembers.2, hmembers.1⟩

/-- A group of four kinds is lost in `any`, and what it had comes back as a kind of its own. -/
example : unionOf [.int, .float, .boolean, .string, .int] = any ∧
    unionOf [unionOf [.int, .float, .boolean, .string], .int] = union [any, .int] :=
  ⟨rfl, rfl⟩

end Ty

namespace Regrouped

/-- `[int | float]`. -/
def numbers : Ty := .array (.union [.int, .float])

/-- `[float | int]`. -/
def figures : Ty := .array (.union [.float, .int])

/-- `[int | float]`, `string | boolean` and `[float | int]`, which are three kinds of members. -/
def types : List Ty := [numbers, .union [.string, .boolean], figures]

/-- The arrays are of one kind, wherever they stand and whichever of them was met first. -/
theorem unionOf_canonical_numbers : (∀ t ∈ types, t.WellFormed) ∧ (Ty.unionOf types).WellFormed ∧
    (Ty.unionOf types == Ty.unionOf [.string, .union [.boolean, figures], .string]) = true ∧
    (Ty.unionOf types == Ty.unionOf [.union [.string, .boolean],
      Ty.unionOf [numbers, figures]]) = true := by
  have hdiffer : (Ty.int == Ty.float) = false ∧ (Ty.float == Ty.int) = false ∧
      (Ty.string == Ty.boolean) = false ∧
      (Ty.boolean == Ty.array (.union [.float, .int])) = false := by
    decide
  have htypes : ∀ t ∈ types, t.WellFormed := by
    simp [types, numbers, figures, Ty.WellFormed, Ty.WellFormedList, Ty.Distinct, Ty.unionLimit,
      hdiffer]
  have hothers : ∀ u ∈ [Ty.string, .union [.boolean, figures], .string], u.WellFormed := by
    simp [figures, Ty.WellFormed, Ty.WellFormedList, Ty.Distinct, Ty.unionLimit, hdiffer]
  obtain ⟨hwell, hsame, hgroup⟩ := Ty.unionOf_canonical htypes
  refine ⟨htypes, hwell, hsame _ hothers (by decide), ?_⟩
  refine hgroup [numbers, figures] [.union [.string, .boolean]] _ ?_ (by simp) (by decide) ?_
  · exact (List.Perm.swap _ _ _).cons _
  · exact List.Perm.swap _ _ _

end Regrouped

end Croupier
