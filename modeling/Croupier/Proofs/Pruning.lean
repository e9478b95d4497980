import Croupier.Proofs.Scoping

/-!
# Leaving out part of a program

When part of a program is left out, something that the rest names may not be declared any more.
This module says what can go wrong, in terms of events only. A stretch of events that closes
exactly the frames that it opens can be left out without disturbing the frames around it
(`Balanced`). `Pruned` relates events to what is left of them when some such stretches are left
out. A stretch takes its declarations with it; those in frames that it closes again could not be
seen behind it anyway, and the others are lost.

> `Pruned.declaredIn`: what is declared in an enclosing frame is still declared there after
> pruning, unless it is lost.
>
> `Pruned.of_used`: what is in use after pruning was in use before, behind events of which the
> events before it are what is left.
-/

namespace Croupier

open Event (framed)

variable {α : Type}

/-! ### Counting frames -/

/-- How many frames are open behind events, if `count` were before them. -/
def framesAfter (count : Nat) (events : List (Event α)) : Option Nat :=
  events.foldlM Event.step count

theorem framesAfter_cons (count : Nat) (e : Event α) (events : List (Event α)) :
    framesAfter count (e :: events) = (e.step count).bind (fun next => framesAfter next events) :=
  List.foldlM_cons

/-- Frames are counted through two parts one after the other. -/
theorem framesAfter_append (count : Nat) (first rest : List (Event α)) :
    framesAfter count (first ++ rest) =
      (framesAfter count first).bind (fun next => framesAfter next rest) :=
  List.foldlM_append

/-- Frames that were open all along make no difference. -/
theorem framesAfter_add {count stop : Nat} {events : List (Event α)}
    (h : framesAfter count events = some stop) (more : Nat) :
    framesAfter (count + more) events = some (stop + more) := by
  induction events generalizing count with
  | nil =>
    cases h
    rfl
  | cons e events ih =>
    rw [framesAfter_cons, Option.bind_eq_some_iff] at h
    obtain ⟨next, hstep, hrest⟩ := h
    have hstep' : e.step (count + more) = some (next + more) := by
      cases e with
      | opened =>
        cases hstep
        simp only [Event.step, Option.some.injEq]
        omega
      | closed =>
        simp only [Event.step] at hstep ⊢
        split at hstep
        next => cases hstep
        next hpos =>
          cases hstep
          rw [if_neg (by omega), Option.some.injEq]
          omega
      | declared | used =>
        cases hstep
        rfl
    rw [framesAfter_cons, hstep']
    exact ih hrest

/-! ### Balanced events -/

/-- The events close the frames that they open, and no others. -/
def Balanced (events : List (Event α)) : Prop := ∀ count, framesAfter count events = some count

namespace Balanced

variable {first rest inner : List (Event α)}

theorem nil : Balanced ([] : List (Event α)) := fun _ => rfl

/-- Balanced events may follow each other. -/
theorem append (hfirst : Balanced first) (hrest : Balanced rest) : Balanced (first ++ rest) := by
  intro count
  rw [framesAfter_append, hfirst count]
  exact hrest count

theorem declared (a : α) : Balanced [.declared a] := fun _ => rfl

/-- Uses open and close nothing. -/
theorem of_uses (h : ∀ e ∈ first, ∃ a, e = .used a) : Balanced first := by
  intro count
  induction first with
  | nil => rfl
  | cons e events ih =>
    obtain ⟨a, rfl⟩ := h e (List.mem_cons_self ..)
    exact ih (fun e he => h e (List.mem_cons_of_mem _ he))

/-- A frame around balanced events is closed again. -/
theorem framed (h : Balanced inner) : Balanced (framed inner) := by
  intro count
  show framesAfter (count + 1) (inner ++ [.closed]) = some count
  rw [framesAfter_append, h (count + 1)]
  rfl

/-- Behind any part of balanced events, all frames opened there are closed in the end. -/
theorem unclosed_eq_zero (h : Balanced (first ++ rest)) {k : Nat} (hk : unclosed rest = some k) :
    k = 0 := by
  have hall := h 0
  rw [framesAfter_append, Option.bind_eq_some_iff] at hall
  obtain ⟨count, _, hrest⟩ := hall
  have hshift := framesAfter_add hk count
  rw [Nat.zero_add, hrest, Option.some.injEq] at hshift
  omega

end Balanced

/-! ### What can be seen behind events -/

/-- A declaration that can be seen behind two stretches of events stands in one of them, and can
be seen behind that one. -/
theorem declaredIn_append {first rest l : List (Event α)} {a : α} {k : Nat}
    (h : DeclaredIn (first ++ rest) l a k) :
    (∃ l' j, DeclaredIn first l' a j) ∨ ∃ l', DeclaredIn rest l' a k := by
  obtain ⟨r, hsplit, hopen⟩ := h
  rcases List.append_eq_append_iff.mp hsplit with ⟨m, rfl, hrest⟩ | ⟨m, hfirst, hrest⟩
  · exact Or.inr ⟨m, r, hrest, hopen⟩
  · cases m with
    | nil => exact Or.inr ⟨[], r, hrest.symm, hopen⟩
    | cons e m =>
      simp only [List.cons_append, List.cons.injEq] at hrest
      obtain ⟨rfl, rfl⟩ := hrest
      have hopen' : framesAfter 0 (m ++ rest) = some k := hopen
      rw [framesAfter_append, Option.bind_eq_some_iff] at hopen'
      obtain ⟨j, hj, _⟩ := hopen'
      exact Or.inl ⟨l, j, m, hfirst, hj⟩

/-- Nothing that the events declare can be seen behind them. -/
def Hidden (events : List (Event α)) : Prop := ∀ l a k, ¬ DeclaredIn events l a k

namespace Hidden

variable {first rest inner : List (Event α)}

/-- If nothing can be seen behind either of two parts, nothing can be seen behind both. -/
theorem append (hfirst : Hidden first) (hrest : Hidden rest) : Hidden (first ++ rest) := by
  intro l a k h
  rcases declaredIn_append h with ⟨l', j, h⟩ | ⟨l', h⟩
  · exact hfirst l' a j h
  · exact hrest l' a k h

/-- Uses declare nothing. -/
theorem of_uses (h : ∀ e ∈ first, ∃ a, e = .used a) : Hidden first := by
  rintro l a k ⟨r, rfl, _⟩
  obtain ⟨b, hb⟩ := h (.declared a) (by simp)
  cases hb

/-- What is declared in a frame cannot be seen once the frame is closed. -/
theorem framed (h : Balanced inner) : Hidden (framed inner) := by
  rintro l a k ⟨r, hsplit, hopen⟩
  -- The declaration is not the first event, and what is behind it ends with the frame.
  cases l with
  | nil => cases hsplit
  | cons e l =>
    simp only [Event.framed, List.cons_append, List.cons.injEq] at hsplit
    rcases List.eq_nil_or_concat r with rfl | ⟨r', last, rfl⟩
    · have hends := List.append_inj' hsplit.2 rfl
      simp at hends
    · rw [List.concat_eq_append, ← List.cons_append, ← List.append_assoc] at hsplit
      obtain ⟨hinner, hlast⟩ := List.append_inj' hsplit.2 rfl
      rw [List.concat_eq_append, ← hlast, unclosed_snoc, Option.bind_eq_some_iff] at hopen
      obtain ⟨j, hj, hstep⟩ := hopen
      have hbalanced : Balanced ((l ++ [.declared a]) ++ r') := by
        rw [List.append_assoc]
        exact hinner ▸ h
      rw [hbalanced.unclosed_eq_zero hj] at hstep
      cases hstep

end Hidden

/-! ### Pruning -/

/-- `few` is what is left of `many` when balanced stretches are left out whose visible
declarations are all `lost`. -/
inductive Pruned (lost : α → Prop) : List (Event α) → List (Event α) → Prop where
  | nil : Pruned lost [] []
  | keep {many few : List (Event α)} (e : Event α) (h : Pruned lost many few) :
    Pruned lost (e :: many) (e :: few)
  | drop {gone many few : List (Event α)} (hbalanced : Balanced gone)
      (hlost : ∀ l a k, DeclaredIn gone l a k → lost a) (h : Pruned lost many few) :
    Pruned lost (gone ++ many) few

namespace Pruned

variable {lost : α → Prop} {many few many' few' gone : List (Event α)}

/-- Nothing has to be left out. -/
theorem refl (events : List (Event α)) : Pruned lost events events := by
  induction events with
  | nil => exact .nil
  | cons e events ih => exact .keep e ih

/-- Parts that follow each other are pruned one by one. -/
theorem append (h : Pruned lost many few) (h' : Pruned lost many' few') :
    Pruned lost (many ++ many') (few ++ few') := by
  induction h with
  | nil => exact h'
  | keep e _ ih => exact .keep e ih
  | drop hbalanced hlost _ ih =>
    rw [List.append_assoc]
    exact .drop hbalanced hlost ih

/-- What is in a frame can be pruned inside of it. -/
theorem framed (h : Pruned lost many few) : Pruned lost (framed many) (framed few) :=
  .keep .opened (h.append (.refl [.closed]))

/-- A stretch that is left out as a whole. -/
theorem all (hbalanced : Balanced gone) (hlost : ∀ l a k, DeclaredIn gone l a k → lost a) :
    Pruned lost gone [] := by
  have h := Pruned.drop hbalanced hlost .nil
  rwa [List.append_nil] at h

/-- Balanced events may be left out without loss if nothing that they declare can be seen. -/
theorem hidden (hbalanced : Balanced gone) (hhidden : Hidden gone) : Pruned lost gone [] :=
  .all hbalanced (fun l a k h => absurd h (hhidden l a k))

/-- Uses can be left out one by one. -/
theorem of_uses (h : ∀ e ∈ many, ∃ a, e = .used a) (hsub : few.Sublist many) :
    Pruned lost many few := by
  induction hsub with
  | slnil => exact .nil
  | @cons few many e _ ih =>
    have hone : ∀ e' ∈ [e], ∃ a, e' = .used a := by
      intro e' he'
      exact h e' (List.mem_cons.mpr (Or.inl (List.mem_singleton.mp he')))
    have hrest := ih (fun e' he' => h e' (List.mem_cons_of_mem _ he'))
    exact (hidden (.of_uses hone) (.of_uses hone)).append hrest
  | cons_cons e _ ih => exact .keep e (ih (fun e' he' => h e' (List.mem_cons_of_mem _ he')))

/-- Pruning leaves the frames alone. -/
theorem framesAfter_eq (h : Pruned lost many few) (count : Nat) :
    framesAfter count many = framesAfter count few := by
  induction h generalizing count with
  | nil => rfl
  | keep e _ ih =>
    rw [framesAfter_cons, framesAfter_cons]
    congr 1
    funext next
    exact ih next
  | drop hbalanced _ _ ih =>
    rw [framesAfter_append, hbalanced count]
    exact ih count

/-- What is in use after pruning was in use before, behind events of which the events before it
are what is left. -/
theorem of_used {before' after' : List (Event α)} {a : α}
    (h : Pruned lost many (before' ++ .used a :: after')) :
    ∃ before after, many = before ++ .used a :: after ∧ Pruned lost before before' := by
  generalize hfew : before' ++ .used a :: after' = few at h
  induction h generalizing before' with
  | nil => simp at hfew
  | keep e hkept ih =>
    cases before' with
    | nil =>
      cases hfew
      exact ⟨[], _, rfl, .nil⟩
    | cons e' before' =>
      simp only [List.cons_append, List.cons.injEq] at hfew
      obtain ⟨before, after, hmany, hpruned⟩ := ih hfew.2
      exact ⟨e :: before, after, by rw [hmany]; rfl, hfew.1 ▸ .keep e' hpruned⟩
  | @drop gone _ _ hbalanced hlost _ ih =>
    obtain ⟨before, after, hmany, hpruned⟩ := ih hfew
    refine ⟨gone ++ before, after, ?_, .drop hbalanced hlost hpruned⟩
    rw [hmany, List.append_assoc]

/-- What is declared in an enclosing frame is still declared there after pruning, unless it is
lost. -/
theorem declaredIn (h : Pruned lost many few) {l : List (Event α)} {a : α} {k : Nat}
    (hdeclared : DeclaredIn many l a k) : (∃ l', DeclaredIn few l' a k) ∨ lost a := by
  induction h generalizing l with
  | nil =>
    obtain ⟨r, hsplit, _⟩ := hdeclared
    simp at hsplit
  | keep e hkept ih =>
    obtain ⟨r, hsplit, hopen⟩ := hdeclared
    cases l with
    | nil =>
      -- The declaration is kept, and what is left behind it opens and closes the same frames.
      cases hsplit
      exact Or.inl ⟨[], _, rfl, (hkept.framesAfter_eq 0).symm.trans hopen⟩
    | cons e' l =>
      simp only [List.cons_append, List.cons.injEq] at hsplit
      rcases ih ⟨r, hsplit.2, hopen⟩ with ⟨l', r', hfew, hopen'⟩ | hlost
      · exact Or.inl ⟨e :: l', r', by rw [hfew]; rfl, hopen'⟩
      · exact Or.inr hlost
  | drop _ hlost _ ih =>
    rcases declaredIn_append hdeclared with ⟨l', j, hgone⟩ | ⟨l', hlater⟩
    · exact Or.inr (hlost l' a j hgone)
    · exact ih hlater

end Pruned

end Croupier
