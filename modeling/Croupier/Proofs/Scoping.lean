/-!
# Scoping rules

What a name stands for is settled by where it is written, and this module says how, without any
table being kept. A program is taken as the sequence of what happens in it to names, in the order
in which it is written: frames are opened and closed, things are declared, things are used. Such
a sequence is a list of `Event`s.

Of the frames that are opened somewhere before a place, some are closed before it too. The others
enclose the place. A declaration before the place lies in an enclosing frame exactly when what
stands between the two closes no frame that it has not opened itself; and the number of frames
that it leaves open is how far out the declaration lies (`DeclaredIn`). The rule is then

> `Prescribes`: a name stands for what is declared under it, before the place, in the innermost
> enclosing frame that has such a declaration.

Nothing is said about how an implementation finds it.
-/

namespace Croupier

/-- What happens to names in a program. -/
inductive Event (α : Type) where
  /-- A frame begins. -/
  | opened
  /-- The innermost frame ends. -/
  | closed
  /-- Something is declared in the innermost frame. -/
  | declared (a : α)
  /-- Something is named. -/
  | used (a : α)
deriving DecidableEq

namespace Event

variable {α β : Type}

/-- The same with other names. -/
def map (f : α → β) : Event α → Event β
  | opened => opened
  | closed => closed
  | declared a => declared (f a)
  | used a => used (f a)

/-- Events within a frame of their own. -/
def framed (inner : List (Event α)) : List (Event α) := opened :: (inner ++ [closed])

/-- How many frames are open after an event, if `count` were before it. A frame that is not there
cannot be closed. -/
def step (count : Nat) : Event α → Option Nat
  | opened => some (count + 1)
  | closed => if count = 0 then none else some (count - 1)
  | declared _ | used _ => some count

end Event

section Rules

variable {α : Type}

/-- How many of the frames that the events open they leave open, provided that they close no
others. -/
def unclosed (events : List (Event α)) : Option Nat := events.foldlM Event.step 0

/-- Seen from behind `before`, the `k`-th enclosing frame, counted outward from 0, has a
declaration of `a`, which stands right behind `l`. -/
def DeclaredIn (before l : List (Event α)) (a : α) (k : Nat) : Prop :=
  ∃ r, before = l ++ .declared a :: r ∧ unclosed r = some k

/-- Behind `before`, the name `n` stands for `a`: there is a declaration of `a` under this name
in an enclosing frame, and all others of this name in enclosing frames lie farther out. -/
def Prescribes (name : α → String) (before : List (Event α)) (n : String) (a : α) : Prop :=
  name a = n ∧ ∃ l k, DeclaredIn before l a k ∧
    ∀ l' b j, DeclaredIn before l' b j → name b = n → l' = l ∨ k < j

/-- Behind `before`, the name `n` stands for nothing: no enclosing frame declares it. -/
def Unbound (name : α → String) (before : List (Event α)) (n : String) : Prop :=
  ∀ l a k, DeclaredIn before l a k → name a ≠ n

/-- The rules never prescribe two things. -/
theorem Prescribes.unique {name : α → String} {before : List (Event α)} {n : String} {a b : α}
    (ha : Prescribes name before n a) (hb : Prescribes name before n b) : a = b := by
  obtain ⟨hna, l, k, ⟨r, hr, hrk⟩, hinner⟩ := ha
  obtain ⟨hnb, l', j, ⟨r', hr', hrj⟩, hinner'⟩ := hb
  -- Neither declaration lies farther out than the other, so they are one.
  rcases hinner l' b j ⟨r', hr', hrj⟩ hnb with heq | hkj
  · rw [hr, heq] at hr'
    have hsame := List.append_cancel_left hr'
    simp only [List.cons.injEq, Event.declared.injEq] at hsame
    exact hsame.1
  · rcases hinner' l a k ⟨r, hr, hrk⟩ hna with heq | hjk
    · rw [hr, heq] at hr'
      have hsame := List.append_cancel_left hr'
      simp only [List.cons.injEq, Event.declared.injEq] at hsame
      exact hsame.1
    · omega

/-- The rules prescribe nothing for a name that no enclosing frame declares. -/
theorem Unbound.not_prescribes {name : α → String} {before : List (Event α)} {n : String}
    (h : Unbound name before n) (a : α) : ¬ Prescribes name before n a := by
  rintro ⟨hname, l, k, hdeclared, _⟩
  exact h l a k hdeclared hname

/-! ### One event at a time -/

/-- Behind one more event as many frames are open as the event leaves. -/
theorem unclosed_snoc (events : List (Event α)) (e : Event α) :
    unclosed (events ++ [e]) = (unclosed events).bind (fun count => e.step count) := by
  unfold unclosed
  rw [List.foldlM_append]
  show (events.foldlM Event.step 0).bind (fun count => [e].foldlM Event.step count) = _
  congr 1
  funext count
  show (e.step count).bind some = e.step count
  cases e.step count <;> rfl

/-- After one more event, the declarations in enclosing frames are those from before, as far as
their frames still enclose, and what the event itself declares. -/
theorem declaredIn_snoc {before l : List (Event α)} {e : Event α} {a : α} {k : Nat} :
    DeclaredIn (before ++ [e]) l a k ↔
      (e = .declared a ∧ l = before ∧ k = 0) ∨
        ∃ j, DeclaredIn before l a j ∧ e.step j = some k := by
  constructor
  · rintro ⟨r, hsplit, hopen⟩
    -- The last event is the declaration itself, or it is the last one behind it.
    rcases List.eq_nil_or_concat r with rfl | ⟨r', e', rfl⟩
    · have hends := List.append_inj' hsplit rfl
      have hk : some 0 = some k := hopen
      refine Or.inl ⟨?_, hends.1.symm, (Option.some.inj hk).symm⟩
      simpa using hends.2
    · rw [List.concat_eq_append, ← List.cons_append, ← List.append_assoc] at hsplit
      have hends := List.append_inj' hsplit rfl
      have he : e = e' := by simpa using hends.2
      rw [List.concat_eq_append, unclosed_snoc, Option.bind_eq_some_iff] at hopen
      obtain ⟨j, hj, hstep⟩ := hopen
      rw [he]
      exact Or.inr ⟨j, ⟨r', hends.1, hj⟩, hstep⟩
  · rintro (⟨rfl, rfl, rfl⟩ | ⟨j, ⟨r, rfl, hj⟩, hstep⟩)
    · exact ⟨[], rfl, rfl⟩
    · refine ⟨r ++ [e], by simp, ?_⟩
      rw [unclosed_snoc, hj]
      exact hstep

end Rules

end Croupier
