import Croupier.Proofs.Events
import Croupier.Proofs.Refused

/-!
# Names stand for what the rules prescribe

Lowering replaces names by entities, and it finds them in a scope that it carries along. The
rules of `Croupier.Proofs.Scoping` do not know of scopes: they look at where things are declared
and which frames enclose them. This module shows that both agree.

The link between the two is `Reflects`: a chain of frames holds exactly the declarations that lie
in enclosing frames, each at its distance. One lemma for each kind of event says that the frames
that lowering has after it reflect what is declared up to there, and `Traced` strings such steps
together: for a piece of a program, what was written and what became of it go along event by
event, and whatever is used on the way is what the rules prescribe.

A run that fails has come to some place in the same manner. If it fails over an undeclared name,
none of the frames there has the name, and by the link no enclosing frame declares it
(`Missing`).

> `Source.lower_resolves`: a lowered program uses and declares, event by event, what the program
> as written names, and every entity in use is the one that the rules prescribe there. If
> lowering fails over an undeclared name, the program uses this name at a place where no
> enclosing frame declares it.
-/

namespace Croupier

/-! ### Frames reflect declarations -/

/-- The frames of a scope, innermost first. -/
def Scope.frames (scope : Scope) : List Frame := scope.current :: scope.outer

/-- A function is the library's if it is taken for an intrinsic. -/
def Entity.Genuine : Entity → Prop
  | .var _ => True
  | .func f => f.Genuine

/-- Every binding of a frame is under the entity's own name, and nothing in it passes for an
intrinsic without being one. -/
def Frame.Proper (frame : Frame) : Prop :=
  ∀ b ∈ frame.bindings, b.1 = b.2.name ∧ b.2.Genuine

/-- A chain of frames holds what is declared in the enclosing frames, and no name twice in a
frame. -/
structure Reflects (frames : List Frame) (before : List (Event Entity)) : Prop where
  declared_iff : ∀ k x, (∃ l, DeclaredIn before l x k) ↔
    ∃ frame, frames[k]? = some frame ∧ (x.name, x) ∈ frame.bindings
  once : ∀ k l l' x y, DeclaredIn before l x k → DeclaredIn before l' y k → x.name = y.name →
    l = l'
  proper : ∀ frame ∈ frames, frame.Proper

namespace Reflects

variable {frame : Frame} {frames : List Frame} {before : List (Event Entity)}

/-! What each kind of event does to the frames. -/

/-- Using something declares nothing. -/
theorem used (h : Reflects frames before) (x : Entity) : Reflects frames (before ++ [.used x]) := by
  -- Using something changes nothing about what is declared where.
  have hsame : ∀ l y k, DeclaredIn (before ++ [.used x]) l y k ↔ DeclaredIn before l y k := by
    intro l y k
    rw [declaredIn_snoc]
    simp [Event.step]
  refine ⟨fun k y => ?_, fun k l l' y z => ?_, h.proper⟩
  · simp only [hsame]
    exact h.declared_iff k y
  · simp only [hsame]
    exact h.once k l l' y z

/-- A frame that is opened holds nothing yet. -/
theorem opened (h : Reflects frames before) (hempty : frame.bindings = []) :
    Reflects (frame :: frames) (before ++ [.opened]) := by
  have hshift : ∀ l x k, DeclaredIn (before ++ [.opened]) l x k ↔
      ∃ j, DeclaredIn before l x j ∧ j + 1 = k := by
    intro l x k
    rw [declaredIn_snoc]
    simp [Event.step]
  refine ⟨fun k x => ?_, fun k l l' x y hx hy => ?_, ?_⟩
  · cases k with
    | zero => simp [hshift, hempty]
    | succ k =>
      simp only [hshift, Nat.add_right_cancel_iff, exists_eq_right, List.getElem?_cons_succ]
      exact h.declared_iff k x
  · rw [hshift] at hx hy
    obtain ⟨j, hx, rfl⟩ := hx
    obtain ⟨j', hy, hj⟩ := hy
    obtain rfl : j' = j := by omega
    exact h.once j' l l' x y hx hy
  · intro inner hinner
    rcases List.mem_cons.mp hinner with rfl | hinner
    · simp [Frame.Proper, hempty]
    · exact h.proper inner hinner

theorem pushLoop {scope : Scope} (h : Reflects scope.frames before) :
    Reflects scope.pushLoop.frames (before ++ [.opened]) :=
  h.opened rfl

theorem pushFunction {scope : Scope} (h : Reflects scope.frames before) :
    Reflects scope.pushFunction.frames (before ++ [.opened]) :=
  h.opened rfl

/-- When a frame is closed, what was declared in it is declared no longer. -/
theorem closed (h : Reflects (frame :: frames) before) :
    Reflects frames (before ++ [.closed]) := by
  have hshift : ∀ l x k,
      DeclaredIn (before ++ [.closed]) l x k ↔ DeclaredIn before l x (k + 1) := by
    intro l x k
    rw [declaredIn_snoc]
    constructor
    · rintro (⟨hno, _⟩ | ⟨j, hj, hstep⟩)
      · cases hno
      · simp only [Event.step] at hstep
        split at hstep
        next => cases hstep
        next hpos =>
          obtain rfl : j = k + 1 := by
            have := Option.some.inj hstep
            omega
          exact hj
    · intro hk
      exact Or.inr ⟨k + 1, hk, by simp [Event.step]⟩
  refine ⟨fun k x => ?_, fun k l l' x y => ?_, fun outer houter => ?_⟩
  · simp only [hshift]
    exact h.declared_iff (k + 1) x
  · simp only [hshift]
    exact h.once (k + 1) l l' x y
  · exact h.proper outer (List.mem_cons_of_mem _ houter)

/-- A name that a frame does not have is bound to nothing in it. -/
theorem not_mem_of_get?_eq_none {name : String} (h : frame.get? name = none) (x : Entity) :
    (name, x) ∉ frame.bindings := by
  intro hmem
  have hne := List.lookup_eq_none_iff.mp h _ hmem
  simp at hne

/-- What is declared is bound in the innermost frame. Its name is new there, so that no frame has a
name twice. -/
theorem declared (h : Reflects (frame :: frames) before) (x : Entity)
    (hnew : frame.get? x.name = none) (hx : x.Genuine) :
    Reflects (frame.bind x.name x :: frames) (before ++ [.declared x]) := by
  have hstep : ∀ l y k, DeclaredIn (before ++ [.declared x]) l y k ↔
      (x = y ∧ l = before ∧ k = 0) ∨ DeclaredIn before l y k := by
    intro l y k
    rw [declaredIn_snoc]
    simp [Event.step]
  -- What the frame already declares has another name.
  have hother : ∀ l y, DeclaredIn before l y 0 → y.name ≠ x.name := by
    intro l y hy hname
    obtain ⟨inner, hinner, hmem⟩ := (h.declared_iff 0 y).mp ⟨l, hy⟩
    obtain rfl : frame = inner := by simpa using hinner
    rw [hname] at hmem
    exact not_mem_of_get?_eq_none hnew y hmem
  refine ⟨fun k y => ?_, fun k l l' y z hy hz hname => ?_, ?_⟩
  · cases k with
    | zero =>
      have hold := h.declared_iff 0 y
      simp only [List.getElem?_cons_zero, Option.some.injEq, exists_eq_left'] at hold ⊢
      simp only [hstep, and_true, exists_or, hold, Frame.bind, List.mem_cons, Prod.mk.injEq]
      constructor
      · rintro (⟨_, rfl, _⟩ | hmem)
        · exact Or.inl ⟨rfl, rfl⟩
        · exact Or.inr hmem
      · rintro (⟨_, rfl⟩ | hmem)
        · exact Or.inl ⟨before, rfl, rfl⟩
        · exact Or.inr hmem
    | succ k =>
      simp only [hstep, Nat.succ_ne_zero, and_false, false_or]
      exact h.declared_iff (k + 1) y
  · rw [hstep] at hy hz
    rcases hy with ⟨rfl, rfl, rfl⟩ | hy
    · rcases hz with ⟨_, hl, _⟩ | hz
      · exact hl.symm
      · exact absurd hname.symm (hother l' z hz)
    · rcases hz with ⟨rfl, rfl, rfl⟩ | hz
      · exact absurd hname (hother l y hy)
      · exact h.once k l l' y z hy hz hname
  · intro inner hinner
    rcases List.mem_cons.mp hinner with rfl | hinner
    · intro b hb
      rcases List.mem_cons.mp hb with rfl | hb
      · exact ⟨rfl, hx⟩
      · exact h.proper frame List.mem_cons_self b hb
    · exact h.proper inner (List.mem_cons_of_mem _ hinner)

/-- Declaring several things with names of their own. -/
theorem declareAll (h : Reflects (frame :: frames) before) (xs : List Entity)
    (hdistinct : (xs.map Entity.name).Nodup) (hnew : ∀ x ∈ xs, frame.get? x.name = none)
    (hgenuine : ∀ x ∈ xs, x.Genuine) :
    Reflects (xs.foldl (fun inner x => inner.bind x.name x) frame :: frames)
      (before ++ xs.map .declared) := by
  induction xs generalizing frame before with
  | nil => simpa using h
  | cons x xs ih =>
    rw [List.map_cons, List.nodup_cons] at hdistinct
    have hfirst := h.declared x (hnew x List.mem_cons_self) (hgenuine x List.mem_cons_self)
    have hrest := ih hfirst hdistinct.2 ?_ (fun y hy => hgenuine y (List.mem_cons_of_mem _ hy))
    · rw [List.append_assoc] at hrest
      exact hrest
    · intro y hy
      have hne : y.name ≠ x.name := by
        intro heq
        exact hdistinct.1 (heq ▸ List.mem_map_of_mem hy)
      rw [Frame.get?_bind, if_neg hne]
      exact hnew y (List.mem_cons_of_mem _ hy)

/-- Only what the frames hold matters, not in which order. -/
theorem of_same_bindings {other : Frame} (h : Reflects (frame :: frames) before)
    (hsame : ∀ b, b ∈ other.bindings ↔ b ∈ frame.bindings) :
    Reflects (other :: frames) before := by
  refine ⟨fun k x => ?_, h.once, ?_⟩
  · rw [h.declared_iff k x]
    cases k with
    | zero => simp [hsame]
    | succ k => simp
  · intro inner hinner
    rcases List.mem_cons.mp hinner with rfl | hinner
    · exact fun b hb => h.proper frame List.mem_cons_self b ((hsame b).mp hb)
    · exact h.proper inner (List.mem_cons_of_mem _ hinner)

/-! ### Looking up -/

/-- What the first frame that has a name binds to it is what the rules prescribe. -/
theorem prescribes (h : Reflects frames before) {name : String} {x : Entity}
    (hfound : Frame.firstOf name frames = some x) :
    Prescribes Entity.name before name x := by
  obtain ⟨k, frame, hk, hmem, hinner⟩ := Frame.firstOf_eq_some hfound
  have hname : x.name = name := (h.proper frame (List.mem_of_getElem? hk) _ hmem).1.symm
  obtain ⟨l, hl⟩ := (h.declared_iff k x).mpr ⟨frame, hk, hname ▸ hmem⟩
  refine ⟨hname, l, k, hl, fun l' y j hy hyname => ?_⟩
  -- Another declaration of the name cannot lie farther in, and the frame has just one.
  rcases Nat.lt_trichotomy j k with hlt | rfl | hgt
  · obtain ⟨inner, hj, hyin⟩ := (h.declared_iff j y).mp ⟨l', hy⟩
    rw [hyname] at hyin
    exact absurd hyin (not_mem_of_get?_eq_none (hinner j inner hlt hj) y)
  · exact Or.inl (h.once j l' l y x hy hl (hyname.trans hname.symm))
  · exact Or.inr hgt

/-- If no frame has a name, no enclosing frame declares it. -/
theorem unbound (h : Reflects frames before) {name : String}
    (hnone : Frame.firstOf name frames = none) : Unbound Entity.name before name := by
  intro l x k hx hname
  obtain ⟨frame, hk, hmem⟩ := (h.declared_iff k x).mp ⟨l, hx⟩
  rw [hname] at hmem
  exact not_mem_of_get?_eq_none (Frame.firstOf_eq_none hnone frame (List.mem_of_getElem? hk)) x hmem

/-- In the beginning there is the library. -/
theorem initial : Reflects Scope.program.frames Library.events := by
  have hnothing : Reflects [⟨[], false, false⟩] [] := by
    refine ⟨fun k x => ?_, ?_, by simp [Frame.Proper]⟩
    · cases k <;> simp [DeclaredIn]
    · intro k l l' x y hx
      obtain ⟨r, hr, _⟩ := hx
      simp at hr
  have hgenuine : ∀ x ∈ Library.bindings.map Prod.snd, x.Genuine := by
    intro x hx
    obtain ⟨⟨name, y⟩, hmem, rfl⟩ := List.mem_map.mp hx
    cases y with
    | var v => trivial
    | func f => exact Library.genuine hmem
  have hall := hnothing.declareAll (Library.bindings.map Prod.snd) (by decide)
    (fun _ _ => rfl) hgenuine
  have hlibrary : Reflects Scope.root.frames (Library.bindings.map (fun b => .declared b.2)) := by
    refine hall.of_same_bindings (fun b => ?_)
    show b ∈ Library.bindings ↔ b ∈ Library.bindings.reverse
    rw [List.mem_reverse]
  exact hlibrary.opened rfl

end Reflects

/-! ### Lowered programs -/

/-- The names of what happens to entities. -/
def spelled (events : List (Event Entity)) : List (Event String) :=
  events.map (Event.map Entity.name)

/-- Every entity in use is what the rules prescribe for its name at the place. -/
def Resolved (before events : List (Event Entity)) : Prop :=
  ∀ mid x after, events = mid ++ .used x :: after →
    Prescribes Entity.name (before ++ mid) x.name x

/-- If each of two parts is resolved where it stands, the whole is. -/
theorem Resolved.append {before events events' : List (Event Entity)}
    (h : Resolved before events) (h' : Resolved (before ++ events) events') :
    Resolved before (events ++ events') := by
  intro mid x after hsplit
  -- The use stands in the first part or in the second.
  rcases List.append_eq_append_iff.mp hsplit with ⟨l, hmid, hlater⟩ | ⟨l, hfirst, hrest⟩
  · rw [hmid, ← List.append_assoc]
    exact h' l x after hlater
  · cases l with
    | nil =>
      rw [List.append_nil] at hfirst
      rw [← hfirst]
      have hlater : events' = [] ++ .used x :: after := by simpa using hrest.symm
      simpa using h' [] x after hlater
    | cons e l =>
      simp only [List.cons_append, List.cons.injEq] at hrest
      rw [← hrest.1] at hfirst
      exact h mid x l hfirst

/-- What became of a piece of a program: it uses and declares what was written, what it uses is
what the rules prescribe, and the given frames reflect the declarations behind it. -/
structure Traced (frames : List Frame) (before : List (Event Entity))
    (written : List (Event String)) (events : List (Event Entity)) : Prop where
  names : spelled events = written
  resolved : Resolved before events
  reflects : Reflects frames (before ++ events)

namespace Traced

variable {frame : Frame} {frames frames' : List Frame} {before events events' : List (Event Entity)}
  {written written' : List (Event String)}

theorem nil (h : Reflects frames before) : Traced frames before [] [] :=
  ⟨rfl, by simp [Resolved], by simpa using h⟩

/-- Pieces of a program that follow each other are traced one by one. -/
theorem append (h : Traced frames before written events)
    (h' : Traced frames' (before ++ events) written' events') :
    Traced frames' before (written ++ written') (events ++ events') := by
  refine ⟨?_, h.resolved.append h'.resolved, ?_⟩
  · rw [spelled, List.map_append]
    exact congr (congrArg _ h.names) h'.names
  · rw [← List.append_assoc]
    exact h'.reflects

/-- An event that uses nothing needs no looking up. -/
theorem single {e : Event Entity} (he : ∀ x, e ≠ .used x) (h : Reflects frames (before ++ [e])) :
    Traced frames before [e.map Entity.name] [e] := by
  refine ⟨rfl, fun mid x after hsplit => ?_, h⟩
  have hmem : .used x ∈ [e] := by simp [hsplit]
  exact absurd (List.mem_singleton.mp hmem).symm (he x)

/-- A name that is found is traced to what the rules prescribe: the frames hold what is declared,
and the search goes from the inside out. -/
theorem used (h : Reflects frames before) {name : String} {x : Entity}
    (hfound : Frame.firstOf name frames = some x) :
    Traced frames before [.used name] [.used x] := by
  have hprescribed := h.prescribes hfound
  refine ⟨by rw [← hprescribed.1]; rfl, fun mid y after hsplit => ?_, h.used x⟩
  obtain ⟨rfl, rfl⟩ : mid = [] ∧ x = y := by
    cases mid with
    | nil =>
      simp only [List.nil_append, List.cons.injEq, Event.used.injEq] at hsplit
      exact ⟨rfl, hsplit.1⟩
    | cons e mid => simp at hsplit
  rw [List.append_nil, hprescribed.1]
  exact hprescribed

/-- A declaration is traced to what it introduces. -/
theorem declared (h : Reflects (frame :: frames) before) {name : String} {x : Entity}
    (hname : x.name = name) (hnew : frame.get? name = none) (hx : x.Genuine) :
    Traced (frame.bind name x :: frames) before [.declared name] [.declared x] := by
  subst hname
  exact single (by simp) (h.declared x hnew hx)

/-- So are several declarations in one frame, if their names are distinct and new. -/
theorem declareAll (h : Reflects (frame :: frames) before) (xs : List Entity)
    (hdistinct : (xs.map Entity.name).Nodup) (hnew : ∀ x ∈ xs, frame.get? x.name = none)
    (hgenuine : ∀ x ∈ xs, x.Genuine) :
    Traced (xs.foldl (fun inner x => inner.bind x.name x) frame :: frames) before
      (xs.map (fun x => .declared x.name)) (xs.map .declared) := by
  refine ⟨by simp [spelled, Event.map], fun mid x after hsplit => ?_,
    h.declareAll xs hdistinct hnew hgenuine⟩
  have hmem : .used x ∈ xs.map Event.declared := by simp [hsplit]
  simp at hmem

/-- Events within a frame of their own leave the frames outside as they were. -/
theorem framed {last : Scope} (hopened : Reflects frames' (before ++ [.opened]))
    (h : Traced last.frames (before ++ [.opened]) written events) (houter : last.outer = frames) :
    Traced frames before (Event.framed written) (Event.framed events) := by
  have hinside := (single (by simp) hopened).append h
  rw [Scope.frames, houter] at hinside
  exact hinside.append (single (by simp) hinside.reflects.closed)

end Traced

theorem Expr.ofEntity_events (x : Entity) : (Expr.ofEntity x).events = [.used x] := by
  cases x <;> rfl

theorem Expr.arrayOf_events (returns : Returns) (items : List Expr) :
    (Expr.arrayOf returns items).events = Expr.eventsList items := by
  cases items <;> rfl

/-- A call uses its callee in each of its forms. -/
theorem Expr.callOf_events {returns : Returns} {f : Func} {args : List Expr} (hf : f.Genuine) :
    (Expr.callOf returns f args).events = .used (.func f) :: Expr.eventsList args := by
  rcases Expr.callOf_cases returns f args with
    ⟨i, x, hi, rfl, hcall⟩ | ⟨i, x, y, hi, rfl, hcall⟩ | hcall
  · rw [hcall, hf i hi]
    simp [Expr.events, Expr.eventsList]
  · rw [hcall, hf i hi]
    simp [Expr.events, Expr.eventsList]
  · rw [hcall, Expr.events]

/-- Every name in an expression is resolved as the rules prescribe. -/
theorem PhraseLowered.traced {setting : Setting} {d : Source.Phrase} {d' : Phrase}
    (h : PhraseLowered setting d d') {before : List (Event Entity)}
    (hr : Reflects setting.scope.frames before) :
    Traced setting.scope.frames before d.events d'.events := by
  induction h generalizing before with
  | int | float | string | bool | listNil | membersNil => exact .nil hr
  | ident found =>
    rw [Phrase.events, Expr.ofEntity_events]
    exact .used hr found
  | unary _ ih | member _ ih | object _ ih => exact ih hr
  | array _ ih =>
    rw [Phrase.events, Expr.arrayOf_events]
    exact ih hr
  | binary _ _ _ ihleft ihright | subscript _ _ _ ihleft ihright
  | listCons _ _ ihleft ihright | membersCons _ _ ihleft ihright =>
    exact (ihleft hr).append (ihright (ihleft hr).reflects)
  | @call span callee args f args' hcallee _ _ _ ihcallee ihargs =>
    have hgenuine : f.Genuine := by
      obtain ⟨frame, hframe, name, hmem⟩ := hcallee.func_held
      exact (hr.proper frame hframe _ hmem).2
    rw [Phrase.events, Expr.callOf_events hgenuine]
    exact (ihcallee hr).append (ihargs (ihcallee hr).reflects)

/-! ### Statements -/

/-- Parameters are bound one after the other in the innermost frame. -/
theorem Scope.bindAll_frames (scope : Scope) (vars : List Var) :
    (scope.bindAll vars).frames =
      (vars.map Entity.var).foldl (fun inner x => inner.bind x.name x) scope.current ::
        scope.outer := by
  induction vars generalizing scope with
  | nil => rfl
  | cons v vs ih => exact ih (scope.bind v.name (.var v))

theorem Scope.bindAll_outer (scope : Scope) (vars : List Var) :
    (scope.bindAll vars).outer = scope.outer :=
  (List.cons.inj (scope.bindAll_frames vars)).2

/-- Statements bind only in the innermost frame. -/
theorem PassageLowered.outer_eq {strictness : Strictness} {scope scope' : Scope}
    {session session' : Session} {d : Source.Passage} {d' : Passage}
    (h : PassageLowered strictness scope session d d' scope' session') :
    scope'.outer = scope.outer := by
  induction h with
  | declareVar | declareFunc | bump | assign | call | breakLoop | returnValue | returnNone
  | whileLoop | forEach | forTurn | nothing | nil => rfl
  | shortBranch _ _ _ ih | block _ ih => exact ih
  | branch _ _ _ _ _ ihfirst ihrest | elseIf _ _ _ _ ihfirst ihrest | cons _ _ ihfirst ihrest =>
    exact ihrest.trans ihfirst

/-- A name that passes the check is new to the frame. -/
theorem checkUndeclared_eq_ok {scope : Scope} {name : Ident}
    (h : checkUndeclared scope name = .ok ()) : scope.current.get? name.name = none := by
  unfold checkUndeclared at h
  split at h
  next => exact absurd h (by simp [refuse])
  next hhas => simpa [Scope.has] using hhas

/-- If no parameter is reported, their names are distinct and none was seen before. -/
theorem firstRepeated_eq_none {seen : List String} {params : List Source.Param}
    (h : firstRepeated seen params = none) :
    (params.map (fun p => p.name.name)).Nodup ∧ ∀ p ∈ params, p.name.name ∉ seen := by
  induction params generalizing seen with
  | nil => simp
  | cons p ps ih =>
    rw [firstRepeated] at h
    split at h
    next => cases h
    next hfresh =>
      obtain ⟨hdistinct, hothers⟩ := ih h
      constructor
      · rw [List.map_cons, List.nodup_cons]
        refine ⟨fun hmem => ?_, hdistinct⟩
        obtain ⟨q, hq, hname⟩ := List.mem_map.mp hmem
        exact hothers q hq (by rw [hname]; exact List.mem_cons_self)
      · intro q hq
        rcases List.mem_cons.mp hq with rfl | hq
        · simpa using hfresh
        · exact fun hmem => hothers q hq (List.mem_cons_of_mem _ hmem)

/-- Parameters that pass the check have distinct names. -/
theorem checkParams_eq_ok {params : List Source.Param} (h : checkParams params = .ok ()) :
    (params.map (fun p => p.name.name)).Nodup := by
  unfold checkParams at h
  split at h
  next => exact absurd h (by simp [refuse])
  next hnone => exact (firstRepeated_eq_none hnone).1

/-- Parameters keep their names. -/
theorem paramVars_names (id : Nat) (params : List Source.Param) :
    (paramVars id params).map Var.name = params.map (fun p => p.name.name) := by
  induction params generalizing id with
  | nil => rfl
  | cons p ps ih => rw [paramVars, List.map_cons, List.map_cons, ih]

/-- The parameters come first in the frame of a function body. -/
theorem Traced.params {scope : Scope} {before : List (Event Entity)} {params : List Source.Param}
    (id : Nat) (h : Reflects scope.frames before) (hempty : scope.current.bindings = [])
    (hparams : checkParams params = .ok ()) :
    Traced (scope.bindAll (paramVars id params)).frames before
      (params.map (fun p => .declared p.name.name))
      ((paramVars id params).map (fun v => .declared (.var v))) := by
  have hnames : ((paramVars id params).map Entity.var).map Entity.name =
      params.map (fun p => p.name.name) := by
    rw [List.map_map, ← paramVars_names id params]
    rfl
  have hall := Traced.declareAll h ((paramVars id params).map Entity.var)
    (by rw [hnames]; exact checkParams_eq_ok hparams)
    (fun x _ => by simp [Frame.get?, hempty])
    (fun x hx => by
      obtain ⟨v, _, rfl⟩ := List.mem_map.mp hx
      trivial)
  have hwritten : ((paramVars id params).map Entity.var).map (fun x => Event.declared x.name) =
      params.map (fun p => .declared p.name.name) := by
    have hboth := congrArg (List.map Event.declared) hnames
    rw [List.map_map, List.map_map (l := params)] at hboth
    exact hboth
  rw [hwritten, List.map_map] at hall
  rw [Scope.bindAll_frames]
  exact hall

/-- A function is declared before its body, which has a frame with the parameters in it. -/
theorem Reflects.function {scope : Scope} {session : Session} {before : List (Event Entity)}
    {name : Ident} {params : List Source.Param} {ascribed : Option Ty} {vars : List Var} {f : Func}
    (hr : Reflects scope.frames before) (hnew : checkUndeclared scope name = .ok ())
    (hparams : checkParams params = .ok ())
    (hvars : vars = paramVars (session.nextId + 1) params)
    (hf : f = ⟨session.nextId, name.name, .declared vars ascribed⟩) :
    Traced (scope.bind name.name (.func f)).frames before [.declared name.name]
        [.declared (.func f)] ∧
      Reflects (scope.bind name.name (.func f)).pushFunction.frames
        (before ++ [.declared (.func f)] ++ [.opened]) ∧
      Traced ((scope.bind name.name (.func f)).pushFunction.bindAll vars).frames
        (before ++ [.declared (.func f)] ++ [.opened])
        (params.map (fun p => .declared p.name.name)) (vars.map (fun v => .declared (.var v))) := by
  have hgenuine : f.Genuine := by
    rw [hf]
    exact Func.genuine_declared
  have hself : Traced (scope.bind name.name (.func f)).frames before [.declared name.name]
      [.declared (.func f)] :=
    .declared hr (by rw [hf]; rfl) (checkUndeclared_eq_ok hnew) hgenuine
  have hopened := hself.reflects.pushFunction
  refine ⟨hself, hopened, ?_⟩
  rw [hvars]
  exact .params (session.nextId + 1) hopened rfl hparams

/-- The iterator comes first in the frame of a loop body. -/
theorem Traced.iterator {scope : Scope} {before : List (Event Entity)} {name : String} {v : Var}
    (h : Reflects scope.pushLoop.frames before) (hname : v.name = name) :
    Traced (scope.pushLoop.bind name (.var v)).frames before [.declared name]
      [.declared (.var v)] :=
  .declared h hname rfl trivial

/-- Every name in a program is resolved as the rules prescribe, and the scope behind a passage
reflects the declarations up to there. -/
theorem PassageLowered.traced {strictness : Strictness} {scope scope' : Scope}
    {session session' : Session} {d : Source.Passage} {d' : Passage}
    (h : PassageLowered strictness scope session d d' scope' session')
    {before : List (Event Entity)} (hr : Reflects scope.frames before) :
    Traced scope'.frames before d.events d'.events := by
  induction h generalizing before with
  | declareVar hnew hinit hv =>
    have hvalue := hinit.traced hr
    exact hvalue.append
      (.declared hvalue.reflects (by rw [hv]; rfl) (checkUndeclared_eq_ok hnew) trivial)
  | @declareFunc scope last session session' span name params _ ascribed body body' vars f result
      hnew hparams hvars hf hbody _ _ ih =>
    obtain ⟨hself, hopened, hfirst⟩ := hr.function hnew hparams hvars hf
    have houter : last.outer = (scope.bind name.name (.func f)).frames :=
      hbody.outer_eq.trans (Scope.bindAll_outer _ vars)
    have hframed := Traced.framed hopened (hfirst.append (ih hfirst.reflects)) houter
    have hown : f.params = vars := by
      rw [hf]
      rfl
    rw [Passage.events, Stmt.events, hown]
    exact hself.append hframed
  | bump htarget _ _ => exact htarget.traced hr
  | assign htarget _ hsource =>
    exact (htarget.traced hr).append (hsource.traced (htarget.traced hr).reflects)
  | call hvalue | returnValue _ hvalue => exact hvalue.traced hr
  | breakLoop | returnNone | nothing | nil => exact .nil hr
  | shortBranch htest _ _ ih =>
    have htested := htest.traced hr
    rw [Source.Passage.events, Source.Stmt.events, Source.Else.events, List.append_nil]
    exact htested.append (ih htested.reflects)
  | branch htest _ _ _ _ ihbody ihelse | elseIf htest _ _ _ ihbody ihelse =>
    have htested := htest.traced hr
    have hdone := ihbody htested.reflects
    exact htested.append (hdone.append (ihelse hdone.reflects))
  | whileLoop htest _ hbody ih =>
    have htested := htest.traced hr
    have hopened := htested.reflects.pushLoop
    exact htested.append (.framed hopened (ih hopened) hbody.outer_eq)
  | forEach hcollection hv hbody ih =>
    have hdone := hcollection.traced hr
    have hopened := hdone.reflects.pushLoop
    have hiterator := Traced.iterator hopened (congrArg Var.name hv)
    exact hdone.append (.framed hopened (hiterator.append (ih hiterator.reflects)) hbody.outer_eq)
  | forTurn hlow hhigh hstep _ hv hbody ih =>
    have hargs := PhraseLowered.listCons hlow (.listCons hhigh (.listCons hstep .listNil))
    have hdone := hargs.traced hr
    have hopened := hdone.reflects.pushLoop
    have hiterator := Traced.iterator hopened (congrArg Var.name hv)
    exact hdone.append (.framed hopened (hiterator.append (ih hiterator.reflects)) hbody.outer_eq)
  | block _ ih => exact ih hr
  | cons _ _ ihfirst ihrest => exact (ihfirst hr).append (ihrest (ihfirst hr).reflects)

/-! ### Refused programs -/

/-- A piece of a program uses a name at a place where no enclosing frame declares it. -/
def Missing (before events : List (Event String)) (n : String) : Prop :=
  ∃ mid after, events = mid ++ .used n :: after ∧ Unbound id (before ++ mid) n

namespace Missing

variable {before events : List (Event String)} {n : String}

/-- More behind a use of a missing name changes nothing about it. -/
theorem append (h : Missing before events n) (rest : List (Event String)) :
    Missing before (events ++ rest) n := by
  obtain ⟨mid, after, hsplit, hunbound⟩ := h
  exact ⟨mid, after ++ rest, by simp [hsplit], hunbound⟩

/-- A name that is missing behind a piece of a program is missing in the whole. -/
theorem behind {first : List (Event String)} (h : Missing (before ++ first) events n) :
    Missing before (first ++ events) n := by
  obtain ⟨mid, after, hsplit, hunbound⟩ := h
  refine ⟨first ++ mid, after, by simp [hsplit], ?_⟩
  rw [← List.append_assoc]
  exact hunbound

end Missing

/-- Behind a piece that was lowered. -/
theorem Traced.missing {frames : List Frame} {before events : List (Event Entity)}
    {written rest : List (Event String)} {n : String} (h : Traced frames before written events)
    (hrest : Missing (spelled (before ++ events)) rest n) :
    Missing (spelled before) (written ++ rest) n := by
  have hspelled : spelled (before ++ events) = spelled before ++ written := by
    rw [← h.names]
    exact List.map_append
  rw [hspelled] at hrest
  exact hrest.behind

/-- In a frame. -/
theorem Missing.framed {before : List (Event Entity)} {events : List (Event String)} {n : String}
    (h : Missing (spelled (before ++ [.opened])) events n) :
    Missing (spelled before) (Event.framed events) n := by
  rw [spelled, List.map_append] at h
  exact (h.append [.closed]).behind

/-- Frames are opened and closed alike, whether events are told by entities or by names. -/
theorem unclosed_spelled (events : List (Event Entity)) :
    unclosed (spelled events) = unclosed events := by
  unfold unclosed spelled
  rw [List.foldlM_map]
  congr 1
  funext count e
  cases e <;> rfl

/-- A name that no entity in an enclosing frame bears is not declared there. -/
theorem Unbound.spelled {before : List (Event Entity)} {n : String}
    (h : Unbound Entity.name before n) : Unbound id (spelled before) n := by
  rintro l a k ⟨r, hsplit, hopen⟩ rfl
  obtain ⟨l', rest, rfl, rfl, hrest⟩ := List.map_eq_append_iff.mp hsplit
  obtain ⟨e, r', rfl, he, rfl⟩ := List.map_eq_cons_iff.mp hrest
  cases e with
  | declared x =>
    have hname : x.name = a := by simpa [Event.map] using he
    exact h l' x k ⟨r', rfl, by rw [← unclosed_spelled]; exact hopen⟩ hname
  | opened | closed | used => cases he

/-- An expression that is refused over an undeclared name uses this name out of its reach. -/
theorem PhraseRefused.missing {setting : Setting} {d : Source.Phrase} {fault : Fault}
    {n : String} (h : PhraseRefused setting d fault) (hcause : fault.cause = .undeclared n)
    {before : List (Event Entity)} (hr : Reflects setting.scope.frames before) :
    Missing (spelled before) d.events n := by
  induction h generalizing before with
  | ident hnone =>
    cases hcause
    refine ⟨[], [], rfl, ?_⟩
    rw [List.append_nil]
    exact (hr.unbound hnone).spelled
  | unary _ ih | member _ ih | array _ ih | object _ ih => exact ih hcause hr
  | binaryLeft _ ih | callee _ ih | base _ ih | listFirst _ ih | membersFirst _ ih =>
    exact (ih hcause hr).append _
  | binaryRight hfirst _ ih | args hfirst _ ih | index hfirst _ ih | listRest hfirst _ ih
  | membersRest hfirst _ ih =>
    have hdone := hfirst.traced hr
    exact hdone.missing (ih hcause hdone.reflects)
  | binary _ _ hty => cases (congrArg Cause.topic hcause).symm.trans (binaryTy_topic hty)
  | call _ _ hcall => cases (congrArg Cause.topic hcause).symm.trans (callOn_topic hcall)
  | subscript _ hparts =>
    cases (congrArg Cause.topic hcause).symm.trans (checkSubscriptable_topic hparts)

/-- So does a statement that is refused over an expression in it. -/
theorem PartRefused.missing {setting : Setting} {t : Source.Passage} {fault : Fault} {n : String}
    (h : PartRefused setting t fault) (hcause : fault.cause = .undeclared n)
    {before : List (Event Entity)} (hr : Reflects setting.scope.frames before) :
    Missing (spelled before) t.events n := by
  cases h with
  | declareVar _ hpart | assignTarget hpart | branch hpart | whileLoop hpart | forEach hpart
  | forTurn _ hpart | elseIf hpart => exact (hpart.missing hcause hr).append _
  | bump hpart | call hpart | returnValue _ hpart => exact hpart.missing hcause hr
  | assignSource htarget _ hsource =>
    have hdone := htarget.traced hr
    exact hdone.missing (hsource.missing hcause hdone.reflects)

/-- What is missing in a part that lowering comes to is missing in the whole. -/
theorem Reached.missing {strictness : Strictness} {scope inner : Scope} {session start : Session}
    {d t : Source.Passage} {n : String} (h : Reached strictness scope session d inner start t)
    (ht : ∀ {before}, Reflects inner.frames before → Missing (spelled before) t.events n)
    {before : List (Event Entity)} (hr : Reflects scope.frames before) :
    Missing (spelled before) d.events n := by
  induction h generalizing before with
  | here => exact ht hr
  | funcBody hnew hparams _ ih =>
    obtain ⟨hself, _, hfirst⟩ := hr.function hnew hparams rfl rfl
    exact hself.missing (.framed (hfirst.missing (ih ht hfirst.reflects)))
  | branchBody htest _ _ ih | elseIfBody htest _ _ ih =>
    have htested := htest.traced hr
    exact htested.missing ((ih ht htested.reflects).append _)
  | branchElse htest _ hbody _ ih | elseIfElse htest _ hbody _ ih =>
    have htested := htest.traced hr
    have hdone := hbody.traced htested.reflects
    exact htested.missing (hdone.missing (ih ht hdone.reflects))
  | whileBody htest _ _ ih =>
    have htested := htest.traced hr
    exact htested.missing (.framed (ih ht htested.reflects.pushLoop))
  | forEachBody hcollection hv _ ih =>
    have hdone := hcollection.traced hr
    have hiterator := Traced.iterator hdone.reflects.pushLoop (congrArg Var.name hv)
    exact hdone.missing (.framed (hiterator.missing (ih ht hiterator.reflects)))
  | forTurnBody hlow hhigh hstep _ hv _ ih =>
    have hargs := PhraseLowered.listCons hlow (.listCons hhigh (.listCons hstep .listNil))
    have hdone := hargs.traced hr
    have hiterator := Traced.iterator hdone.reflects.pushLoop (congrArg Var.name hv)
    exact hdone.missing (.framed (hiterator.missing (ih ht hiterator.reflects)))
  | block _ ih => exact ih ht hr
  | first _ ih => exact (ih ht hr).append _
  | rest hfirst _ ih =>
    have hdone := hfirst.traced hr
    exact hdone.missing (ih ht hdone.reflects)

/-- A passage that is refused over an undeclared name uses this name out of its reach. -/
theorem PassageRefused.missing {strictness : Strictness} {scope : Scope} {session : Session}
    {d : Source.Passage} {fault : Fault} {n : String}
    (h : PassageRefused strictness scope session d fault) (hcause : fault.cause = .undeclared n)
    {before : List (Event Entity)} (hr : Reflects scope.frames before) :
    Missing (spelled before) d.events n := by
  obtain ⟨inner, start, t, hreached, hbroken⟩ := h
  have hpart := hbroken.partRefused (congrArg Cause.topic hcause)
  exact hreached.missing (hpart.missing hcause) hr

/-! ### Whole programs -/

theorem Library.events_spelled :
    spelled Library.events = Library.bindings.map (fun b => .declared b.1) ++ [.opened] := rfl

/-- The library uses nothing. -/
theorem Library.events_resolved : Resolved [] Library.events := by
  intro mid x after hsplit
  have hmem : .used x ∈ Library.events := by simp [hsplit]
  simp [Library.events] at hmem

/-- Lowering finds what the rules prescribe. A lowered program uses and declares, event by event,
what the program as written names; every entity that a node refers to is in use, and every entity
in use is the one that the rules prescribe at its place. If lowering fails over an undeclared
name, the program uses this name at a place where no enclosing frame declares it. -/
theorem Source.lower_resolves (strictness : Strictness) (tree : List Source.Stmt) :
    (∀ p, Source.lower strictness tree = .ok p →
      spelled p.events = Source.events tree ∧
      (∀ node ∈ p.nodes, ∀ x, node.entity? = some x → .used x ∈ p.events) ∧
      ∀ before x after, p.events = before ++ .used x :: after →
        Prescribes Entity.name before x.name x) ∧
    (∀ n span, Source.lower strictness tree = .error ⟨.undeclared n, span⟩ →
      ∃ before after, Source.events tree = before ++ .used n :: after ∧ Unbound id before n) := by
  constructor
  · intro p h
    obtain ⟨last, session, hlowered, _⟩ := passageLowered_of_program h
    have htraced := hlowered.traced .initial
    refine ⟨?_, fun node hnode x hx => ?_, Library.events_resolved.append htraced.resolved⟩
    · rw [Program.events, spelled, List.map_append, Source.events, ← Library.events_spelled]
      exact congrArg _ htraced.names
    · exact List.mem_append_right _ ((Stmt.used_mem_eventsList x p.body).mpr ⟨node, hnode, hx⟩)
  · intro n span h
    have hmissing := (passageRefused_of_program h).missing rfl .initial
    obtain ⟨mid, after, hsplit, hunbound⟩ := hmissing
    refine ⟨spelled Library.events ++ mid, after, ?_, hunbound⟩
    rw [Source.events, ← Library.events_spelled, List.append_assoc]
    exact congrArg _ hsplit

namespace Shadowing

open Source (label mention number declare)

def outer : Var := ⟨14, "i", .mutable, .int⟩

def inner : Var := ⟨15, "i", .mutable, .int⟩

/-- A turn up to the number of its name; the loop body sees another variable of this name. -/
def turn : Source.Stmt :=
  .forTurn .none (label "i") .none
    [number 0, .ident .none ⟨"i", ⟨1, 2⟩⟩, number 1]
    [.call .none (.call .none (mention "raise") [.ident .none ⟨"i", ⟨3, 4⟩⟩])]

def source : List Source.Stmt :=
  [declare "i" (number 3), turn]

def typed : Program :=
  ⟨[.declareVar outer (.int 3),
    .forTurn inner (.int 0) (.var outer) (.int 1) .ascending
      [.call (.call Library.raise [.var inner] .any)]], []⟩

theorem resolves_turn :
    (spelled typed.events = Source.events source ∧
      (∀ node ∈ typed.nodes, ∀ x, node.entity? = some x → .used x ∈ typed.events) ∧
      ∀ before x after, typed.events = before ++ .used x :: after →
        Prescribes Entity.name before x.name x) ∧
    ∃ before after, Source.events [turn] = before ++ .used "i" :: after ∧ Unbound id before "i" :=
  ⟨(Source.lower_resolves .strict source).1 typed rfl,
    (Source.lower_resolves .strict [turn]).2 "i" (some ⟨1, 2⟩) rfl⟩

end Shadowing

end Croupier
