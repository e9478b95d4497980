import Croupier.Library

/-!
# Scopes

A scope is a chain of frames, innermost first, that ends in the frame of the standard library.
Bindings are made in the innermost frame and looked up through the whole chain, so an inner
binding hides an outer one of the same name and the outer one is untouched. A frame also knows
whether it lies inside a loop and inside a function; being inside a loop is not lost where a
function is declared within it.
-/

namespace Croupier

/-- One level of names. The bindings are kept in the order in which they were made, the latest
first. -/
structure Frame where
  bindings : List (String × Entity)
  inLoop : Bool
  inFunction : Bool

namespace Frame

/-- What a frame binds to a name: the latest binding counts. -/
def get? (frame : Frame) (name : String) : Option Entity := frame.bindings.lookup name

/-- Binds a name in front of all earlier bindings. -/
def bind (frame : Frame) (name : String) (entity : Entity) : Frame :=
  { frame with bindings := (name, entity) :: frame.bindings }

/-- The last binding of a name in a frame is the one that counts. -/
theorem get?_bind (frame : Frame) (name other : String) (entity : Entity) :
    (frame.bind other entity).get? name =
      if name = other then some entity else frame.get? name := by
  unfold get? bind
  by_cases h : name = other
  · simp [h]
  · rw [if_neg h, List.lookup_cons, beq_eq_false_iff_ne.mpr h]

/-- The binding of the first frame that has one. -/
def firstOf (name : String) : List Frame → Option Entity
  | [] => none
  | frame :: frames => (frame.get? name).or (firstOf name frames)

end Frame

/-- The frames that can be seen from a place in a program, innermost first. -/
structure Scope where
  current : Frame
  outer : List Frame

namespace Scope

/-- The frame of the standard library alone. -/
def root : Scope := ⟨⟨Library.bindings, false, false⟩, []⟩

/-- Whether the innermost frame itself binds a name. -/
def has (scope : Scope) (name : String) : Bool := (scope.current.get? name).isSome

/-- What a name stands for: the binding of the innermost frame that has one. -/
def lookup (scope : Scope) (name : String) : Option Entity :=
  Frame.firstOf name (scope.current :: scope.outer)

/-- Binds a name in the innermost frame. -/
def bind (scope : Scope) (name : String) (entity : Entity) : Scope :=
  { scope with current := scope.current.bind name entity }

/-- Binds variables under their own names, from left to right. -/
def bindAll (scope : Scope) (vars : List Var) : Scope :=
  vars.foldl (fun s v => s.bind v.name (.var v)) scope

/-- Opens an empty frame. -/
def push (scope : Scope) : Scope :=
  ⟨⟨[], scope.current.inLoop, scope.current.inFunction⟩, scope.current :: scope.outer⟩

/-- Opens the frame of a loop body. -/
def pushLoop (scope : Scope) : Scope :=
  ⟨⟨[], true, scope.current.inFunction⟩, scope.current :: scope.outer⟩

/-- Opens the frame of a function body. -/
def pushFunction (scope : Scope) : Scope :=
  ⟨⟨[], scope.current.inLoop, true⟩, scope.current :: scope.outer⟩

/-- Closes the innermost frame; the last one cannot be closed. -/
def pop? (scope : Scope) : Option Scope :=
  match scope.outer with
  | [] => none
  | frame :: outer => some ⟨frame, outer⟩

/-- Whether the place lies inside a loop. -/
def inLoop (scope : Scope) : Bool := scope.current.inLoop

/-- Whether the place lies inside a function. -/
def inFunction (scope : Scope) : Bool := scope.current.inFunction

/-! ### What binding and opening do to look-ups -/

/-- A name stands for what it was bound to last. -/
theorem lookup_bind_self (scope : Scope) (name : String) (entity : Entity) :
    (scope.bind name entity).lookup name = some entity := by
  simp [lookup, bind, Frame.firstOf, Frame.get?_bind]

/-- Binding a name changes nothing about the others. -/
theorem lookup_bind_of_ne (scope : Scope) {name other : String} (entity : Entity)
    (h : name ≠ other) : (scope.bind other entity).lookup name = scope.lookup name := by
  simp [lookup, bind, Frame.firstOf, Frame.get?_bind, h]

/-- The innermost frame has the name that was bound, besides those it had. -/
theorem has_bind (scope : Scope) (name other : String) (entity : Entity) :
    (scope.bind other entity).has name = (name == other || scope.has name) := by
  by_cases h : name = other <;> simp [has, bind, Frame.get?_bind, h]

/-- A new frame hides nothing until something is bound in it. -/
theorem lookup_push (scope : Scope) (name : String) :
    scope.push.lookup name = scope.lookup name := by
  simp [lookup, push, Frame.firstOf, Frame.get?]

/-- Entering a loop does not change what names stand for. -/
theorem lookup_pushLoop (scope : Scope) (name : String) :
    scope.pushLoop.lookup name = scope.lookup name := by
  simp [lookup, pushLoop, Frame.firstOf, Frame.get?]

/-- Entering a function does not change what names stand for. -/
theorem lookup_pushFunction (scope : Scope) (name : String) :
    scope.pushFunction.lookup name = scope.lookup name := by
  simp [lookup, pushFunction, Frame.firstOf, Frame.get?]

end Scope

end Croupier
