/-!
# Time and cancellation

Time is counted in milliseconds from the start of a request. A value may be there only after a wait,
and a request may be cancelled. What is due at the moment of a cancellation still happens. Main
statement: `Cancellation.cuts_of_le` says that what is cut off stays cut off at any later time.
-/

namespace Studio

/-- A value that is there after a number of milliseconds. -/
structure Delayed (α : Type) where
  wait : Nat
  value : α

namespace Delayed

/-- A value that is there at once. -/
def now {α : Type} (value : α) : Delayed α := ⟨0, value⟩

/-- Change the value. -/
def map {α β : Type} (f : α → β) (delayed : Delayed α) : Delayed β :=
  ⟨delayed.wait, f delayed.value⟩

end Delayed

/-- When a request is cancelled: before it starts, at a time, or as soon as a number of actions was
handed on, whichever comes first. -/
structure Cancellation where
  beforehand : Bool := false
  time : Option Nat := none
  handedOn : Option Nat := none
deriving Inhabited

namespace Cancellation

/-- A request that is never cancelled. -/
def never : Cancellation := {}

/-- Whether the action with which the cancellation comes was handed on, when `count` actions were.
Actions are counted from one, so there is none that a cancellation after no actions comes with. -/
def reached (cancellation : Cancellation) (count : Nat) : Bool :=
  cancellation.handedOn.any fun number => 0 < number && number ≤ count

/-- Whether the cancellation came by a time, when `count` actions were handed on. -/
def fired (cancellation : Cancellation) (time count : Nat) : Bool :=
  cancellation.beforehand || cancellation.time.any (· ≤ time) ||
    cancellation.reached count

/-- Whether the cancellation comes before what is due at a time, when `count` actions were handed
on. -/
def cuts (cancellation : Cancellation) (time count : Nat) : Bool :=
  cancellation.beforehand || cancellation.time.any (· < time) ||
    cancellation.reached count

/-- The moment at which a cancellation ends a wait that began at `start`. -/
def moment (cancellation : Cancellation) (start count : Nat) : Nat :=
  if cancellation.fired start count then start else cancellation.time.getD start

/-- A cancellation that also comes at a deadline. -/
def byDeadline (cancellation : Cancellation) (deadline : Option Nat) : Cancellation :=
  { cancellation with
    time := match cancellation.time, deadline with
      | some time, some limit => some (min time limit)
      | none, limit => limit
      | time, none => time }

/-- What is cut off stays cut off at any later time. -/
theorem cuts_of_le {cancellation : Cancellation} {time later count : Nat} (h : time ≤ later)
    (cut : cancellation.cuts time count = true) : cancellation.cuts later count = true := by
  simp only [cuts, Bool.or_eq_true] at cut ⊢
  rcases cut with (cut | cut) | cut
  · exact .inl (.inl cut)
  · refine .inl (.inr ?_)
    obtain ⟨moment, hm, ht⟩ := (Option.any_eq_true ..).1 cut
    exact (Option.any_eq_true ..).2
      ⟨moment, hm, decide_eq_true (Nat.lt_of_lt_of_le (of_decide_eq_true ht) h)⟩
  · exact .inr cut

end Cancellation

end Studio
