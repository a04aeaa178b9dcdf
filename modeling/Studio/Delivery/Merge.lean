import Studio.Action
import Studio.Capability
import Studio.Delivery.Split
import Studio.Music.Note
import Studio.Session.Snapshot

/-!
# Merging contributions

Structural actions and the contributions of the other capabilities become one list. The notes of a
contribution go into the last action that attaches notes to the target, or into a new one behind the
last action on the target; its actions come behind all structural ones and name the target as their
track. `merge_sortBy` says that the order in which the contributions are given does not matter
beyond their capabilities.
-/

namespace Studio

/-- What one capability contributes to a session: actions, and the notes that they describe. -/
structure Contribution where
  capability : Capability
  actions : List Action
  notes : List Music.Note

namespace Delivery

open Session (Snapshot)

/-- The track that notes should go to: that of the last structural action that attaches notes, else
the last one that any structural action creates or is about, else the selected track, else the last
one. -/
def resolveTarget (structural : List Action) (snapshot : Snapshot) : Option Nat :=
  (structural.reverse.find? Action.isAttach).bind Action.target?
    |>.or (structural.reverse.findSome? Action.target?)
    |>.or snapshot.selectedTrack?
    |>.or snapshot.lastTrack?

/-- Whether an action attaches notes to a track. -/
def attachesTo (target : Nat) (action : Action) : Bool :=
  action.isAttach && action.target? == some target

/-- Whether an action creates a track or is about it. -/
def touches (target : Nat) (action : Action) : Bool :=
  action.target? == some target

/-- Attach notes to a track in a list of actions; the second part is the place of the action that
received them. -/
def attach (target : Nat) (notes : List Json) (actions : List Action) : List Action × Nat :=
  match splitLast? (attachesTo target) actions with
  | some (before, found, after) => (before ++ found.appendNotes notes :: after, before.length)
  | none =>
    match splitLast? (touches target) actions with
    | some (before, found, after) =>
      (before ++ found :: Action.attaching target notes :: after, before.length + 1)
    | none => (actions ++ [Action.attaching target notes], actions.length)

/-- An action with the target as its track. -/
def tag (target : Option Nat) (action : Action) : Action :=
  match target with
  | some track => action.set "track" (.nat track)
  | none => action

/-- The outcome of a merge. -/
structure Merged where
  actions : List Action
  /-- The capabilities whose notes found no track. -/
  unattached : List Capability

/-- Attach the notes of a contribution, if it has any. -/
def attachNotes (target : Nat) (actions : List Action) (part : Contribution) : List Action :=
  if part.notes.isEmpty then actions
  else (attach target (part.notes.map Music.Note.toJson) actions).1

/-- Merge structural actions with contributions. -/
def merge (structural : List Action) (parts : List Contribution) (snapshot : Snapshot) : Merged :=
  let parts := Capability.sortBy Contribution.capability parts
  let target := resolveTarget structural snapshot
  let described := parts.flatMap fun part => part.actions.map (tag target)
  match target with
  | some track => ⟨parts.foldl (attachNotes track) structural ++ described, []⟩
  | none =>
    ⟨structural ++ described,
      (parts.filter fun part => !part.notes.isEmpty).map Contribution.capability⟩

/-- Whether an action creates a track. -/
def creates (target : Nat) (action : Action) : Bool :=
  action.isCreation && action.target? == some target

/-- Whether no action attaches notes to a track that is created behind it. -/
def attachFollowsCreation : List Action → Bool
  | [] => true
  | action :: rest =>
    (!action.isAttach || action.target?.all fun target => !rest.any (creates target)) &&
      attachFollowsCreation rest

/-- Sorting contributions before they are merged changes nothing. -/
theorem merge_sortBy (structural : List Action) (parts : List Contribution) (snapshot : Snapshot) :
    merge structural (Capability.sortBy Contribution.capability parts) snapshot =
      merge structural parts snapshot := by
  have h : Capability.sortBy Contribution.capability
      (Capability.sortBy Contribution.capability parts) =
        Capability.sortBy Contribution.capability parts := by
    refine List.mergeSort_of_pairwise (List.pairwise_mergeSort ?_ ?_ _)
    · intro a b c hab hbc
      simp only [decide_eq_true_eq] at hab hbc ⊢
      exact Nat.le_trans hab hbc
    · intro a b
      simp only [Bool.or_eq_true, decide_eq_true_eq]
      exact Nat.le_total _ _
  simp only [merge, h]

end Delivery

end Studio
