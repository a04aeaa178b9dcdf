import Mathlib.Algebra.BigOperators.Group.List.Basic
import Mathlib.Algebra.Order.Group.Multiset
import Mathlib.Tactic.Abel
import Studio.Proofs.Delivery.Conservation

/-!
# Delivering while generators run, and merging

However the structural actions and the contributions come in, a buffer hands on what a merge of them
consists of (`run_agrees_merge`): the same actions other than those that attach notes, and the same
notes for every track. Both put every payload into one action, so anything that adds up when notes
are attached (`Additive`) comes out the same on either side.
-/

namespace Studio.Delivery

open Session (Snapshot)

/-- The capability that finished with an event, and what it contributes. -/
def Event.finished? : Event → Option (Capability × Option Contribution)
  | .contentFinished capability part => some (capability, part)
  | _ => none

/-- Contributions come in when their capabilities finish. -/
theorem filterMap_part? (events : List Event) : events.filterMap Event.part? =
    (events.filterMap Event.finished?).filterMap Prod.snd := by
  rw [List.filterMap_filterMap]
  congr 1
  funext event
  cases event <;> rfl

/-- Events in which structural actions are pushed in order and completed once, and contents finish
at any time. Without a structural task there are no structural actions. -/
structure Schedule (structural : Bool) (actions : List Action)
    (contents : List (Capability × Option Contribution)) (events : List Event) : Prop where
  pushed : events.filterMap Event.action? = actions
  finished : (events.filterMap Event.finished?).Perm contents
  unflushed : .flushed ∉ events
  completed : structural = true → ∃ before after,
    events = before ++ .structuralFinished :: after ∧ .structuralFinished ∉ before ∧
      .structuralFinished ∉ after ∧ after.filterMap Event.action? = []
  absent : structural = false → actions = [] ∧ .structuralFinished ∉ events

/-! ### What adds up -/

section

variable {M : Type} [AddCommMonoid M] {g : Action → M}

/-- Notes count as much in an action that attaches some already as in an action of their own. -/
def Additive (g : Action → M) : Prop :=
  ∀ target notes action, attachesTo target action = true →
    g (action.appendNotes notes) = g action + g (.attaching target notes)

/-- What actions count together. -/
def total (g : Action → M) (actions : List Action) : M :=
  (actions.map g).sum

/-- What the notes of contributions count together. -/
def worth (g : Action → M) (payloads : List (Nat × List Json)) : M :=
  (payloads.map fun (target, notes) => g (.attaching target notes)).sum

/-- No actions count nothing. -/
@[simp] theorem total_nil (g : Action → M) : total g [] = 0 := rfl

/-- An action counts on top of those behind it. -/
@[simp] theorem total_cons (g : Action → M) (action : Action) (rest : List Action) :
    total g (action :: rest) = g action + total g rest := by
  simp [total]

/-- Two runs of actions count what each of them does. -/
@[simp] theorem total_append (g : Action → M) (first second : List Action) :
    total g (first ++ second) = total g first + total g second := by
  simp [total]

/-- Actions count the same in any order. -/
theorem total_perm {first second : List Action} (h : first.Perm second) :
    total g first = total g second :=
  (h.map g).sum_eq

/-- Notes count the same in any order. -/
theorem worth_perm {first second : List (Nat × List Json)} (h : first.Perm second) :
    worth g first = worth g second :=
  (h.map _).sum_eq

/-- No notes count nothing. -/
@[simp] theorem worth_nil (g : Action → M) : worth g [] = 0 := rfl

/-- Notes for a target count as an action of their own would, on top of those behind them. -/
@[simp] theorem worth_cons (g : Action → M) (target : Nat) (notes : List Json)
    (rest : List (Nat × List Json)) :
    worth g ((target, notes) :: rest) = g (.attaching target notes) + worth g rest := by
  simp [worth]

/-- Two runs of notes count what each of them does. -/
@[simp] theorem worth_append (g : Action → M) (first second : List (Nat × List Json)) :
    worth g (first ++ second) = worth g first + worth g second := by
  simp [worth]

variable (hadditive : Additive g)
include hadditive

/-- A log counts what its structural actions, its notes and the actions of its contributions do. -/
theorem total_log {log : List Entry} (hproper : ∀ entry ∈ log, entry.Proper) :
    total g (log.map Entry.action) = total g (log.filterMap Entry.pushed?) +
      worth g (log.filterMap Entry.payload?) + total g (log.filterMap Entry.described?) := by
  induction log with
  | nil => simp
  | cons entry rest ih =>
      have hrest := ih fun other hother => hproper other (List.mem_cons_of_mem _ hother)
      have hentry := hproper entry List.mem_cons_self
      rw [List.map_cons, total_cons, hrest]
      cases entry with
      | structural action =>
          simp only [List.filterMap_cons, Entry.pushed?, Entry.payload?, Entry.described?,
            Entry.action, total_cons]
          abel
      | filled action target notes =>
          simp only [List.filterMap_cons, Entry.pushed?, Entry.payload?, Entry.described?,
            Entry.action, total_cons, worth_cons, hadditive target notes action hentry.1]
          abel
      | attached target notes =>
          simp only [List.filterMap_cons, Entry.pushed?, Entry.payload?, Entry.described?,
            Entry.action, worth_cons]
          abel
      | described action =>
          simp only [List.filterMap_cons, Entry.pushed?, Entry.payload?, Entry.described?,
            Entry.action, total_cons]
          abel

/-- Notes that are attached count as much as in an action of their own. -/
theorem total_attach (target : Nat) (notes : List Json) (actions : List Action) :
    total g (attach target notes actions).1 = total g actions + g (.attaching target notes) := by
  unfold attach
  split
  · next before found after hsplit =>
    obtain ⟨rfl, hattaches, -⟩ := splitLast?_eq_some hsplit
    simp only [total_append, total_cons, hadditive target notes found hattaches]
    abel
  · split
    · next before found after hsplit =>
      obtain ⟨rfl, -⟩ := splitLast?_eq_some hsplit
      simp only [total_append, total_cons]
      abel
    · simp

/-- Attaching the notes of a contribution adds what they count, if it has any. -/
theorem total_attachNotes (target : Nat) (actions : List Action) (part : Contribution) :
    total g (attachNotes target actions part) = total g actions +
      worth g (Release.mk part (some target)).payload?.toList := by
  unfold attachNotes Release.payload?
  split
  · simp
  · simp [total_attach hadditive]

/-- Attaching contributions one by one adds what the notes of each count. -/
theorem total_foldl_attachNotes (target : Nat) (parts : List Contribution)
    (actions : List Action) : total g (parts.foldl (attachNotes target) actions) =
      total g actions +
        worth g ((parts.map fun part => ⟨part, some target⟩).filterMap Release.payload?) := by
  induction parts generalizing actions with
  | nil => simp
  | cons part rest ih =>
      rw [List.foldl_cons, ih, total_attachNotes hadditive, List.map_cons, filterMap_cons_toList,
        worth_append, add_assoc]

/-- A merge counts what its structural actions, the notes and the actions of its releases do. -/
theorem total_merge (structural : List Action) (parts : List Contribution) (snapshot : Snapshot) :
    total g (merge structural parts snapshot).actions = total g structural +
      worth g ((releaseAll snapshot structural parts).filterMap Release.payload?) +
      total g ((releaseAll snapshot structural parts).flatMap Release.described) := by
  have hdescribed : (releaseAll snapshot structural parts).flatMap Release.described =
      (Capability.sortBy Contribution.capability parts).flatMap fun part =>
        part.actions.map (tag (resolveTarget structural snapshot)) := by
    rw [releaseAll, List.flatMap_map]
    rfl
  rw [hdescribed]
  unfold merge releaseAll
  cases resolveTarget structural snapshot with
  | some track => simp only [total_append, total_foldl_attachNotes hadditive]
  | none =>
      have hnone : ((Capability.sortBy Contribution.capability parts).map fun part =>
          Release.mk part none).filterMap Release.payload? = [] := by
        simp [Release.payload?]
      simp only [total_append, hnone, worth_nil, add_zero]

end

/-! ### Schedules -/

/-- Until the structural actions are complete, nothing is released. -/
theorem releases_append (snapshot : Snapshot) (pushed : List Action) (waiting : List Contribution)
    {events : List Event} (hfinished : .structuralFinished ∉ events) (hflushed : .flushed ∉ events)
    (rest : List Event) :
    releases snapshot false pushed waiting (events ++ rest) =
      releases snapshot false (pushed ++ events.filterMap Event.action?)
        (waiting ++ events.filterMap Event.part?) rest := by
  induction events generalizing pushed waiting with
  | nil => simp
  | cons event events ih =>
      have ih := fun pushed waiting => ih pushed waiting
        (fun h => hfinished (List.mem_cons_of_mem _ h))
        (fun h => hflushed (List.mem_cons_of_mem _ h))
      cases event with
      | pushed action =>
          rw [List.cons_append, releases, ih, List.append_assoc]
          rfl
      | structuralFinished => exact absurd List.mem_cons_self hfinished
      | contentFinished capability part =>
          rw [List.cons_append, releases, if_neg Bool.false_ne_true, ih, List.append_assoc]
          cases part <;> rfl
      | flushed => exact absurd List.mem_cons_self hflushed

/-- While nothing is pushed, the target stays the same. -/
theorem target_of_mem_releases {snapshot : Snapshot} {settled : Bool} {pushed : List Action}
    {waiting : List Contribution} {events : List Event}
    (hpushed : events.filterMap Event.action? = []) {release : Release}
    (h : release ∈ releases snapshot settled pushed waiting events) :
    release.target = resolveTarget pushed snapshot := by
  have hall {parts : List Contribution} (hmem : release ∈ releaseAll snapshot pushed parts) :
      release.target = resolveTarget pushed snapshot := by
    obtain ⟨part, -, rfl⟩ := List.mem_map.1 hmem
    rfl
  induction events generalizing settled waiting with
  | nil => simp [releases] at h
  | cons event rest ih =>
      cases event with
      | pushed action => simp [Event.action?] at hpushed
      | structuralFinished | flushed =>
          rcases List.mem_append.1 h with h | h
          · exact hall h
          · exact ih hpushed h
      | contentFinished capability part =>
          cases settled with
          | true =>
              rcases List.mem_append.1 h with h | h
              · exact hall h
              · exact ih hpushed h
          | false => exact ih hpushed h

namespace Schedule

variable {structural : Bool} {actions : List Action}
  {contents : List (Capability × Option Contribution)} {events : List Event}
  (schedule : Schedule structural actions contents events)
include schedule

/-- Whenever a contribution is released, its target is the one that all structural actions lead
to. -/
theorem target_of_mem {snapshot : Snapshot} {release : Release}
    (h : release ∈ releases snapshot (!structural) [] [] (events ++ [.flushed])) :
    release.target = resolveTarget actions snapshot := by
  cases structural with
  | true =>
      -- Nothing is released before the structural actions are complete, or pushed after that.
      obtain ⟨before, after, rfl, hbefore, -, hafter⟩ := schedule.completed rfl
      have hunflushed : .flushed ∉ before := fun hmem =>
        schedule.unflushed (List.mem_append_left _ hmem)
      rw [List.append_assoc, Bool.not_true, releases_append snapshot [] [] hbefore hunflushed] at h
      have hactions : before.filterMap Event.action? = actions := by
        rw [← schedule.pushed, List.filterMap_append, List.filterMap_cons_none rfl, hafter,
          List.append_nil]
      rw [List.nil_append, hactions] at h
      refine target_of_mem_releases ?_ h
      rw [List.cons_append, List.filterMap_cons_none rfl, List.filterMap_append, hafter]
      rfl
  | false =>
      obtain ⟨rfl, -⟩ := schedule.absent rfl
      refine target_of_mem_releases ?_ h
      rw [List.filterMap_append, schedule.pushed]
      rfl

/-- The contributions that events bring are those of the contents. -/
theorem parts_perm : (events.filterMap Event.part?).Perm (contents.filterMap Prod.snd) := by
  rw [filterMap_part?]
  exact schedule.finished.filterMap Prod.snd

/-- What a schedule releases is what a merge attaches. -/
theorem releases_perm (snapshot : Snapshot) :
    (releases snapshot (!structural) [] [] (events ++ [.flushed])).Perm
      (releaseAll snapshot actions (contents.filterMap Prod.snd)) := by
  have hreleases : (releases snapshot (!structural) [] [] (events ++ [.flushed])) =
      ((releases snapshot (!structural) [] [] (events ++ [.flushed])).map Release.part).map
        fun part => ⟨part, resolveTarget actions snapshot⟩ := by
    rw [List.map_map]
    refine (List.map_id _).symm.trans (List.map_congr_left ?_)
    intro release hrelease
    rw [Function.comp_apply, ← schedule.target_of_mem hrelease]
    rfl
  rw [hreleases]
  refine List.Perm.map _ ?_
  have hparts := part_releases snapshot (!structural) [] [] events
  exact (hparts.trans schedule.parts_perm).trans (List.mergeSort_perm _ _).symm

/-- Whatever adds up comes out the same when contributions are delivered and when they are
merged. -/
theorem total_emitted {M : Type} [AddCommMonoid M] {g : Action → M} (hadditive : Additive g)
    (snapshot : Snapshot) : total g ((Buffer.start snapshot structural (contents.map Prod.fst)).run
        (events ++ [.flushed])).emitted =
      total g (merge actions (contents.filterMap Prod.snd) snapshot).actions := by
  obtain ⟨log, account⟩ :=
    exists_account snapshot structural (contents.map Prod.fst) (events ++ [.flushed])
  have hpushed : (log.filterMap Entry.pushed?).Perm actions := by
    rw [← schedule.pushed]
    exact account.pushed_of_flushed
  have hreleases := schedule.releases_perm snapshot
  rw [account.emitted, total_log hadditive account.proper, total_merge hadditive,
    account.described, account.payloads, total_perm hpushed,
    worth_perm (hreleases.filterMap Release.payload?), total_perm (hreleases.flatMap_right _)]

end Schedule

/-! ### Actions and notes -/

/-- The notes that an action attaches to a track. -/
def notesFor (track : Nat) (action : Action) : List Json :=
  if attachesTo track action then action.notes else []

/-- Actions that attach no notes add up, one by one. -/
theorem additive_actions :
    Additive fun action : Action =>
      if action.isAttach then (0 : Multiset Action) else {action} := by
  intro target notes action hattaches
  have hattach := (Bool.and_eq_true_iff.1 hattaches).1
  simp [hattach]

/-- More notes do not change which track an action attaches notes to. -/
theorem attachesTo_appendNotes (track : Nat) (action : Action) (notes : List Json) :
    attachesTo track (action.appendNotes notes) = attachesTo track action := by
  unfold attachesTo
  cases hattach : action.isAttach with
  | true =>
      have happended : (action.appendNotes notes).isAttach = true := hattach
      rw [happended, Action.target?_of_isAttach happended, Action.target?_of_isAttach hattach,
        Action.get?_track_appendNotes]
  | false => rw [Action.isAttach_appendNotes, hattach, Bool.false_and, Bool.false_and]

/-- A new action for notes is about every track that an action for the same target is about. -/
theorem attachesTo_attaching {target : Nat} {action : Action}
    (h : attachesTo target action = true) (track : Nat) (notes : List Json) :
    attachesTo track (.attaching target notes) = attachesTo track action := by
  have hattach := (Bool.and_eq_true_iff.1 h).1
  rw [attachesTo, attachesTo, Action.isAttach_attaching, hattach,
    Action.target?_of_isAttach (Action.isAttach_attaching target notes),
    Action.target?_of_isAttach hattach, Action.get?_track_attaching,
    Action.get?_track_of_attachesTo h]

/-- The notes for a track add up, however they are attached. -/
theorem additive_notes (track : Nat) :
    Additive fun action => (notesFor track action : Multiset Json) := by
  intro target notes action hattaches
  unfold notesFor
  dsimp only
  rw [attachesTo_appendNotes, attachesTo_attaching hattaches, Action.notes_appendNotes,
    Action.notes_attaching]
  split
  · exact (Multiset.coe_add _ _).symm
  · rfl

/-- The actions that attach no notes are those that pass the filter. -/
theorem total_actions (actions : List Action) :
    total (fun action => if action.isAttach then (0 : Multiset Action) else {action}) actions =
      (actions.filter fun action => !action.isAttach : List Action) := by
  induction actions with
  | nil => rfl
  | cons action rest ih =>
      rw [total_cons, ih]
      cases hattach : action.isAttach with
      | true => simp [hattach]
      | false => simp [hattach]

/-- The notes for a track are those of all actions that attach some to it. -/
theorem total_notes (track : Nat) (actions : List Action) :
    total (fun action => (notesFor track action : Multiset Json)) actions =
      (actions.flatMap (notesFor track) : List Json) := by
  induction actions with
  | nil => rfl
  | cons action rest ih => rw [total_cons, ih, List.flatMap_cons, Multiset.coe_add]

/-- However structural actions and contributions come in, what a buffer hands on until it is flushed
has the actions of a merge that do not attach notes, as often as the merge has them, and for every
track the notes that the merge attaches to it. -/
theorem run_agrees_merge {structural : Bool} {actions : List Action}
    {contents : List (Capability × Option Contribution)} {events : List Event}
    (schedule : Schedule structural actions contents events) (snapshot : Snapshot) :
    let emitted := ((Buffer.start snapshot structural (contents.map Prod.fst)).run
      (events ++ [.flushed])).emitted
    let merged := (merge actions (contents.filterMap Prod.snd) snapshot).actions
    (emitted.filter fun action => !action.isAttach).Perm
        (merged.filter fun action => !action.isAttach) ∧
      ∀ track, (emitted.flatMap (notesFor track)).Perm (merged.flatMap (notesFor track)) := by
  intro emitted merged
  constructor
  · have h := schedule.total_emitted additive_actions snapshot
    rw [total_actions, total_actions] at h
    exact Multiset.coe_eq_coe.1 h
  · intro track
    have h := schedule.total_emitted (additive_notes track) snapshot
    rw [total_notes, total_notes] at h
    exact Multiset.coe_eq_coe.1 h

/-- The notes of a beat that is finished first end up in an action that is pushed later. -/
theorem run_agrees_merge_beat :
    let beat : Contribution := ⟨.drummer, [⟨Action.Kind.drumPattern, []⟩], [⟨36, 100, 0, 1⟩]⟩
    let actions : List Action :=
      [⟨Action.Kind.createTrack, [("index", .nat 0)]⟩, ⟨Action.Kind.addMidi, [("track", .nat 0)]⟩]
    let events : List Event := [.contentFinished .drummer (some beat), .pushed actions[0],
      .pushed actions[1], .structuralFinished, .contentFinished .arranger none]
    let emitted := ((Buffer.start {} true [.arranger, .drummer]).run (events ++ [.flushed])).emitted
    let merged := (merge actions [beat] {}).actions
    Schedule true actions [(.arranger, none), (.drummer, some beat)] events ∧
      (emitted.filter fun action => !action.isAttach).Perm
        (merged.filter fun action => !action.isAttach) ∧
      (emitted.flatMap (notesFor 0)).Perm (merged.flatMap (notesFor 0)) := by
  intro beat actions events emitted merged
  have schedule : Schedule true actions [(.arranger, none), (.drummer, some beat)] events := {
    pushed := rfl
    finished := .swap _ _ _
    unflushed := by simp [events]
    completed := fun _ => ⟨[.contentFinished .drummer (some beat), .pushed actions[0],
      .pushed actions[1]], [.contentFinished .arranger none], rfl, by simp, by simp, rfl⟩
    absent := nofun }
  obtain ⟨hactions, hnotes⟩ := run_agrees_merge schedule {}
  exact ⟨schedule, hactions, hnotes 0⟩

end Studio.Delivery
