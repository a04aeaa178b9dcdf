import Studio.Proofs.Delivery.Dependencies
import Studio.Proofs.Delivery.Ordering

/-!
# Notes and deleted tracks

Structural actions may delete the track that notes go to: the target is the last track that they
are about, whatever they do to it. `notes_spare_deleted` says when notes of contributions are
attached to a track that is deleted. In a merge they are just when the structural actions leave
their target deleted and no action among them attaches notes to it; in a delivery only when these
leave the target deleted or an action of a contribution deletes it. `attached_to_deleted` has a case
of each. Which action takes the notes is told by a log of entries, for a merge (`Receives`) as for a
delivery.
-/

namespace Studio.Delivery

open Session (Snapshot)

variable {target : Nat} {action : Action} {actions : List Action}

/-! ### Deleted tracks -/

/-- Whether an action deletes a track. -/
def deletes (target : Nat) (action : Action) : Bool :=
  action.kind == Action.Kind.deleteTrack && action.target? == some target

/-- After some actions a track is deleted: one of them deletes it, and none behind that one creates
it. -/
def Deleted (target : Nat) (actions : List Action) : Prop :=
  ∃ before deletion after, actions = before ++ deletion :: after ∧
    deletes target deletion = true ∧ ∀ action ∈ after, creates target action = false

/-- No action attaches notes to a track that is deleted when it comes. -/
def SparesDeleted (actions : List Action) : Prop :=
  ∀ before action after, actions = before ++ action :: after → action.isAttach = true →
    ∀ target, action.target? = some target → ¬ Deleted target before

/-- No track is deleted before there are actions. -/
theorem not_deleted_nil (target : Nat) : ¬ Deleted target [] := by
  rintro ⟨before, deletion, after, hsplit, -⟩
  simp at hsplit

/-- An action more deletes a track, or leaves it deleted if it does not create it. -/
theorem deleted_concat : Deleted target (actions ++ [action]) ↔
    deletes target action = true ∨ Deleted target actions ∧ creates target action = false := by
  constructor
  · rintro ⟨before, deletion, after, hsplit, hdeletes, hafter⟩
    rcases split_of_concat hsplit with ⟨-, rfl, -⟩ | ⟨rest, hactions, rfl⟩
    · exact .inl hdeletes
    · obtain ⟨hrest, hlast⟩ := List.forall_mem_append.1 hafter
      exact .inr ⟨⟨before, deletion, rest, hactions, hdeletes, hrest⟩,
        hlast action List.mem_cons_self⟩
  · rintro (hdeletes | ⟨⟨before, deletion, after, rfl, hdeletes, hafter⟩, hcreates⟩)
    · exact ⟨actions, action, [], rfl, hdeletes, by simp⟩
    · refine ⟨before, deletion, after ++ [action], by simp, hdeletes, ?_⟩
      exact List.forall_mem_append.2 ⟨hafter, by simpa using hcreates⟩

/-- Where there are no actions, none attaches notes to a deleted track. -/
theorem sparesDeleted_nil : SparesDeleted [] := by
  intro before action after hsplit
  simp at hsplit

/-- An action more attaches no notes to a deleted track if its target is not deleted by then. -/
theorem sparesDeleted_concat : SparesDeleted (actions ++ [action]) ↔ SparesDeleted actions ∧
    (action.isAttach = true → ∀ target, action.target? = some target →
      ¬ Deleted target actions) := by
  constructor
  · intro h
    refine ⟨?_, h actions action [] rfl⟩
    intro before other after hsplit
    exact h before other (after ++ [action]) (by simp [hsplit])
  · rintro ⟨hbefore, hlast⟩ before other after hsplit
    rcases split_of_concat hsplit with ⟨rfl, rfl, -⟩ | ⟨rest, hactions, -⟩
    · exact hlast
    · exact hbefore before other rest hactions

/-- A single action attaches no notes to a deleted track. -/
theorem sparesDeleted_singleton (action : Action) : SparesDeleted [action] :=
  (@sparesDeleted_concat action []).2
    ⟨sparesDeleted_nil, fun _ target _ => not_deleted_nil target⟩

/-! ### What deletes and creates nothing -/

/-- What deletes or creates a track is about it. -/
theorem deletes_of_touches_eq_false (h : touches target action = false) :
    deletes target action = false := by
  have htarget : (action.target? == some target) = false := h
  rw [deletes, htarget, Bool.and_false]

/-- An action that has nothing to do with a track does not create it. -/
theorem creates_of_touches_eq_false (h : touches target action = false) :
    creates target action = false := by
  have htarget : (action.target? == some target) = false := h
  rw [creates, htarget, Bool.and_false]

/-- An action that attaches notes deletes nothing. -/
theorem deletes_of_isAttach (h : action.isAttach = true) : deletes target action = false := by
  simp only [Action.isAttach, beq_iff_eq] at h
  rw [deletes, h]
  rfl

/-- An action that attaches notes creates nothing. -/
theorem creates_of_isAttach (h : action.isAttach = true) : creates target action = false := by
  rw [creates, isCreation_of_isAttach h, Bool.false_and]

/-- An attachment behind actions does not change which tracks are deleted. -/
theorem deleted_concat_of_isAttach (h : action.isAttach = true) :
    Deleted target (actions ++ [action]) ↔ Deleted target actions := by
  rw [deleted_concat, deletes_of_isAttach h, creates_of_isAttach h]
  simp

/-- Whether a track is deleted does not depend on the actions that attach notes. -/
theorem deleted_filter : Deleted target (actions.filter fun action => !action.isAttach) ↔
    Deleted target actions := by
  induction actions using List.reverseRecOn with
  | nil => exact Iff.rfl
  | append_singleton actions action ih =>
      rw [List.filter_append]
      cases hattach : action.isAttach with
      | true =>
          rw [deleted_concat_of_isAttach hattach, List.filter_singleton, hattach, Bool.not_true,
            cond_false, List.append_nil]
          exact ih
      | false =>
          rw [List.filter_singleton, hattach, Bool.not_false, cond_true, deleted_concat,
            deleted_concat, ih]

/-- Which tracks are deleted depends on the actions that attach no notes. -/
theorem deleted_congr {others : List Action}
    (h : (actions.filter fun action => !action.isAttach) =
      others.filter fun action => !action.isAttach) :
    Deleted target actions ↔ Deleted target others := by
  rw [← deleted_filter, h, deleted_filter]

/-- A track that is deleted behind more actions was deleted before, or one of these deletes it. -/
theorem Deleted.of_append {more : List Action} (h : Deleted target (actions ++ more)) :
    Deleted target actions ∨ ∃ action ∈ more, deletes target action = true := by
  induction more using List.reverseRecOn with
  | nil => exact .inl (by simpa using h)
  | append_singleton more action ih =>
      rw [← List.append_assoc, deleted_concat] at h
      rcases h with hdeletes | ⟨h, -⟩
      · exact .inr ⟨action, by simp, hdeletes⟩
      · exact (ih h).imp_right fun ⟨other, hmem, hdeletes⟩ =>
          ⟨other, List.mem_append_left _ hmem, hdeletes⟩

/-- A track stays deleted while no action creates it. -/
theorem Deleted.append {more : List Action} (h : Deleted target actions)
    (hmore : ∀ action ∈ more, creates target action = false) :
    Deleted target (actions ++ more) := by
  obtain ⟨before, deletion, after, rfl, hdeletes, hafter⟩ := h
  refine ⟨before, deletion, after ++ more, by simp, hdeletes, ?_⟩
  exact List.forall_mem_append.2 ⟨hafter, hmore⟩

/-- What is about a track deletes it only if it is there. -/
theorem not_deleted_of_untouched (h : ∀ action ∈ actions, touches target action = false) :
    ¬ Deleted target actions := by
  rintro ⟨before, deletion, after, rfl, hdeletes, -⟩
  rw [deletes_of_touches_eq_false (h deletion (by simp))] at hdeletes
  cases hdeletes

/-- What comes behind the last action on a track does not change whether the track is deleted. -/
theorem deleted_append_untouched {more : List Action}
    (h : ∀ action ∈ more, touches target action = false) :
    Deleted target (actions ++ more) ↔ Deleted target actions := by
  refine ⟨fun hdeleted => hdeleted.of_append.resolve_right ?_, fun hdeleted =>
    hdeleted.append fun action haction => creates_of_touches_eq_false (h action haction)⟩
  rintro ⟨action, haction, hdeletes⟩
  rw [deletes_of_touches_eq_false (h action haction)] at hdeletes
  cases hdeletes

/-! ### Merging -/

/-- Entries for structural actions have no notes of contributions. -/
theorem Entry.payload?_of_mem (front : List Action) {entry : Entry}
    (h : entry ∈ front.map Entry.structural) : entry.payload? = none := by
  obtain ⟨action, -, rfl⟩ := List.mem_map.1 h
  rfl

/-- An entry with notes is not among those for the structural actions in front. -/
theorem Entry.split_late {front : List Action} {late before after : List Entry} {entry : Entry}
    {payload : Nat × List Json} (h : front.map .structural ++ late = before ++ entry :: after)
    (hpayload : entry.payload? = some payload) :
    ∃ between, before = front.map .structural ++ between ∧ late = between ++ entry :: after := by
  rcases split_of_append h with ⟨rest, hfront, -⟩ | hbetween
  · rw [Entry.payload?_of_mem front (by simp [hfront])] at hpayload
    cases hpayload
  · exact hbetween

/-- A log of what becomes of actions when notes for a track are attached to them. The actions are in
it in their order, and every action that receives notes is one for the track; it comes behind a
deletion just when the actions leave the track deleted and none of them attaches notes to it. -/
structure Receives (target : Nat) (notes : List Json) (actions : List Action)
    (log : List Entry) : Prop where
  pushed : log.filterMap Entry.pushed? = actions
  described : log.filterMap Entry.described? = []
  notes : (log.filterMap Entry.payload?).flatMap Prod.snd = notes
  receivers : ∀ before entry after, log = before ++ entry :: after →
    ∀ track given, entry.payload? = some (track, given) → track = target ∧ given ≠ [] ∧
      entry.action.isAttach = true ∧ entry.action.get? "track" = some (.nat track) ∧
      (Deleted target (before.map Entry.action) ↔
        Deleted target actions ∧ ∀ action ∈ actions, attachesTo target action = false)

/-- The actions of entries for structural actions are these. -/
theorem Entry.map_action_structural (actions : List Action) :
    (actions.map Entry.structural).map Entry.action = actions := by
  simp [Function.comp_def, Entry.action]

/-- Without notes the actions stay as they are. -/
theorem receives_nothing (target : Nat) (actions : List Action) :
    Receives target [] actions (actions.map .structural) where
  pushed := Entry.pushed?_structural actions
  described := Entry.described?_structural actions
  notes := by rw [Entry.payload?_structural]; rfl
  receivers := by
    intro before entry after hsplit track given hpayload
    rw [Entry.payload?_of_mem actions (by simp [hsplit])] at hpayload
    cases hpayload

section

variable {notes : List Json} {attached : List Action}

/-- A single action receives all notes. -/
theorem receives_single {front back : List Action} (receiver : Entry)
    (hpushed : front ++ (receiver.pushed?.toList ++ back) = actions)
    (hpayload : receiver.payload? = some (target, notes)) (hnotes : notes ≠ [])
    (hattach : receiver.action.isAttach = true)
    (htrack : receiver.action.get? "track" = some (.nat target))
    (hdeleted : Deleted target front ↔
      Deleted target actions ∧ ∀ action ∈ actions, attachesTo target action = false) :
    Receives target notes actions
      (front.map .structural ++ receiver :: back.map .structural) where
  pushed := by
    rw [List.filterMap_append, filterMap_cons_toList, Entry.pushed?_structural,
      Entry.pushed?_structural, hpushed]
  described := by
    have hnone : receiver.described? = none := by
      cases receiver with
      | structural | described => cases hpayload
      | filled | attached => rfl
    rw [List.filterMap_append, filterMap_cons_toList, Entry.described?_structural,
      Entry.described?_structural, hnone]
    rfl
  notes := by
    rw [List.filterMap_append, filterMap_cons_toList, Entry.payload?_structural,
      Entry.payload?_structural, hpayload]
    simp
  receivers := by
    intro before entry after hsplit track given hgiven
    obtain ⟨between, rfl, hbetween⟩ := Entry.split_late hsplit hgiven
    cases between with
    | nil =>
        obtain ⟨rfl, -⟩ := List.cons.inj hbetween
        obtain ⟨rfl, rfl⟩ := Prod.mk.inj (Option.some.inj (hgiven.symm.trans hpayload))
        rw [List.append_nil, Entry.map_action_structural]
        exact ⟨rfl, hnotes, hattach, htrack, hdeleted⟩
    | cons first rest =>
        -- Behind the receiver are structural actions alone.
        obtain ⟨-, hrest⟩ := List.cons.inj hbetween
        rw [Entry.payload?_of_mem back (by simp [hrest])] at hgiven
        cases hgiven

/-- Where notes are attached at once, they go into a single action. -/
theorem Attached.exists_receives (h : Attached target notes actions attached) (hnotes : notes ≠ [])
    (spares : SparesDeleted actions) :
    ∃ log : List Entry, attached = log.map Entry.action ∧ Receives target notes actions log := by
  cases h with
  | joined before found after attaches =>
      obtain ⟨hattach, htarget⟩ := Bool.and_eq_true_iff.1 attaches
      have hclean : ¬ Deleted target before :=
        spares before found after rfl hattach target (eq_of_beq htarget)
      have htrack : (found.appendNotes notes).get? "track" = some (.nat target) :=
        (Action.get?_track_appendNotes _ _).trans (Action.get?_track_of_attachesTo attaches)
      refine ⟨before.map .structural ++ .filled found target notes :: after.map .structural, ?_,
        receives_single (.filled found target notes) rfl rfl hnotes hattach htrack ?_⟩
      · rw [List.map_append, List.map_cons, Entry.map_action_structural,
          Entry.map_action_structural]
        rfl
      · refine iff_of_false hclean fun ⟨_, hnone⟩ => ?_
        rw [hnone found (List.mem_append_right before List.mem_cons_self)] at attaches
        cases attaches
  | behind before found after unattached touched last =>
      have hshift : before ++ found :: after = (before ++ [found]) ++ after := by simp
      refine ⟨(before ++ [found]).map .structural ++ .attached target notes ::
        after.map .structural, ?_, receives_single (.attached target notes) hshift.symm
          rfl hnotes rfl (Action.get?_track_attaching target notes) ?_⟩
      · rw [List.map_append, List.map_cons, Entry.map_action_structural,
          Entry.map_action_structural, List.append_assoc]
        rfl
      · rw [hshift, deleted_append_untouched last, ← hshift]
        exact (and_iff_left unattached).symm
  | atEnd _ untouched =>
      refine ⟨actions.map .structural ++ .attached target notes :: [].map .structural, ?_,
        receives_single (.attached target notes) (List.append_nil actions) rfl hnotes
          rfl (Action.get?_track_attaching target notes) ?_⟩
      · rw [List.map_append, List.map_cons, Entry.map_action_structural]
        rfl
      · refine (and_iff_left fun action haction => ?_).symm
        exact attachesTo_of_touches_eq_false (untouched action haction)

end

/-- The notes of the contributions that have some, in order. -/
theorem flatMap_payload (target : Nat) (parts : List Contribution) :
    ((parts.map fun part => Release.mk part (some target)).filterMap
      Release.payload?).flatMap Prod.snd = notesOf parts := by
  induction parts with
  | nil => rfl
  | cons part rest ih =>
      rw [List.map_cons, filterMap_cons_toList, List.flatMap_append, ih]
      cases hnotes : part.notes <;> simp [Release.payload?, notesOf, hnotes]

/-- No action is about a track with an index that is no machine word. -/
theorem touches_of_le (unbounded : Number.indexBound ≤ target) (action : Action) :
    touches target action = false := by
  rw [touches, beq_eq_false_iff_ne]
  exact fun htarget => absurd (lt_indexBound_of_target? htarget) (Nat.not_lt.2 unbounded)

/-- Notes for such a track all go to the end. -/
theorem foldl_attachNotes_of_le (unbounded : Number.indexBound ≤ target)
    (parts : List Contribution) (actions : List Action) :
    parts.foldl (attachNotes target) actions = actions ++
      ((parts.map fun part => Release.mk part (some target)).filterMap Release.payload?).map
        fun (track, notes) => .attaching track notes := by
  induction parts generalizing actions with
  | nil => simp
  | cons part rest ih =>
      have hattach (notes : List Json) : (attach target notes actions).1 =
          actions ++ [.attaching target notes] := by
        have huntouched : ∀ action ∈ actions, touches target action = false :=
          fun action _ => touches_of_le unbounded action
        rw [attach, splitLast?_none fun action haction =>
          attachesTo_of_touches_eq_false (huntouched action haction), splitLast?_none huntouched]
      rw [List.foldl_cons, ih, List.map_cons, filterMap_cons_toList, attachNotes]
      cases hnotes : part.notes <;> simp [Release.payload?, hattach, hnotes]

/-- Notes for a target that is no index are received by new actions at the end. -/
theorem receives_of_le (unbounded : Number.indexBound ≤ target) (parts : List Contribution)
    (actions : List Action) :
    let payloads := (parts.map fun part => Release.mk part (some target)).filterMap
      Release.payload?
    Receives target (notesOf parts) actions (actions.map .structural ++
      payloads.map fun (track, notes) => .attached track notes) := by
  intro payloads
  have hkept (others : List Action) : ¬ Deleted target others :=
    not_deleted_of_untouched fun action _ => touches_of_le unbounded action
  constructor
  · rw [List.filterMap_append, Entry.pushed?_structural]
    simp [Entry.pushed?]
  · rw [List.filterMap_append, Entry.described?_structural]
    simp [Entry.described?]
  · rw [List.filterMap_append, Entry.payload?_structural, ← flatMap_payload target parts]
    simp [Entry.payload?, payloads, Function.comp_def]
  · intro before entry after hsplit track given hpayload
    obtain ⟨between, rfl, hbetween⟩ := Entry.split_late hsplit hpayload
    have hmem : entry ∈ payloads.map fun (track, notes) => Entry.attached track notes := by
      simp [hbetween]
    obtain ⟨payload, hpayloads, rfl⟩ := List.mem_map.1 hmem
    obtain rfl : payload = (track, given) := Option.some.inj hpayload
    obtain ⟨release, hrelease, hbrings⟩ := List.mem_filterMap.1 hpayloads
    obtain ⟨part, -, rfl⟩ := List.mem_map.1 hrelease
    obtain ⟨htrack, hnotes, rfl⟩ := Release.payload?_eq_some hbrings
    obtain rfl := Option.some.inj htrack
    exact ⟨rfl, by simpa using hnotes, rfl, Action.get?_track_attaching _ _,
      iff_of_false (hkept _) fun hdeleted => hkept _ hdeleted.1⟩

/-- Attaching the notes of contributions one after another, as a log. -/
theorem exists_receives (target : Nat) (parts : List Contribution)
    (spares : SparesDeleted actions) : ∃ log : List Entry,
      parts.foldl (attachNotes target) actions = log.map Entry.action ∧
        Receives target (notesOf parts) actions log := by
  rcases Nat.lt_or_ge target Number.indexBound with hbound | hunbounded
  · rw [foldl_attachNotes hbound]
    split
    · next hnone =>
      rw [hnone]
      exact ⟨actions.map .structural, (Entry.map_action_structural actions).symm,
        receives_nothing target actions⟩
    · next hnotes => exact (attached_attach target _ actions).exists_receives hnotes spares
  · refine ⟨_, ?_, receives_of_le hunbounded parts actions⟩
    rw [foldl_attachNotes_of_le hunbounded, List.map_append, Entry.map_action_structural,
      List.map_map]
    rfl

/-- In a merge every action that receives notes is one for the target; it comes behind a deletion
just when the structural actions leave the target deleted and attach no notes to it. -/
theorem exists_merge_log (structural : List Action) (parts : List Contribution)
    (snapshot : Snapshot) (spares : SparesDeleted structural) :
    let released := releaseAll snapshot structural parts
    ∃ log : List Entry,
      (merge structural parts snapshot).actions =
        log.map Entry.action ++ released.flatMap Release.described ∧
      log.filterMap Entry.pushed? = structural ∧ log.filterMap Entry.described? = [] ∧
      (log.filterMap Entry.payload?).flatMap Prod.snd =
        (released.filterMap Release.payload?).flatMap Prod.snd ∧
      ∀ before entry after, log = before ++ entry :: after →
        ∀ track notes, entry.payload? = some (track, notes) →
          resolveTarget structural snapshot = some track ∧ notes ≠ [] ∧
            entry.action.isAttach = true ∧ entry.action.get? "track" = some (.nat track) ∧
            (Deleted track (before.map Entry.action) ↔ Deleted track structural ∧
              ∀ action ∈ structural, attachesTo track action = false) := by
  intro released
  have hdescribed : released.flatMap Release.described =
      (Capability.sortBy Contribution.capability parts).flatMap fun part =>
        part.actions.map (tag (resolveTarget structural snapshot)) := by
    simp only [released, releaseAll, List.flatMap_map]
    rfl
  rw [actions_merge, ← hdescribed]
  simp only [released, releaseAll]
  cases resolveTarget structural snapshot with
  | none =>
      have nothing := receives_nothing 0 structural
      refine ⟨structural.map .structural, by rw [Entry.map_action_structural]; rfl,
        nothing.pushed, nothing.described, ?_, ?_⟩
      · rw [nothing.notes]
        simp [Release.payload?]
      · intro before entry after hsplit track given hpayload
        rw [Entry.payload?_of_mem structural (by simp [hsplit])] at hpayload
        cases hpayload
  | some target =>
      obtain ⟨log, hlog, receives⟩ :=
        exists_receives target (Capability.sortBy Contribution.capability parts) spares
      refine ⟨log, congrArg (· ++ _) hlog, receives.pushed, receives.described, ?_, ?_⟩
      · rw [receives.notes, flatMap_payload]
      · intro before entry after hsplit track given hpayload
        obtain ⟨rfl, hreceived⟩ := receives.receivers before entry after hsplit track given hpayload
        exact ⟨rfl, hreceived⟩

/-! ### Delivering -/

/-- A buffer in which nothing is left hands on nothing when it is flushed. -/
theorem Buffer.emitted_flush {buffer : Buffer} (hready : buffer.ready = [])
    (hwithheld : buffer.withheld = []) : buffer.flush.emitted = buffer.emitted := by
  have hnone : Capability.sortBy Contribution.capability [] = [] := List.mergeSort_nil
  rw [flush, resolve, if_pos rfl]
  simp [hready, hwithheld, hnone, emit]

/-- What comes late attaches notes, or is an action of a contribution. -/
theorem Entry.Late.isAttach_or_described {waited : List Action} {parts : List Contribution}
    {goal : Option Nat} {entry : Entry} (late : entry.Late waited parts goal)
    (hwaited : ∀ action ∈ waited, action.isAttach = true) :
    entry.action.isAttach = true ∨ entry.described? = some entry.action := by
  cases entry with
  | structural action => exact .inl (hwaited action (late.waited action rfl))
  | filled action => exact .inl (hwaited action (late.waited action rfl))
  | attached => exact .inl rfl
  | described => exact .inr rfl

/-- Actions that may wait are all that a delivery leaves out in front. -/
theorem filter_pushedWhere {test : List Event → Action → Bool}
    (htest : ∀ past action, action.isAttach = false → test past action = true)
    (past events : List Event) :
    (pushedWhere test past events).filter (fun action => !action.isAttach) =
      (events.filterMap Event.action?).filter fun action => !action.isAttach := by
  induction events generalizing past with
  | nil => rfl
  | cons event rest ih =>
      rw [pushedWhere, List.filter_append, ih]
      cases haction : event.action? with
      | none => rw [List.filterMap_cons_none haction]; rfl
      | some action =>
          rw [List.filterMap_cons_some haction, Option.filter_some, List.filter_cons]
          cases hattach : action.isAttach with
          | true => split <;> simp [hattach]
          | false => simp [hattach, htest past action hattach]

variable {task : Bool} {structural : List Action}
  {contents : List (Capability × Option Contribution)} {events : List Event}

/-- A delivery hands on the structural actions, up to some that attach notes, and then what is
late. -/
theorem Schedule.exists_late (schedule : Schedule task structural contents events)
    (snapshot : Snapshot) :
    let released := releases snapshot (!task) [] [] (events ++ [.flushed])
    ∃ (front : List Action) (late : List Entry) (waited : List Action), Account
        ((Buffer.start snapshot task (contents.map Prod.fst)).run (events ++ [.flushed]))
        (front.map .structural ++ late) (released.flatMap Release.described)
        (released.filterMap Release.payload?) ∧
      (front.filter fun action => !action.isAttach) =
        structural.filter (fun action => !action.isAttach) ∧
      (∀ action ∈ waited, action.isAttach = true) ∧
      ∀ entry ∈ late, entry.Late waited ((events ++ [Event.flushed]).filterMap Event.part?)
        (resolveTarget structural snapshot) := by
  intro released
  cases task with
  | false =>
      obtain ⟨rfl, -⟩ := schedule.absent rfl
      have hstart : Account (Buffer.start snapshot false (contents.map Prod.fst))
          (([] : List Action).map .structural) [] [] :=
        ⟨rfl, by simp, .refl _, by simp [Buffer.start], rfl, rfl⟩
      obtain ⟨late, account, hlate⟩ :=
        hstart.late (action?_eq_none schedule.pushed (List.Subset.refl _))
      exact ⟨[], late, [], account, rfl, by simp, hlate⟩
  | true =>
      obtain ⟨before, after, rfl, hbefore, -, hafter⟩ := schedule.completed rfl
      have hunflushed : .flushed ∉ before := fun hmem =>
        schedule.unflushed (List.mem_append_left _ hmem)
      have hquiet : (Event.structuralFinished :: after).filterMap Event.action? = [] := hafter
      have hstructural : before.filterMap Event.action? = structural := by
        rw [← schedule.pushed, List.filterMap_append, hquiet, List.append_nil]
      have opened := Buffer.account_opened snapshot (contents.map Prod.fst) before
      obtain ⟨late, account, hlate⟩ :=
        opened.late (action?_eq_none hquiet (List.Subset.refl _))
      have hreleases : releases snapshot false [] []
          (before ++ (.structuralFinished :: after ++ [.flushed])) =
            releases snapshot false structural (before.filterMap Event.part?)
              (.structuralFinished :: after ++ [.flushed]) := by
        rw [releases_append snapshot [] [] hbefore hunflushed, List.nil_append, List.nil_append,
          hstructural]
      rw [← hstructural] at hreleases ⊢
      rw [List.append_assoc, List.filterMap_append]
      refine ⟨prompt (contents.map Prod.fst) before, late, waiting (contents.map Prod.fst) before,
        ?_, ?_, fun action haction => (opened.withheld action haction).1, hlate⟩
      · rw [Buffer.run_append, Buffer.run_start_eq_opened snapshot _ hbefore hunflushed]
        rw [show released = _ from (congrArg _ (List.append_assoc _ _ _)).trans hreleases]
        exact account
      · refine filter_pushedWhere ?_ [] before
        intro past action hattach
        rw [waits, hattach]
        rfl

/-- Behind structural actions and some of what is late, a track is deleted when the structural
actions leave it deleted or an action of a contribution deletes it. -/
theorem deleted_behind {front waited : List Action} {parts : List Contribution}
    {goal : Option Nat} {between : List Entry} (hwaited : ∀ action ∈ waited, action.isAttach = true)
    (hlate : ∀ entry ∈ between, entry.Late waited parts goal) (track : Nat) :
    (Deleted track (front ++ between.map Entry.action) → Deleted track front ∨
        ∃ action ∈ between.filterMap Entry.described?, deletes track action = true) ∧
      (Deleted track front →
        (∀ action ∈ between.filterMap Entry.described?, creates track action = false) →
          Deleted track (front ++ between.map Entry.action)) := by
  constructor
  · intro hdeleted
    refine hdeleted.of_append.imp_right ?_
    rintro ⟨action, haction, hdeletes⟩
    obtain ⟨entry, hentry, rfl⟩ := List.mem_map.1 haction
    rcases (hlate entry hentry).isAttach_or_described hwaited with hattach | hdescribed
    · rw [deletes_of_isAttach hattach] at hdeletes
      cases hdeletes
    · exact ⟨entry.action, List.mem_filterMap.2 ⟨entry, hentry, hdescribed⟩, hdeletes⟩
  · intro hdeleted hcreates
    refine hdeleted.append ?_
    intro action haction
    obtain ⟨entry, hentry, rfl⟩ := List.mem_map.1 haction
    rcases (hlate entry hentry).isAttach_or_described hwaited with hattach | hdescribed
    · exact creates_of_isAttach hattach
    · exact hcreates entry.action (List.mem_filterMap.2 ⟨entry, hentry, hdescribed⟩)

/-- When structural actions attach no notes to a deleted track, an action of the merged list that
receives notes of contributions comes behind a deletion of its track just when the structural
actions leave the track deleted and attach no notes to it. A delivery attaches the notes of a
contribution to a deleted track only when the structural actions leave it deleted or an action of a
contribution, handed on in front of the notes, deletes it; and when the structural actions leave it
deleted it does so, unless an action of a contribution creates it. -/
theorem notes_spare_deleted (schedule : Schedule task structural contents events)
    (snapshot : Snapshot) (spares : SparesDeleted structural) :
    let parts := contents.filterMap Prod.snd
    let goal := resolveTarget structural snapshot
    let released := releaseAll snapshot structural parts
    let delivery := Buffer.start snapshot task (contents.map Prod.fst)
    (∃ log : List Entry,
      (merge structural parts snapshot).actions =
        log.map Entry.action ++ released.flatMap Release.described ∧
      log.filterMap Entry.pushed? = structural ∧ log.filterMap Entry.described? = [] ∧
      (log.filterMap Entry.payload?).flatMap Prod.snd =
        (released.filterMap Release.payload?).flatMap Prod.snd ∧
      ∀ before entry after, log = before ++ entry :: after →
        ∀ track notes, entry.payload? = some (track, notes) →
          goal = some track ∧ notes ≠ [] ∧
            entry.action.isAttach = true ∧ entry.action.get? "track" = some (.nat track) ∧
            (Deleted track (before.map Entry.action) ↔ Deleted track structural ∧
              ∀ action ∈ structural, attachesTo track action = false)) ∧
    ∃ log : List Entry,
      (delivery.run (events ++ [.flushed])).emitted = log.map Entry.action ∧
      (∀ entry ∈ log, entry.Proper) ∧
      (log.filterMap Entry.pushed?).Perm structural ∧
      (log.filterMap Entry.described?).Perm (released.flatMap Release.described) ∧
      (log.filterMap Entry.payload?).Perm (released.filterMap Release.payload?) ∧
      ∀ before entry after, log = before ++ entry :: after →
        ∀ track notes, entry.payload? = some (track, notes) → goal = some track ∧
          (Deleted track (before.map Entry.action) → Deleted track structural ∨
            ∃ action ∈ before.filterMap Entry.described?, deletes track action = true) ∧
          (Deleted track structural →
            (∀ action ∈ before.filterMap Entry.described?, creates track action = false) →
              Deleted track (before.map Entry.action)) := by
  intro parts goal released delivery
  refine ⟨exists_merge_log structural parts snapshot spares, ?_⟩
  obtain ⟨front, late, waited, account, hfront, hwaited, hlate⟩ := schedule.exists_late snapshot
  have hreleases := schedule.releases_perm snapshot
  have hpushed := account.pushed_of_flushed
  rw [schedule.pushed] at hpushed
  refine ⟨_, account.emitted, account.proper, hpushed, ?_, ?_, ?_⟩
  · rw [account.described]
    exact hreleases.flatMap_right _
  · rw [account.payloads]
    exact hreleases.filterMap Release.payload?
  · intro before entry after hsplit track notes hpayload
    obtain ⟨between, rfl, rfl⟩ := Entry.split_late hsplit hpayload
    obtain ⟨hbetween, hentry⟩ := List.forall_mem_append.1 hlate
    have hgoal := ((hentry entry List.mem_cons_self).notes track notes hpayload).1
    have hbefore : (front.map Entry.structural ++ between).map Entry.action =
        front ++ between.map Entry.action := by
      rw [List.map_append, List.map_map]
      simp [Function.comp_def, Entry.action]
    rw [hbefore, List.filterMap_append, Entry.described?_structural, List.nil_append,
      ← deleted_congr hfront]
    exact ⟨hgoal, deleted_behind hwaited hbetween track⟩

/-- A beat comes in before the track that it goes to is deleted and created anew. -/
theorem notes_spare_deleted_beat :
    let remove : Action := ⟨Action.Kind.deleteTrack, [("track", .nat 0)]⟩
    let create : Action := ⟨Action.Kind.createTrack, [("index", .nat 0)]⟩
    let clip : Action := ⟨Action.Kind.addMidi, [("track", .nat 0)]⟩
    let structural := [remove, create, clip]
    let beat : Contribution := ⟨.drummer, [⟨Action.Kind.drumPattern, []⟩], [⟨36, 100, 0, 1⟩]⟩
    let pattern : Action := ⟨Action.Kind.drumPattern, [("track", .nat 0)]⟩
    let events : List Event := [.contentFinished .drummer (some beat), .pushed remove,
      .pushed create, .pushed clip, .structuralFinished]
    Schedule true structural [(.drummer, some beat)] events ∧ SparesDeleted structural ∧
      (∃ log : List Entry, (merge structural [beat] {}).actions =
          log.map Entry.action ++ [pattern] ∧
        ∀ before entry after, log = before ++ entry :: after →
          ∀ track notes, entry.payload? = some (track, notes) →
            ¬ Deleted track (before.map Entry.action)) ∧
      ∃ log : List Entry,
        ((Buffer.start {} true [.drummer]).run (events ++ [.flushed])).emitted =
          log.map Entry.action ∧
        ∀ before entry after, log = before ++ entry :: after →
          ∀ track notes, entry.payload? = some (track, notes) →
            ¬ Deleted track (before.map Entry.action) := by
  intro remove create clip structural beat pattern events
  have schedule : Schedule true structural [(.drummer, some beat)] events := {
    pushed := rfl
    finished := .refl _
    unflushed := by simp [events]
    completed := fun _ => ⟨[.contentFinished .drummer (some beat), .pushed remove,
      .pushed create, .pushed clip], [], rfl, by simp, by simp, rfl⟩
    absent := nofun }
  have hanew : ¬ Deleted 0 [remove, create] := fun hdeleted =>
    ((@deleted_concat 0 create [remove]).1 hdeleted).elim nofun fun h => nomatch h.2
  have spares : SparesDeleted structural := by
    refine (@sparesDeleted_concat clip [remove, create]).2 ⟨?_, ?_⟩
    · exact (@sparesDeleted_concat create [remove]).2 ⟨sparesDeleted_singleton remove, nofun⟩
    · intro _ track htrack
      obtain rfl : 0 = track := Option.some.inj htrack
      exact hanew
  have hkept : ¬ Deleted 0 structural := fun hdeleted =>
    hanew ((@deleted_concat_of_isAttach 0 clip [remove, create] rfl).1 hdeleted)
  have hdescribed : (releaseAll {} structural [beat]).flatMap Release.described = [pattern] := by
    have hsort : Capability.sortBy Contribution.capability [beat] = [beat] :=
      List.mergeSort_singleton beat
    rw [releaseAll, hsort]
    rfl
  obtain ⟨⟨merged, hmerged, -, -, -, hreceivers⟩, log, hemitted, -, -, hlog, -, hentries⟩ :=
    notes_spare_deleted schedule {} spares
  refine ⟨schedule, spares, ⟨merged, hmerged.trans (congrArg _ hdescribed), ?_⟩, log, hemitted,
    ?_⟩
  · intro before entry after hsplit track notes hpayload hdeleted
    obtain ⟨hgoal, -, -, -, hiff⟩ := hreceivers before entry after hsplit track notes hpayload
    obtain rfl : 0 = track := Option.some.inj hgoal
    exact hkept (hiff.1 hdeleted).1
  · intro before entry after hsplit track notes hpayload hdeleted
    obtain ⟨hgoal, honly, -⟩ := hentries before entry after hsplit track notes hpayload
    obtain rfl : 0 = track := Option.some.inj hgoal
    rcases honly hdeleted with hdeleted | ⟨action, haction, hdeletes⟩
    · exact hkept hdeleted
    · have hmem : action ∈ [pattern] := by
        rw [← hdescribed]
        refine hlog.subset ?_
        rw [hsplit, List.filterMap_append]
        exact List.mem_append_left _ haction
      rw [List.mem_singleton.1 hmem] at hdeletes
      cases hdeletes

/-- Three ways in which the notes of a beat are attached to a deleted track: the merge puts them
behind the deletion of the only track; a delivery holds the action for them back until the track is
deleted; a contribution deletes the track before the notes of another one arrive. -/
theorem attached_to_deleted :
    let remove : Action := ⟨Action.Kind.deleteTrack, [("track", .nat 0)]⟩
    let create : Action := ⟨Action.Kind.createTrack, [("index", .nat 0)]⟩
    let clip : Action := ⟨Action.Kind.addMidi, [("track", .nat 0)]⟩
    let removal : Contribution := ⟨.arranger, [⟨Action.Kind.deleteTrack, []⟩], []⟩
    let beat : Contribution := ⟨.drummer, [⟨Action.Kind.drumPattern, []⟩], [⟨36, 100, 0, 1⟩]⟩
    let pattern : Action := ⟨Action.Kind.drumPattern, [("track", .nat 0)]⟩
    let held : List Event := [.contentFinished .drummer (some beat), .pushed create,
      .pushed clip, .pushed remove, .structuralFinished]
    let chained : List Event := [.contentFinished .arranger (some removal),
      .contentFinished .drummer (some beat), .pushed create, .structuralFinished]
    (SparesDeleted [remove] ∧ (merge [remove] [beat] ⟨[{}]⟩).actions =
      [remove, .attaching 0 (notesOf [beat]), pattern] ∧ Deleted 0 [remove]) ∧
    (SparesDeleted [create, clip, remove] ∧
      Schedule true [create, clip, remove] [(.drummer, some beat)] held ∧
      ((Buffer.start {} true [.drummer]).run (held ++ [.flushed])).emitted =
        [create, remove, clip.appendNotes (notesOf [beat]), pattern] ∧
      Deleted 0 [create, remove]) ∧
    (SparesDeleted [create] ∧
      Schedule true [create] [(.arranger, some removal), (.drummer, some beat)] chained ∧
      ((Buffer.start {} true [.arranger, .drummer]).run (chained ++ [.flushed])).emitted =
        [create, remove, .attaching 0 (notesOf [beat]), pattern] ∧
      Deleted 0 [create, remove]) := by
  intro remove create clip removal beat pattern held chained
  have hbeat : Capability.sortBy Contribution.capability [beat] = [beat] :=
    List.mergeSort_singleton beat
  have hboth : Capability.sortBy Contribution.capability [removal, beat] = [removal, beat] :=
    List.mergeSort_of_pairwise (by decide)
  have hdeleted : Deleted 0 [create, remove] := ⟨[create], remove, [], rfl, rfl, by simp⟩
  refine ⟨⟨?_, ?_, ⟨[], remove, [], rfl, rfl, by simp⟩⟩, ⟨?_, ?_, ?_, hdeleted⟩,
    ⟨sparesDeleted_singleton create, ?_, ?_, hdeleted⟩⟩
  · exact sparesDeleted_singleton remove
  · rw [actions_merge, hbeat]
    rfl
  · refine (@sparesDeleted_concat remove [create, clip]).2 ⟨?_, nofun⟩
    refine (@sparesDeleted_concat clip [create]).2 ⟨sparesDeleted_singleton create, ?_⟩
    intro _ target _ hcreated
    exact ((@deleted_concat target create []).1 hcreated).elim nofun fun h =>
      not_deleted_nil target h.1
  · exact {
      pushed := rfl
      finished := .refl _
      unflushed := by simp [held]
      completed := fun _ => ⟨[.contentFinished .drummer (some beat), .pushed create,
        .pushed clip, .pushed remove], [], rfl, by simp, by simp, rfl⟩
      absent := nofun }
  · rw [Buffer.run_append]
    show (Buffer.resolve ⟨{}, [create, remove], [create, clip, remove], [clip], true, [], [beat],
      []⟩).flush.emitted = _
    rw [Buffer.resolve, if_pos rfl, hbeat]
    exact Buffer.emitted_flush rfl rfl
  · exact {
      pushed := rfl
      finished := .refl _
      unflushed := by simp [chained]
      completed := fun _ => ⟨[.contentFinished .arranger (some removal),
        .contentFinished .drummer (some beat), .pushed create], [], rfl, by simp, by simp, rfl⟩
      absent := nofun }
  · rw [Buffer.run_append]
    show (Buffer.resolve ⟨{}, [create], [create], [], true, [], [removal, beat],
      []⟩).flush.emitted = _
    rw [Buffer.resolve, if_pos rfl, hboth]
    exact Buffer.emitted_flush rfl rfl

end Studio.Delivery
