import Studio.Proofs.Delivery.Dependencies
import Studio.Proofs.Delivery.Merging

/-!
# Notes for actions that wait for them

A structural action that could take notes for the target is held back while contributions are
outstanding, and a new action for notes is made only if none is held back. How many are made is
then a matter of numbers: `attachCount_run` counts the actions that attach notes in a buffer, and
`run_fills_waiting` reads off which of the structural ones are filled, whatever the order in which
everything came in.
-/

namespace Studio

/-- Whether a contribution brings notes. -/
def Contribution.hasNotes (part : Contribution) : Bool :=
  !part.notes.isEmpty

namespace Delivery

open Session (Snapshot)

/-- Whether an action is there to attach notes to a track and has none yet. -/
def awaitsNotes (target : Nat) (action : Action) : Bool :=
  attachesTo target action && action.notes.isEmpty

/-- Actions that attach no notes do not when they name the target as their track. -/
theorem countP_map_tag (target : Option Nat) {actions : List Action}
    (plain : ∀ action ∈ actions, action.isAttach = false) :
    (actions.map (tag target)).countP Action.isAttach = 0 := by
  refine List.countP_eq_zero.2 fun action haction => ?_
  obtain ⟨original, horiginal, rfl⟩ := List.mem_map.1 haction
  have htag : (tag target original).isAttach = original.isAttach := by
    cases target <;> rfl
  rw [htag, plain original horiginal]
  exact Bool.false_ne_true

/-! ### Entries of a log -/

namespace Entry

/-- Whether notes were put into a structural action. -/
def isFilled : Entry → Bool
  | filled _ _ _ => true
  | _ => false

/-- Whether an action was made for notes. -/
def isAttached : Entry → Bool
  | attached _ _ => true
  | _ => false

/-- Whether a structural action that awaits notes for a track was handed on without any. -/
def isLeftEmpty (target : Nat) : Entry → Bool
  | structural action => awaitsNotes target action
  | _ => false

/-- Notes are in a structural action or in one that was made for them. -/
theorem length_payloads (log : List Entry) :
    (log.filterMap payload?).length = log.countP isFilled + log.countP isAttached := by
  induction log with
  | nil => rfl
  | cons entry rest ih =>
      cases entry with
      | structural | described => exact ih
      | filled | attached =>
          simp only [List.filterMap_cons, payload?, List.length_cons, List.countP_cons, isFilled,
            isAttached, Bool.false_eq_true, if_true, if_false]
          omega

/-- Filling an action does not change that it attaches notes. -/
theorem countP_isAttach (log : List Entry) :
    (log.map action).countP Action.isAttach = (log.filterMap pushed?).countP Action.isAttach +
      log.countP isAttached + (log.filterMap described?).countP Action.isAttach := by
  induction log with
  | nil => rfl
  | cons entry rest ih =>
      cases entry with
      | structural action | filled action | described action =>
          simp only [List.filterMap_cons, pushed?, described?]
          by_cases hattach : action.isAttach = true
          · simp [isAttached, Entry.action, hattach, ih]
            omega
          · simp [isAttached, Entry.action, hattach, ih]
      | attached =>
          simp [List.filterMap_cons, List.countP_cons, pushed?, described?, isAttached,
            Entry.action, ih]
          omega

/-- A structural action that awaits notes for a track is filled or left empty. -/
theorem countP_awaitsNotes {target : Nat} {log : List Entry} (hproper : ∀ entry ∈ log, entry.Proper)
    (htarget : ∀ payload ∈ log.filterMap payload?, payload.1 = target) :
    (log.filterMap pushed?).countP (awaitsNotes target) =
      log.countP isFilled + log.countP (isLeftEmpty target) := by
  induction log with
  | nil => rfl
  | cons entry rest ih =>
      obtain ⟨hentry, hrest⟩ := List.forall_mem_cons.1 hproper
      cases entry with
      | structural action =>
          have ih := ih hrest htarget
          by_cases hawaits : awaitsNotes target action = true
          · simp [pushed?, isFilled, isLeftEmpty, hawaits, ih]
            omega
          · simp [pushed?, isFilled, isLeftEmpty, hawaits, ih]
      | filled action track notes =>
          obtain ⟨htrack, htarget⟩ := List.forall_mem_cons.1 htarget
          have hawaits : awaitsNotes target action = true := by
            rw [awaitsNotes, ← htrack, hentry.1, hentry.2]
            rfl
          simp [List.countP_cons, pushed?, isFilled, isLeftEmpty, hawaits, ih hrest htarget]
          omega
      | attached => exact ih hrest (List.forall_mem_cons.1 htarget).2
      | described => exact ih hrest htarget

end Entry

/-! ### Counting in a buffer -/

namespace Buffer

/-- How many actions that attach notes were handed on or are held back. -/
def attachCount (buffer : Buffer) : Nat :=
  buffer.emitted.countP Action.isAttach + buffer.withheld.countP Action.isAttach

/-- How many of the actions that are held back are for a track. -/
def heldFor (target : Nat) (buffer : Buffer) : Nat :=
  buffer.withheld.countP (touches target)

/-- Notes go into an action that is held back for their track, and into a new one only if there is
none. -/
theorem countP_fill (target : Nat) (notes : List Json) (withheld : List Action) :
    ((fill target notes withheld).1 :: (fill target notes withheld).2).countP Action.isAttach =
        withheld.countP Action.isAttach + (1 - withheld.countP (touches target)) ∧
      (fill target notes withheld).2.countP (touches target) =
        withheld.countP (touches target) - 1 := by
  unfold fill
  cases hsplit : splitFirst? (touches target) withheld with
  | some parts =>
      obtain ⟨before, found, after⟩ := parts
      obtain ⟨rfl, htouches, -⟩ := splitFirst?_eq_some hsplit
      by_cases hattach : found.isAttach = true
      all_goals
        simp [htouches, hattach]
        omega
  | none =>
      have hnone : withheld.countP (touches target) = 0 :=
        List.countP_eq_zero.2 fun action haction =>
          ne_true_of_eq_false (splitFirst?_eq_none hsplit action haction)
      rw [hnone]
      exact ⟨List.countP_cons_of_pos rfl, rfl⟩

/-- From one state to another, the notes of some contributions went into the actions that are held
back for a track, and new actions were made for what these did not take. -/
structure Serves (target count : Nat) (buffer next : Buffer) : Prop where
  attachCount : next.attachCount = buffer.attachCount + (count - buffer.heldFor target)
  heldFor : next.heldFor target = buffer.heldFor target - count

/-- Contributions that are served one run behind the other are served together. -/
theorem Serves.trans {target first second : Nat} {buffer between next : Buffer}
    (h : Serves target first buffer between) (hnext : Serves target second between next) :
    Serves target (first + second) buffer next where
  attachCount := by
    rw [hnext.attachCount, h.attachCount, h.heldFor]
    omega
  heldFor := by
    rw [hnext.heldFor, h.heldFor]
    omega

variable {buffer : Buffer} {target : Nat}

/-- A contribution is served by an action that awaits notes, or by a new one. -/
theorem serves_release (htarget : resolveTarget buffer.structural buffer.snapshot = some target)
    {part : Contribution} (plain : ∀ action ∈ part.actions, action.isAttach = false) :
    Serves target (if part.hasNotes then 1 else 0) buffer (buffer.release part) := by
  have hdescribed := countP_map_tag (some target) plain
  have hrelease : buffer.release part =
      if part.notes.isEmpty then buffer.emit (part.actions.map (tag (some target)))
      else
        let filled := fill target (part.notes.map Music.Note.toJson) buffer.withheld
        { buffer.emit (filled.1 :: part.actions.map (tag (some target))) with
          withheld := filled.2 } := by
    rw [release, htarget]
  cases hnotes : part.notes.isEmpty with
  | true =>
      rw [hrelease, hnotes, if_pos rfl, Contribution.hasNotes, hnotes]
      refine ⟨?_, rfl⟩
      simp only [attachCount, emit, List.countP_append, hdescribed]
      simp
  | false =>
      obtain ⟨hattach, hheld⟩ :=
        countP_fill target (part.notes.map Music.Note.toJson) buffer.withheld
      rw [hrelease, hnotes, if_neg Bool.false_ne_true, Contribution.hasNotes, hnotes]
      rw [List.countP_cons] at hattach
      refine ⟨?_, hheld⟩
      simp only [attachCount, heldFor, emit, List.countP_append, List.countP_cons, hdescribed,
        Bool.not_false, if_true]
      omega

/-- Contributions that are released one by one are served. -/
theorem serves_foldl_release (buffer : Buffer) {parts : List Contribution}
    (htarget : resolveTarget buffer.structural buffer.snapshot = some target)
    (plain : ∀ part ∈ parts, ∀ action ∈ part.actions, action.isAttach = false) :
    Serves target (parts.countP Contribution.hasNotes) buffer
      (parts.foldl (fun state part => state.release part) buffer) := by
  induction parts generalizing buffer with
  | nil => exact ⟨by simp, by simp⟩
  | cons part rest ih =>
      obtain ⟨hpart, hrest⟩ := List.forall_mem_cons.1 plain
      obtain ⟨_, _, _, hframe⟩ := release_frame buffer part
      have hnext := ih (buffer.release part) (by rw [hframe]; exact htarget) hrest
      rw [List.countP_cons, Nat.add_comm]
      exact (serves_release htarget hpart).trans hnext

/-- What is held back stays so as long as contributions are awaited. When it is let go it counts as
before. -/
theorem counts_resolve (buffer : Buffer) (hsettled : buffer.settled = true)
    (htarget : resolveTarget buffer.structural buffer.snapshot = some target)
    (plain : ∀ part ∈ buffer.ready, ∀ action ∈ part.actions, action.isAttach = false) :
    buffer.resolve.attachCount =
        buffer.attachCount + (buffer.ready.countP Contribution.hasNotes - buffer.heldFor target) ∧
      (buffer.pending ≠ [] → buffer.resolve.heldFor target =
        buffer.heldFor target - buffer.ready.countP Contribution.hasNotes) := by
  have hsort := Capability.sortBy_perm Contribution.capability buffer.ready
  have hreleased := serves_foldl_release { buffer with ready := [] } htarget
    fun part hpart => plain part (hsort.subset hpart)
  rw [hsort.countP_eq] at hreleased
  obtain ⟨_, _, _, hframe⟩ := foldl_release_frame
    (Capability.sortBy Contribution.capability buffer.ready) { buffer with ready := [] }
  unfold resolve
  rw [if_pos hsettled]
  dsimp only
  split
  · next hpending =>
    rw [hframe] at hpending
    refine ⟨?_, fun hsome => absurd (List.isEmpty_iff.1 hpending) hsome⟩
    refine Eq.trans ?_ hreleased.attachCount
    exact congrArg (· + 0) List.countP_append
  · exact ⟨hreleased.attachCount, fun _ => hreleased.heldFor⟩

/-- Once the structural actions are complete, an event counts for the contributions that it
releases. -/
theorem counts_step (hsettled : buffer.settled = true)
    (htarget : resolveTarget buffer.structural buffer.snapshot = some target) (event : Event)
    (complete : event.action? = none)
    (plain : ∀ part ∈ buffer.ready ++ event.part?.toList, ∀ action ∈ part.actions,
      action.isAttach = false) :
    let count := (buffer.ready ++ event.part?.toList).countP Contribution.hasNotes
    let next := buffer.step event
    next.attachCount = buffer.attachCount + (count - buffer.heldFor target) ∧
      (next.pending ≠ [] → next.heldFor target = buffer.heldFor target - count) ∧
      next.ready = [] ∧ next.settled = true ∧
      resolveTarget next.structural next.snapshot = some target := by
  intro count next
  obtain ⟨settled, pending, harrived, hkept⟩ := buffer.arrived_frame event
  obtain rfl := hkept hsettled
  let arrived : Buffer := { buffer with
    settled := true, pending, ready := buffer.ready ++ event.part?.toList }
  have hnext : next = arrived.resolve := (step_eq_resolve complete).trans (congrArg _ harrived)
  obtain ⟨_, _, _, hframe, -⟩ := resolve_frame arrived rfl
  obtain ⟨hattach, hheld⟩ := counts_resolve arrived rfl htarget plain
  rw [hnext]
  refine ⟨hattach, ?_⟩
  rw [hframe] at hheld ⊢
  exact ⟨hheld, rfl, rfl, htarget⟩

end Buffer

/-- Every capability finishes once with events, and only if it is awaited. -/
structure Expects (pending : List Capability) (events : List Event) : Prop where
  distinct : ((events.filterMap Event.finished?).map Prod.fst).Nodup
  awaited : ∀ finished ∈ events.filterMap Event.finished?, finished.1 ∈ pending
  unflushed : .flushed ∉ events

namespace Expects

variable {buffer : Buffer}

/-- If none is awaited, no contribution comes. -/
theorem parts_eq_nil {events : List Event} (h : Expects [] events) :
    events.filterMap Event.part? = [] := by
  have hnone : events.filterMap Event.finished? = [] :=
    List.eq_nil_iff_forall_not_mem.2 fun finished hmem => List.not_mem_nil (h.awaited finished hmem)
  rw [filterMap_part?, hnone, List.filterMap_nil]

/-- What an event says was expected, and what comes behind it still is. -/
theorem step {event : Event} {rest : List Event} (h : Expects buffer.pending (event :: rest)) :
    Expects (buffer.step event).pending rest where
  distinct := (((List.sublist_cons_self event rest).filterMap _).map _).nodup h.distinct
  awaited := by
    intro finished hmem
    have hpending : finished.1 ∈ buffer.pending :=
      h.awaited finished (((List.sublist_cons_self event rest).filterMap _).subset hmem)
    cases event with
    | pushed action =>
        show finished.1 ∈ (buffer.push action).pending
        rwa [(Buffer.push_fields buffer action).2.1]
    | structuralFinished =>
        show finished.1 ∈ buffer.finishStructural.pending
        rwa [Buffer.finishStructural, (Buffer.resolve_fields _).2.1]
    | contentFinished capability part =>
        -- The capability that finishes now does not finish later.
        have hne : finished.1 ≠ capability := by
          rintro rfl
          exact (List.nodup_cons.1 h.distinct).1 (List.mem_map.2 ⟨finished, hmem, rfl⟩)
        show finished.1 ∈ (buffer.finishContent capability part).pending
        rw [Buffer.finishContent, (Buffer.resolve_fields _).2.1]
        exact List.mem_filter.2 ⟨hpending, decide_eq_true hne⟩
    | flushed => exact absurd List.mem_cons_self h.unflushed
  unflushed := fun hmem => h.unflushed (List.mem_cons_of_mem _ hmem)

/-- What comes behind a run of events is still expected. -/
theorem run {before after : List Event} (h : Expects buffer.pending (before ++ after)) :
    Expects (buffer.run before).pending after := by
  induction before generalizing buffer with
  | nil => exact h
  | cons event rest ih => exact ih h.step

end Expects

/-- When the structural actions are complete and every capability finishes once, as many new actions
are made as there are contributions with notes beyond the actions that are held back. -/
theorem Buffer.attachCount_run {buffer : Buffer} {target : Nat} {events : List Event}
    (hsettled : buffer.settled = true)
    (htarget : resolveTarget buffer.structural buffer.snapshot = some target)
    (expects : Expects buffer.pending events) (complete : ∀ event ∈ events, event.action? = none)
    (plain : ∀ part ∈ buffer.ready ++ events.filterMap Event.part?, ∀ action ∈ part.actions,
      action.isAttach = false) :
    (buffer.run (events ++ [.flushed])).attachCount = buffer.attachCount +
      ((buffer.ready ++ events.filterMap Event.part?).countP Contribution.hasNotes -
        buffer.heldFor target) := by
  induction events generalizing buffer with
  | nil => exact (counts_step hsettled htarget .flushed rfl plain).1
  | cons event rest ih =>
      have hparts : buffer.ready ++ (event :: rest).filterMap Event.part? =
          (buffer.ready ++ event.part?.toList) ++ rest.filterMap Event.part? := by
        rw [filterMap_cons_toList, List.append_assoc]
      rw [hparts] at plain ⊢
      obtain ⟨hevent, hrest⟩ := List.forall_mem_cons.1 complete
      obtain ⟨hattach, hheld, hready, hsettled, htarget⟩ :=
        counts_step hsettled htarget event hevent fun part hpart =>
          plain part (List.mem_append_left _ hpart)
      have hexpects := expects.step
      have hlater := ih hsettled htarget hexpects hrest fun part hpart =>
        plain part (List.mem_append_right _ (by rwa [hready, List.nil_append] at hpart))
      rw [hready, List.nil_append] at hlater
      rw [List.countP_append]
      show ((buffer.step event).run (rest ++ [.flushed])).attachCount = _
      rw [hlater, hattach]
      by_cases hpending : (buffer.step event).pending = []
      · -- What was held back was let go, and no notes come any more.
        rw [hpending] at hexpects
        rw [hexpects.parts_eq_nil, List.countP_nil]
        omega
      · rw [hheld hpending]
        omega

/-! ### Before the structural actions are complete -/

/-- While contributions are outstanding, all structural actions wait that attach no notes yet. -/
theorem waiting_of_outstanding {announced : List Capability} {events : List Event}
    (h : ∀ past, past <+: events → outstandingAfter announced past = true) :
    waiting announced events = (events.filterMap Event.action?).filter fun action =>
      action.isAttach && action.notes.isEmpty := by
  induction events using List.reverseRecOn with
  | nil => rfl
  | append_singleton events event ih =>
      have hbefore := ih fun past hpast => h past (hpast.trans (List.prefix_append _ _))
      have hwaits : waits announced events = fun action =>
          action.isAttach && action.notes.isEmpty := by
        funext action
        rw [waits, h events (List.prefix_append _ _), Bool.and_true]
      rw [waiting] at hbefore ⊢
      have hevent : [event].filterMap Event.action? = event.action?.toList := by
        cases event <;> rfl
      rw [pushedWhere_concat, hbefore, hwaits, List.filterMap_append, List.filter_append, hevent,
        Option.toList_filter]

/-- Before any contribution, the attachments are those among the structural actions. -/
theorem Buffer.attachCount_opened (snapshot : Snapshot) (announced : List Capability)
    (events : List Event) : (opened snapshot announced events).attachCount =
      (events.filterMap Event.action?).countP Action.isAttach := by
  rw [← (pushedWhere_perm (waits announced) [] events).countP_eq, List.countP_append]
  rfl

/-- Before any contribution, what is held back for a track are the structural actions that await
notes for it. -/
theorem Buffer.heldFor_opened (snapshot : Snapshot) {announced : List Capability}
    {events : List Event} (h : ∀ past, past <+: events → outstandingAfter announced past = true)
    (target : Nat) : (opened snapshot announced events).heldFor target =
      (events.filterMap Event.action?).countP (awaitsNotes target) := by
  show (waiting announced events).countP (touches target) = _
  rw [waiting_of_outstanding h, List.countP_filter]
  refine congrArg (List.countP · _) (funext fun action => ?_)
  rw [awaitsNotes, attachesTo, touches, Bool.and_comm, Bool.and_right_comm]

/-- A buffer whose structural actions are complete, and the events to come. As many of its actions
attach notes as of the structural ones, and if there are contributions all of these are held back
that await notes. -/
structure Complete (snapshot : Snapshot) (structural : List Action) (parts : List Contribution)
    (buffer : Buffer) (rest : List Event) : Prop where
  settled : buffer.settled = true
  snapshot_eq : buffer.snapshot = snapshot
  structural_eq : buffer.structural = structural
  expects : Expects buffer.pending rest
  complete : ∀ event ∈ rest, event.action? = none
  parts_eq : buffer.ready ++ rest.filterMap Event.part? = parts
  attachCount_eq : buffer.attachCount = structural.countP Action.isAttach
  heldFor_eq : parts ≠ [] → ∀ target,
    buffer.heldFor target = structural.countP (awaitsNotes target)

namespace Schedule

variable {task : Bool} {structural : List Action}
  {contents : List (Capability × Option Contribution)} {events : List Event}
  (schedule : Schedule task structural contents events)
  (distinct : (contents.map Prod.fst).Nodup)
include schedule distinct

/-- The events of a delivery are what is expected at its start. -/
theorem expects (snapshot : Snapshot) :
    Expects (Buffer.start snapshot task (contents.map Prod.fst)).pending events where
  distinct := (schedule.finished.map Prod.fst).nodup_iff.2 distinct
  awaited := by
    intro finished hmem
    have hannounced : finished.1 ∈ contents.map Prod.fst :=
      List.mem_map_of_mem (schedule.finished.subset hmem)
    exact List.mem_filter.2 ⟨Capability.mem_all _, List.contains_iff_mem.2 hannounced⟩
  unflushed := schedule.unflushed

/-- If a contribution comes in, contributions are outstanding until the structural actions are
complete. -/
theorem outstanding {part : Contribution} (hpart : part ∈ contents.filterMap Prod.snd)
    {past : List Event} (hpast : past <+: events) :
    outstandingAfter (contents.map Prod.fst) past = true := by
  obtain ⟨⟨capability, brings⟩, hcontent, rfl⟩ := List.mem_filterMap.1 hpart
  rw [outstandingAfter, Bool.or_eq_true]
  by_cases hfinished : past.any (Event.finishes capability) = true
  · right
    obtain ⟨event, hevent, hfinishes⟩ := List.any_eq_true.1 hfinished
    obtain ⟨⟨finished, other⟩, hsome, hcapability⟩ := (Option.any_eq_true _ _).1 hfinishes
    obtain rfl : finished = capability := of_decide_eq_true hcapability
    -- The capability finishes once, and the contribution comes with it.
    have hother : (finished, other) ∈ contents := schedule.finished.subset
      (List.mem_filterMap.2 ⟨event, hpast.subset hevent, hsome⟩)
    obtain rfl : other = some part :=
      congrArg Prod.snd (List.inj_on_of_nodup_map distinct hother hcontent rfl)
    refine List.any_eq_true.2 ⟨event, hevent, ?_⟩
    cases event with
    | contentFinished _ brings =>
        obtain ⟨-, rfl⟩ := Prod.mk.inj (Option.some.inj hsome)
        rfl
    | pushed | structuralFinished | flushed => simp [Event.finished?] at hsome
  · left
    refine List.any_eq_true.2 ⟨capability, List.mem_map.2 ⟨_, hcontent, rfl⟩, ?_⟩
    rw [eq_false_of_ne_true hfinished, Bool.not_false]

/-- A delivery comes to a moment at which the structural actions are complete. -/
theorem exists_complete (snapshot : Snapshot) : ∃ buffer rest,
    Complete snapshot structural (events.filterMap Event.part?) buffer rest ∧
      (Buffer.start snapshot task (contents.map Prod.fst)).run (events ++ [.flushed]) =
        buffer.run (rest ++ [.flushed]) := by
  have hexpects := schedule.expects distinct snapshot
  cases task with
  | false =>
      -- Nothing is pushed, and nothing is held back.
      obtain ⟨rfl, -⟩ := schedule.absent rfl
      refine ⟨_, events, ?_, rfl⟩
      exact {
        settled := rfl
        snapshot_eq := rfl
        structural_eq := rfl
        expects := hexpects
        complete := List.filterMap_eq_nil_iff.1 schedule.pushed
        parts_eq := rfl
        attachCount_eq := rfl
        heldFor_eq := fun _ _ => rfl }
  | true =>
      obtain ⟨before, after, rfl, hbefore, -, hafter⟩ := schedule.completed rfl
      have hunflushed : .flushed ∉ before := fun hmem =>
        schedule.unflushed (List.mem_append_left _ hmem)
      have hpushed : before.filterMap Event.action? = structural := by
        rw [← schedule.pushed, List.filterMap_append, List.filterMap_cons_none rfl, hafter,
          List.append_nil]
      have hopened := Buffer.run_start_eq_opened snapshot (contents.map Prod.fst) hbefore hunflushed
      have hexpects := hexpects.run
      rw [hopened] at hexpects
      refine ⟨{ Buffer.opened snapshot (contents.map Prod.fst) before with settled := true },
        .structuralFinished :: after, ?_, ?_⟩
      · exact {
          settled := rfl
          snapshot_eq := rfl
          structural_eq := hpushed
          expects := hexpects
          complete := List.forall_mem_cons.2 ⟨rfl, List.filterMap_eq_nil_iff.1 hafter⟩
          parts_eq := List.filterMap_append.symm
          attachCount_eq := by
            rw [← hpushed]
            exact Buffer.attachCount_opened snapshot (contents.map Prod.fst) before
          heldFor_eq := by
            intro hsome target
            obtain ⟨part, hpart⟩ := List.exists_mem_of_ne_nil _ hsome
            rw [← hpushed]
            refine Buffer.heldFor_opened snapshot (fun past hpast => ?_) target
            exact schedule.outstanding distinct (schedule.parts_perm.subset hpart)
              (hpast.trans (List.prefix_append _ _)) }
      · rw [List.append_assoc, Buffer.run_append, hopened]
        rfl

/-- What a delivery makes of the structural actions and the contributions that come in. -/
theorem attachCount_flushed {snapshot : Snapshot} {target : Nat}
    (htarget : resolveTarget structural snapshot = some target)
    (plain : ∀ part ∈ contents.filterMap Prod.snd, ∀ action ∈ part.actions,
      action.isAttach = false) :
    ((Buffer.start snapshot task (contents.map Prod.fst)).run (events ++ [.flushed])).attachCount =
      structural.countP Action.isAttach +
        ((contents.filterMap Prod.snd).countP Contribution.hasNotes -
          structural.countP (awaitsNotes target)) := by
  have hparts := schedule.parts_perm
  obtain ⟨buffer, rest, complete, hrun⟩ := schedule.exists_complete distinct snapshot
  have hbuffer : resolveTarget buffer.structural buffer.snapshot = some target := by
    rw [complete.structural_eq, complete.snapshot_eq, htarget]
  have hplain : ∀ part ∈ buffer.ready ++ rest.filterMap Event.part?, ∀ action ∈ part.actions,
      action.isAttach = false := by
    intro part hpart
    rw [complete.parts_eq] at hpart
    exact plain part (hparts.subset hpart)
  rw [hrun, Buffer.attachCount_run complete.settled hbuffer complete.expects complete.complete
    hplain, complete.parts_eq, complete.attachCount_eq, ← hparts.countP_eq]
  by_cases hnone : events.filterMap Event.part? = []
  · rw [hnone, List.countP_nil, Nat.zero_sub, Nat.zero_sub]
  · rw [complete.heldFor_eq hnone]

end Schedule

/-! ### Filled, left empty, made -/

/-- With a target, every contribution that has notes brings them to it. -/
theorem payload?_releaseAll {snapshot : Snapshot} {structural : List Action} {target : Nat}
    (htarget : resolveTarget structural snapshot = some target) (parts : List Contribution) :
    ((releaseAll snapshot structural parts).filterMap Release.payload?).Perm
      ((parts.filter Contribution.hasNotes).map fun part =>
        (target, part.notes.map Music.Note.toJson)) := by
  have hbrings (parts : List Contribution) :
      (parts.map fun part => Release.mk part (some target)).filterMap Release.payload? =
        (parts.filter Contribution.hasNotes).map fun part =>
          (target, part.notes.map Music.Note.toJson) := by
    induction parts with
    | nil => rfl
    | cons part rest ih =>
        rw [List.map_cons, List.filterMap_cons, ih, List.filter_cons, Contribution.hasNotes,
          Release.payload?]
        cases part.notes.isEmpty <;> rfl
  rw [releaseAll, htarget, hbrings]
  exact ((Capability.sortBy_perm Contribution.capability parts).filter _).map _

/-- Contributions whose actions attach no notes are released without any that do. -/
theorem countP_described {snapshot : Snapshot} {structural : List Action}
    {parts : List Contribution}
    (plain : ∀ part ∈ parts, ∀ action ∈ part.actions, action.isAttach = false) :
    ((releaseAll snapshot structural parts).flatMap Release.described).countP
      Action.isAttach = 0 := by
  refine List.countP_eq_zero.2 fun action haction => ?_
  obtain ⟨release, hrelease, hdescribed⟩ := List.mem_flatMap.1 haction
  have hpart : release.part ∈ parts :=
    (part_releaseAll snapshot structural parts).subset (List.mem_map_of_mem hrelease)
  exact List.countP_eq_zero.1 (countP_map_tag release.target (plain release.part hpart)) action
    hdescribed

/-- However structural actions and contributions come in, the notes of contributions fill the
structural actions that await notes for the target as far as there are any. New actions are made for
the notes beyond these, and the structural actions beyond the notes are handed on without any. -/
theorem run_fills_waiting {task : Bool} {structural : List Action}
    {contents : List (Capability × Option Contribution)} {events : List Event}
    (schedule : Schedule task structural contents events)
    (distinct : (contents.map Prod.fst).Nodup) {snapshot : Snapshot} {target : Nat}
    (htarget : resolveTarget structural snapshot = some target)
    (plain : ∀ part ∈ contents.filterMap Prod.snd, ∀ action ∈ part.actions,
      action.isAttach = false) :
    let parts := contents.filterMap Prod.snd
    let brought := parts.countP Contribution.hasNotes
    let awaiting := structural.countP (awaitsNotes target)
    let emitted := ((Buffer.start snapshot task (contents.map Prod.fst)).run
      (events ++ [.flushed])).emitted
    emitted.countP Action.isAttach = structural.countP Action.isAttach + (brought - awaiting) ∧
      ∃ log : List Entry, emitted = log.map Entry.action ∧ (∀ entry ∈ log, entry.Proper) ∧
        (log.filterMap Entry.pushed?).Perm structural ∧
        (log.filterMap Entry.payload?).Perm ((parts.filter Contribution.hasNotes).map fun part =>
          (target, part.notes.map Music.Note.toJson)) ∧
        log.countP Entry.isFilled = min brought awaiting ∧
        log.countP (Entry.isLeftEmpty target) = awaiting - min brought awaiting ∧
        log.countP Entry.isAttached = brought - awaiting := by
  intro parts brought awaiting emitted
  obtain ⟨log, account⟩ :=
    exists_account snapshot task (contents.map Prod.fst) (events ++ [.flushed])
  have hpushed : (log.filterMap Entry.pushed?).Perm structural := by
    rw [← schedule.pushed]
    exact account.pushed_of_flushed
  have hreleases := schedule.releases_perm snapshot
  have hpayloads := (hreleases.filterMap Release.payload?).trans
    (payload?_releaseAll htarget parts)
  rw [← account.payloads] at hpayloads
  have hdescribed : (log.filterMap Entry.described?).countP Action.isAttach = 0 := by
    rw [account.described, (hreleases.flatMap_right _).countP_eq]
    exact countP_described plain
  have hattach : emitted.countP Action.isAttach =
      structural.countP Action.isAttach + (brought - awaiting) := by
    have hcount := schedule.attachCount_flushed distinct htarget plain
    rw [Buffer.attachCount, (Buffer.empty_of_flushed _ events).2] at hcount
    exact hcount
  have hmade : emitted.countP Action.isAttach =
      structural.countP Action.isAttach + log.countP Entry.isAttached := by
    have hcount := Entry.countP_isAttach log
    rwa [← account.emitted, hpushed.countP_eq, hdescribed] at hcount
  have hbrought : brought = log.countP Entry.isFilled + log.countP Entry.isAttached := by
    rw [← Entry.length_payloads, hpayloads.length_eq, List.length_map]
    exact List.countP_eq_length_filter
  have hawaiting : awaiting =
      log.countP Entry.isFilled + log.countP (Entry.isLeftEmpty target) := by
    rw [← Entry.countP_awaitsNotes account.proper, hpushed.countP_eq]
    intro payload hpayload
    obtain ⟨part, -, rfl⟩ := List.mem_map.1 (hpayloads.subset hpayload)
    rfl
  refine ⟨hattach, log, account.emitted, account.proper, hpushed, hpayloads, ?_, ?_, ?_⟩
  all_goals omega

/-- A beat fills the clip that is pushed behind it, and a pad that comes last gets an action. -/
theorem run_fills_waiting_clip :
    let create : Action := ⟨Action.Kind.createTrack, [("index", .nat 0)]⟩
    let clip : Action := ⟨Action.Kind.addMidi, [("track", .nat 0)]⟩
    let beat : Contribution := ⟨.drummer, [⟨Action.Kind.drumPattern, []⟩], [⟨36, 100, 0, 1⟩]⟩
    let pad : Contribution := ⟨.arranger, [], [⟨60, 90, 0, 4⟩]⟩
    let contents := [(Capability.arranger, some pad), (.drummer, some beat)]
    let events : List Event := [.pushed create, .contentFinished .drummer (some beat),
      .pushed clip, .structuralFinished, .contentFinished .arranger (some pad)]
    let emitted := ((Buffer.start {} true [.arranger, .drummer]).run (events ++ [.flushed])).emitted
    (Schedule true [create, clip] contents events ∧ (contents.map Prod.fst).Nodup ∧
      resolveTarget [create, clip] {} = some 0 ∧
      ∀ part ∈ [pad, beat], ∀ action ∈ part.actions, action.isAttach = false) ∧
      emitted.countP Action.isAttach = 2 ∧
      ∃ log : List Entry, emitted = log.map Entry.action ∧
        (log.filterMap Entry.pushed?).Perm [create, clip] ∧
        log.countP Entry.isFilled = 1 ∧ log.countP (Entry.isLeftEmpty 0) = 0 ∧
        log.countP Entry.isAttached = 1 := by
  intro create clip beat pad contents events emitted
  have schedule : Schedule true [create, clip] contents events := {
    pushed := rfl
    finished := .swap _ _ _
    unflushed := by simp [events]
    completed := fun _ => ⟨[.pushed create, .contentFinished .drummer (some beat), .pushed clip],
      [.contentFinished .arranger (some pad)], rfl, by simp, by simp, rfl⟩
    absent := nofun }
  have distinct : (contents.map Prod.fst).Nodup := by decide
  have htarget : resolveTarget [create, clip] {} = some 0 := rfl
  have plain : ∀ part ∈ [pad, beat], ∀ action ∈ part.actions, action.isAttach = false := by
    simp [pad, beat, Action.isAttach, Action.Kind.drumPattern, Action.Kind.addMidi]
  obtain ⟨hattach, log, hemitted, -, hpushed, -, hfilled, hempty, hmade⟩ :=
    run_fills_waiting schedule distinct htarget plain
  exact ⟨⟨schedule, distinct, htarget, plain⟩, hattach, log, hemitted, hpushed, hfilled, hempty,
    hmade⟩

end Delivery

end Studio
