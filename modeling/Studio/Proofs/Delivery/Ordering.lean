import Mathlib.Data.List.Induction
import Studio.Proofs.Delivery.Merging

/-!
# Creation before use

Merging and delivering keep two orders that structural actions may have: no action attaches notes to
a track that is created behind it (`attachFollowsCreation`), and every action is about a track that
the session has or that was created before it (`Closed`). `ordering_kept` says so of the merged list
and of what a buffer has handed on at any moment of a delivery.

What a buffer hands on is in a different order from what was pushed, as actions are held back and
notes are attached late. The invariant is `Orderly`: creations are never held back, and what comes
late (`Late`) creates nothing and is about a track that the structural actions lead to.
-/

namespace Studio.Delivery

open Session (Snapshot)

variable {snapshot : Snapshot}

/-! ### The two orders -/

/-- The session has the track, or one of the actions creates it. -/
def Named (snapshot : Snapshot) (actions : List Action) (track : Nat) : Prop :=
  track ∈ snapshot.indices ∨ ∃ creation ∈ actions, creates track creation = true

/-- Every action that creates no track is about one that the session has or that is created in front
of it, or about none. -/
def Closed (snapshot : Snapshot) (actions : List Action) : Prop :=
  ∀ before action after, actions = before ++ action :: after → action.isCreation = false →
    ∀ track, action.target? = some track → Named snapshot before track

/-- The second action does not create the track that the first one attaches notes to. -/
def Precedes (first second : Action) : Prop :=
  first.isAttach = true → ∀ track, first.target? = some track → creates track second = false

/-- The check for attachments says of any two actions that the first precedes the second. -/
theorem attachFollowsCreation_iff (actions : List Action) :
    attachFollowsCreation actions = true ↔ actions.Pairwise Precedes := by
  induction actions with
  | nil => simp [attachFollowsCreation]
  | cons action rest ih =>
      rw [attachFollowsCreation, Bool.and_eq_true, ih, List.pairwise_cons]
      refine and_congr_left fun _ => ?_
      unfold Precedes
      cases action.isAttach with
      | false => simp
      | true =>
          cases action.target? with
          | none => simp
          | some track => simp

/-- An action that creates nothing may stand behind any other. -/
theorem precedes_of_not_creation {first second : Action} (h : second.isCreation = false) :
    Precedes first second := by
  intro _ track _
  rw [creates, h, Bool.false_and]

/-- An action that attaches notes creates no track. -/
theorem isCreation_of_isAttach {action : Action} (h : action.isAttach = true) :
    action.isCreation = false := by
  simp only [Action.isAttach, Action.isCreation, beq_iff_eq, beq_eq_false_iff_ne] at h ⊢
  rw [h]
  decide

/-- A track that actions name is named by others that have their creations. -/
theorem Named.mono {actions others : List Action} {track : Nat} (h : Named snapshot actions track)
    (hothers : ∀ creation ∈ actions, creation.isCreation = true → creation ∈ others) :
    Named snapshot others track := by
  refine h.imp_right fun ⟨creation, hmem, hcreates⟩ => ⟨creation, ?_, hcreates⟩
  exact hothers creation hmem (Bool.and_eq_true_iff.1 hcreates).1

/-- The order of the actions behind others, when these others name some tracks. -/
def ClosedFrom (known : Nat → Prop) : List Action → Prop
  | [] => True
  | action :: rest =>
    (action.isCreation = false → ∀ track, action.target? = some track → known track) ∧
      ClosedFrom (fun track => known track ∨ creates track action = true) rest

/-- The order is kept when more tracks are known. -/
theorem ClosedFrom.mono {known wider : Nat → Prop} (hwider : ∀ track, known track → wider track)
    {actions : List Action} (h : ClosedFrom known actions) : ClosedFrom wider actions := by
  induction actions generalizing known wider with
  | nil => trivial
  | cons action rest ih =>
      refine ⟨fun hcreation track htrack => hwider track (h.1 hcreation track htrack), ?_⟩
      exact ih (fun track => Or.imp_left (hwider track)) h.2

/-- Two runs of actions are in order when the first is, and the second behind what the first
creates. -/
theorem closedFrom_append {known : Nat → Prop} {first second : List Action} :
    ClosedFrom known (first ++ second) ↔ ClosedFrom known first ∧
      ClosedFrom (fun track => known track ∨ ∃ creation ∈ first, creates track creation = true)
        second := by
  induction first generalizing known with
  | nil => simp [ClosedFrom]
  | cons action rest ih => simp [ClosedFrom, ih, and_assoc, or_assoc]

/-- A list is in order when it is behind the tracks of the session. -/
theorem closed_iff {actions : List Action} :
    Closed snapshot actions ↔ ClosedFrom (· ∈ snapshot.indices) actions := by
  constructor
  · intro h
    induction actions using List.reverseRecOn with
    | nil => trivial
    | append_singleton rest action ih =>
        refine closedFrom_append.2 ⟨ih ?_, ?_, trivial⟩
        · intro before other after hsplit
          exact h before other (after ++ [action]) (by rw [hsplit]; simp)
        · exact h rest action [] rfl
  · rintro h before action after rfl
    exact (closedFrom_append.1 h).2.1

/-- An action more keeps the order if it creates a track or is about one that is named. -/
theorem closed_concat {actions : List Action} {action : Action} :
    Closed snapshot (actions ++ [action]) ↔ Closed snapshot actions ∧ (action.isCreation = false →
      ∀ track, action.target? = some track → Named snapshot actions track) := by
  rw [closed_iff, closedFrom_append, closed_iff]
  exact and_congr_right fun _ => and_iff_left trivial

/-- Actions on tracks that are named may come behind. -/
theorem Closed.append {actions more : List Action} (h : Closed snapshot actions)
    (hmore : ∀ action ∈ more, action.isCreation = false →
      ∀ track, action.target? = some track → Named snapshot actions track) :
    Closed snapshot (actions ++ more) := by
  refine closed_iff.2 (closedFrom_append.2 ⟨closed_iff.1 h, ?_⟩)
  show ClosedFrom (Named snapshot actions) more
  clear h
  induction more with
  | nil => trivial
  | cons action rest ih =>
      obtain ⟨haction, hrest⟩ := List.forall_mem_cons.1 hmore
      exact ⟨haction, (ih hrest).mono fun track => Or.inl⟩

/-- An action more keeps attachments in order if all others may stand in front of it. -/
theorem attachFollowsCreation_concat {actions : List Action} {action : Action} :
    attachFollowsCreation (actions ++ [action]) = true ↔
      attachFollowsCreation actions = true ∧ ∀ first ∈ actions, Precedes first action := by
  rw [attachFollowsCreation_iff, attachFollowsCreation_iff, List.pairwise_append]
  simp

/-- Actions that create no track may come behind. -/
theorem attachFollowsCreation_append {actions more : List Action}
    (h : attachFollowsCreation actions = true)
    (hmore : ∀ action ∈ more, action.isCreation = false) :
    attachFollowsCreation (actions ++ more) = true := by
  rw [attachFollowsCreation_iff] at h ⊢
  refine List.pairwise_append.2 ⟨h, List.pairwise_of_forall_mem_list ?_, ?_⟩
  · intro first _ second hsecond
    exact precedes_of_not_creation (hmore second hsecond)
  · intro first _ second hsecond
    exact precedes_of_not_creation (hmore second hsecond)

/-! ### Targets that are led to -/

/-- The session has the track, or one of the actions creates it or is about it. -/
def Placed (snapshot : Snapshot) (actions : List Action) (track : Nat) : Prop :=
  (∃ action ∈ actions, action.target? = some track) ∨ track ∈ snapshot.indices

/-- A target that actions in order lead to is named by them. -/
theorem Placed.named {actions : List Action} {track : Nat} (h : Placed snapshot actions track)
    (hclosed : Closed snapshot actions) : Named snapshot actions track := by
  rcases h with ⟨action, hmem, htarget⟩ | hindex
  · cases hcreation : action.isCreation with
    | true =>
        refine .inr ⟨action, hmem, ?_⟩
        rw [creates, hcreation, htarget, Bool.true_and]
        exact beq_self_eq_true _
    | false =>
        obtain ⟨before, after, rfl⟩ := List.append_of_mem hmem
        refine (hclosed before action after rfl hcreation track htarget).mono ?_
        intro creation hcreation _
        exact List.mem_append_left _ hcreation
  · exact .inl hindex

/-- More notes leave the target of an action as it is. -/
theorem target?_appendNotes {action : Action} (h : action.isAttach = true) (notes : List Json) :
    (action.appendNotes notes).target? = action.target? := by
  have hattach : (action.appendNotes notes).isAttach = true := h
  rw [Action.target?_of_isAttach hattach, Action.get?_track_appendNotes,
    Action.target?_of_isAttach h]

/-- A track that is written as a number is read back as this number. -/
theorem eq_of_asIndex?_nat {n index : Nat} (h : (Json.nat n).asIndex? = some index) : index = n :=
  Int.ofNat.inj (Json.integer.inj (Action.eq_nat_of_asIndex? h)).symm

/-- The attachment of notes to a track is about that track. -/
theorem eq_of_target?_attaching {target track : Nat} {notes : List Json}
    (h : (Action.attaching target notes).target? = some track) : track = target := by
  rw [Action.target?_of_isAttach (Action.isAttach_attaching target notes),
    Action.get?_track_attaching] at h
  exact eq_of_asIndex?_nat h

/-- The actions of a contribution create no track, and are about none before they get their
target. -/
def Plain (part : Contribution) : Prop :=
  ∀ action ∈ part.actions, action.isCreation = false ∧ action.target? = none

/-- What comes behind structural actions creates no track, and is about one that they lead to or
about none. -/
def Late (snapshot : Snapshot) (structural : List Action) (action : Action) : Prop :=
  action.isCreation = false ∧
    ∀ track, action.target? = some track → Placed snapshot structural track

/-- The attachment of notes to a track that is led to comes late. -/
theorem late_attaching {structural : List Action} {target : Nat}
    (h : Placed snapshot structural target) (notes : List Json) :
    Late snapshot structural (.attaching target notes) :=
  ⟨isCreation_of_isAttach (Action.isAttach_attaching target notes), fun _ htrack =>
    eq_of_target?_attaching htrack ▸ h⟩

/-- With the target as their track, the actions of a contribution come late. -/
theorem late_tag {structural : List Action} {part : Contribution} (plain : Plain part) :
    ∀ action ∈ part.actions.map (tag (resolveTarget structural snapshot)),
      Late snapshot structural action := by
  intro action haction
  obtain ⟨original, hmem, rfl⟩ := List.mem_map.1 haction
  obtain ⟨hcreation, hnone⟩ := plain original hmem
  cases htarget : resolveTarget structural snapshot with
  | none => exact ⟨hcreation, fun track htrack => absurd (hnone.symm.trans htrack) nofun⟩
  | some target =>
      refine ⟨hcreation, ?_⟩
      intro track htrack
      have hfield : (original.set "track" (.nat target)).targetField = "track" := by
        rw [Action.targetField, Action.isCreation_set, hcreation]
        rfl
      change (original.set "track" (.nat target)).target? = some track at htrack
      rw [Action.target?, hfield, Action.get?_set, if_pos rfl] at htrack
      rw [eq_of_asIndex?_nat htrack]
      exact target_of_resolveTarget htarget

/-- What comes late keeps both orders. -/
theorem attachFollowsCreation_append_late {structural emitted more : List Action}
    (h : attachFollowsCreation emitted = true)
    (hmore : ∀ action ∈ more, Late snapshot structural action) :
    attachFollowsCreation (emitted ++ more) = true :=
  attachFollowsCreation_append h fun action haction => (hmore action haction).1

/-- Late actions keep the order when what they are about is named in front of them. -/
theorem Closed.append_late {structural emitted more : List Action}
    (h : Closed snapshot emitted)
    (hnamed : ∀ track, Placed snapshot structural track → Named snapshot emitted track)
    (hmore : ∀ action ∈ more, Late snapshot structural action) :
    Closed snapshot (emitted ++ more) := by
  refine h.append ?_
  intro action haction _ track htrack
  exact hnamed track ((hmore action haction).2 track htrack)

/-! ### Merging -/

section

variable {target : Nat} {notes : List Json} {actions attached : List Action}

/-- A new action for notes comes behind the creation of its track, as the track is not touched
behind it. -/
theorem Attached.follows (h : Attached target notes actions attached)
    (hfollows : attachFollowsCreation actions = true) : attachFollowsCreation attached = true := by
  cases h with
  | joined before found after attaches =>
      have hattach := (Bool.and_eq_true_iff.1 attaches).1
      have htarget := target?_appendNotes hattach notes
      rw [attachFollowsCreation_iff, List.pairwise_append, List.pairwise_cons] at hfollows ⊢
      obtain ⟨hbefore, ⟨hfound, hafter⟩, hacross⟩ := hfollows
      refine ⟨hbefore, ⟨?_, hafter⟩, ?_⟩
      · intro other hother _ track htrack
        exact hfound other hother hattach track (htarget.symm.trans htrack)
      · intro first hfirst second hsecond
        rcases List.mem_cons.1 hsecond with rfl | hsecond
        · exact precedes_of_not_creation (isCreation_of_isAttach hattach)
        · exact hacross first hfirst second (List.mem_cons_of_mem found hsecond)
  | behind before found after _ _ last =>
      have hcreation := isCreation_of_isAttach (Action.isAttach_attaching target notes)
      have hshift (rest : List Action) : before ++ found :: rest = (before ++ [found]) ++ rest := by
        simp
      rw [attachFollowsCreation_iff, hshift, List.pairwise_append] at hfollows ⊢
      obtain ⟨hbefore, hafter, hacross⟩ := hfollows
      refine ⟨hbefore, List.pairwise_cons.2 ⟨?_, hafter⟩, ?_⟩
      · intro other hother _ track htrack
        have htouched : (other.target? == some target) = false := last other hother
        rw [eq_of_target?_attaching htrack, creates, htouched, Bool.and_false]
      · intro first hfirst second hsecond
        rcases List.mem_cons.1 hsecond with rfl | hsecond
        · exact precedes_of_not_creation hcreation
        · exact hacross first hfirst second hsecond
  | atEnd =>
      refine attachFollowsCreation_append hfollows ?_
      intro action haction
      rw [List.mem_singleton.1 haction]
      exact isCreation_of_isAttach (Action.isAttach_attaching target notes)

/-- Attaching notes keeps the tracks that the actions are about. -/
theorem Attached.placed (h : Attached target notes actions attached) {track : Nat}
    (hplaced : Placed snapshot actions track) : Placed snapshot attached track := by
  refine hplaced.imp_left ?_
  rintro ⟨action, hmem, htrack⟩
  cases h with
  | joined before found after attaches =>
      rcases List.mem_append.1 hmem with hbefore | htail
      · exact ⟨action, List.mem_append_left _ hbefore, htrack⟩
      · rcases List.mem_cons.1 htail with rfl | hafter
        · have htarget := target?_appendNotes (Bool.and_eq_true_iff.1 attaches).1 notes
          exact ⟨action.appendNotes notes, by simp, htarget.trans htrack⟩
        · exact ⟨action, by simp [hafter], htrack⟩
  | behind before found after =>
      refine ⟨action, ?_, htrack⟩
      simp only [List.mem_append, List.mem_cons] at hmem ⊢
      exact hmem.imp_right (Or.imp_right .inr)
  | atEnd => exact ⟨action, List.mem_append_left _ hmem, htrack⟩

/-- Notes that are attached in place keep the order. -/
theorem Attached.closed (h : Attached target notes actions attached)
    (hplaced : Placed snapshot actions target) (hclosed : Closed snapshot actions) :
    Closed snapshot attached := by
  cases h with
  | joined before found after attaches =>
      have hattach := (Bool.and_eq_true_iff.1 attaches).1
      have htarget := target?_appendNotes hattach notes
      have hcreation := isCreation_of_isAttach hattach
      rw [closed_iff, closedFrom_append] at hclosed ⊢
      obtain ⟨hbefore, hfound, hafter⟩ := hclosed
      refine ⟨hbefore, ?_, hafter.mono ?_⟩
      · intro _ track htrack
        exact hfound hcreation track (htarget.symm.trans htrack)
      · -- An action that takes notes creates nothing.
        intro track hknown
        refine .inl (hknown.resolve_right ?_)
        rw [creates, hcreation, Bool.false_and]
        exact Bool.false_ne_true
  | behind before found after _ touched =>
      have hshift (rest : List Action) : before ++ found :: rest = (before ++ [found]) ++ rest := by
        simp
      rw [hshift] at hclosed ⊢
      have hfirst : Closed snapshot (before ++ [found]) :=
        closed_iff.2 (closedFrom_append.1 (closed_iff.1 hclosed)).1
      have hfound : Placed snapshot (before ++ [found]) target :=
        .inl ⟨found, by simp, eq_of_beq touched⟩
      refine closed_iff.2 (closedFrom_append.2 ⟨closed_iff.1 hfirst, ?_, ?_⟩)
      · intro _ track htrack
        rw [eq_of_target?_attaching htrack]
        exact hfound.named hfirst
      · exact (closedFrom_append.1 (closed_iff.1 hclosed)).2.mono fun track => Or.inl
  | atEnd =>
      refine hclosed.append ?_
      intro action haction _ track htrack
      rw [List.mem_singleton.1 haction] at htrack
      rw [eq_of_target?_attaching htrack]
      exact hplaced.named hclosed

/-- A contribution that finds no place changes nothing, and any other attaches its notes. -/
theorem attachNotes_eq_or_attached (target : Nat) (actions : List Action) (part : Contribution) :
    attachNotes target actions part = actions ∨
      ∃ notes, Attached target notes actions (attachNotes target actions part) := by
  unfold attachNotes
  split
  · exact .inl rfl
  · exact .inr ⟨_, attached_attach target _ actions⟩

/-- Attaching contributions keeps attachments in order. -/
theorem foldl_attachNotes_follows (target : Nat) (parts : List Contribution)
    (h : attachFollowsCreation actions = true) :
    attachFollowsCreation (parts.foldl (attachNotes target) actions) = true := by
  induction parts generalizing actions with
  | nil => exact h
  | cons part rest ih =>
      refine ih ?_
      rcases attachNotes_eq_or_attached target actions part with hsame | ⟨notes, hattached⟩
      · rwa [hsame]
      · exact hattached.follows h

/-- Attaching contributions leads to every track that was led to. -/
theorem foldl_attachNotes_placed (target : Nat) (parts : List Contribution) {track : Nat}
    (hplaced : Placed snapshot actions track) :
    Placed snapshot (parts.foldl (attachNotes target) actions) track := by
  induction parts generalizing actions with
  | nil => exact hplaced
  | cons part rest ih =>
      refine ih ?_
      rcases attachNotes_eq_or_attached target actions part with hsame | ⟨notes, hattached⟩
      · rwa [hsame]
      · exact hattached.placed hplaced

/-- Attaching contributions keeps the order. -/
theorem foldl_attachNotes_closed (parts : List Contribution)
    (hplaced : Placed snapshot actions target) (hclosed : Closed snapshot actions) :
    Closed snapshot (parts.foldl (attachNotes target) actions) := by
  induction parts generalizing actions with
  | nil => exact hclosed
  | cons part rest ih =>
      rcases attachNotes_eq_or_attached target actions part with hsame | ⟨notes, hattached⟩
      · rw [List.foldl_cons, hsame]
        exact ih hplaced hclosed
      · exact ih (hattached.placed hplaced) (hattached.closed hplaced hclosed)

end

/-! ### Delivering -/

namespace Buffer

variable {buffer : Buffer} {part : Contribution}

/-- The action that brings notes is one that was held back or a new one; what is held back after
that was so before. -/
theorem late_fill {structural withheld : List Action} {target : Nat} (notes : List Json)
    (hplaced : Placed snapshot structural target)
    (hwithheld : ∀ action ∈ withheld, action ∈ structural ∧ action.isAttach = true) :
    Late snapshot structural (fill target notes withheld).1 ∧
      ∀ action ∈ (fill target notes withheld).2, action ∈ withheld := by
  unfold fill
  split
  · next before found after hsplit =>
    obtain ⟨rfl, -, -⟩ := splitFirst?_eq_some hsplit
    obtain ⟨hmem, hattach⟩ := hwithheld found (by simp)
    refine ⟨⟨isCreation_of_isAttach hattach, ?_⟩, ?_⟩
    · intro track htrack
      exact .inl ⟨found, hmem, (target?_appendNotes hattach notes).symm.trans htrack⟩
    · intro action haction
      simp only [List.mem_append, List.mem_cons] at haction ⊢
      exact haction.imp_right .inr
  · exact ⟨late_attaching hplaced notes, fun _ => id⟩

/-- No event changes the session that a delivery is for. -/
theorem snapshot_step (buffer : Buffer) (event : Event) :
    (buffer.step event).snapshot = buffer.snapshot := by
  have hresolve (buffer : Buffer) : buffer.resolve.snapshot = buffer.snapshot := by
    cases hsettled : buffer.settled with
    | true =>
        obtain ⟨_, _, _, hframe, -⟩ := resolve_frame buffer hsettled
        rw [hframe]
    | false => rw [Buffer.resolve_of_unsettled hsettled]
  cases event with
  | pushed action =>
      simp only [Buffer.step, Buffer.push]
      split <;> rfl
  | structuralFinished | contentFinished | flushed => exact hresolve _

/-- No run of events changes the session that a delivery is for. -/
theorem snapshot_run (buffer : Buffer) (events : List Event) :
    (buffer.run events).snapshot = buffer.snapshot := by
  induction events generalizing buffer with
  | nil => rfl
  | cons event rest ih => exact (ih (buffer.step event)).trans (snapshot_step buffer event)

/-- What holds in every state of a delivery. -/
structure Orderly (buffer : Buffer) : Prop where
  /-- No creation is held back. -/
  creations : ∀ action ∈ buffer.structural, action.isCreation = true → action ∈ buffer.emitted
  withheld : ∀ action ∈ buffer.withheld, action ∈ buffer.structural ∧ action.isAttach = true
  /-- Before the structural actions are complete, nothing else is handed on. -/
  early : buffer.settled = false → ∀ action ∈ buffer.emitted, action ∈ buffer.structural
  ready : ∀ part ∈ buffer.ready, Plain part
  follows : attachFollowsCreation buffer.structural = true →
    attachFollowsCreation buffer.emitted = true
  closed : Closed buffer.snapshot buffer.structural → Closed buffer.snapshot buffer.emitted

namespace Orderly

/-- A delivery is orderly before anything has happened. -/
theorem start (snapshot : Snapshot) (task : Bool) (awaited : List Capability) :
    Orderly (Buffer.start snapshot task awaited) where
  creations := by simp [Buffer.start]
  withheld := by simp [Buffer.start]
  early := by simp [Buffer.start]
  ready := by simp [Buffer.start]
  follows := id
  closed := id

variable (orderly : Orderly buffer)
include orderly

/-- What the structural actions lead to is named by what was handed on. -/
theorem named (hclosed : Closed buffer.snapshot buffer.structural) {track : Nat}
    (hplaced : Placed buffer.snapshot buffer.structural track) :
    Named buffer.snapshot buffer.emitted track :=
  (hplaced.named hclosed).mono orderly.creations

/-- Once the structural actions are complete, late actions may be handed on. -/
theorem emit (withheld : List Action) {more : List Action} (hsettled : buffer.settled = true)
    (hmore : ∀ action ∈ more, Late buffer.snapshot buffer.structural action)
    (hwithheld : ∀ action ∈ withheld, action ∈ buffer.withheld) :
    Orderly { buffer.emit more with withheld } where
  creations action haction hcreation :=
    List.mem_append_left more (orderly.creations action haction hcreation)
  withheld action haction := orderly.withheld action (hwithheld action haction)
  early hunsettled := nomatch hsettled.symm.trans hunsettled
  ready := orderly.ready
  follows h := attachFollowsCreation_append_late (orderly.follows h) hmore
  closed h := (orderly.closed h).append_late (fun _ => orderly.named h) hmore

/-- A contribution is handed on late: its notes and its actions. -/
theorem release (hsettled : buffer.settled = true) (plain : Plain part) :
    Orderly (buffer.release part) := by
  have hdescribed : ∀ action ∈ (buffer.releasing part).described,
      Late buffer.snapshot buffer.structural action := late_tag plain
  cases hpayload : (buffer.releasing part).payload? with
  | none =>
      obtain ⟨unattached, hrelease⟩ := release_of_none hpayload
      rw [hrelease]
      exact { orderly.emit _ hsettled hdescribed fun _ => id with }
  | some payload =>
      obtain ⟨track, notes⟩ := payload
      have hplaced : Placed buffer.snapshot buffer.structural track := by
        unfold Release.payload? at hpayload
        split at hpayload
        · simp at hpayload
        · obtain ⟨target, htarget, heq⟩ := Option.map_eq_some_iff.1 hpayload
          exact (Prod.mk.inj heq).1 ▸ target_of_resolveTarget htarget
      obtain ⟨hattach, hwithheld⟩ := late_fill notes hplaced orderly.withheld
      rw [release_of_some hpayload]
      have hfirst : ∀ action ∈ [(fill track notes buffer.withheld).1],
          Late buffer.snapshot buffer.structural action := by
        intro action haction
        rw [List.mem_singleton.1 haction]
        exact hattach
      exact (orderly.emit _ hsettled hfirst hwithheld).emit _ hsettled hdescribed fun _ => id

omit orderly in
/-- Contributions that are released one by one leave the buffer orderly. -/
theorem foldl_release (parts : List Contribution) {buffer : Buffer} (orderly : Orderly buffer)
    (hsettled : buffer.settled = true) (plain : ∀ part ∈ parts, Plain part) :
    Orderly (parts.foldl (fun state part => state.release part) buffer) := by
  induction parts generalizing buffer with
  | nil => exact orderly
  | cons part rest ih =>
      obtain ⟨hpart, hrest⟩ := List.forall_mem_cons.1 plain
      obtain ⟨_, _, _, hframe⟩ := release_frame buffer part
      have hkept : (buffer.release part).settled = true := by
        rw [hframe]
        exact hsettled
      exact ih (orderly.release hsettled hpart) hkept hrest

/-- Releasing what is ready leaves the buffer orderly. -/
theorem resolve : Orderly buffer.resolve := by
  cases hsettled : buffer.settled with
  | false => rwa [Buffer.resolve_of_unsettled hsettled]
  | true =>
      have hparts : ∀ part ∈ Capability.sortBy Contribution.capability buffer.ready,
          Plain part := by
        intro part hpart
        exact orderly.ready part ((Capability.sortBy_perm _ _).subset hpart)
      have hdrained : Orderly { buffer with ready := [] } :=
        { orderly with ready := by simp }
      have hreleased := hdrained.foldl_release _ hsettled hparts
      obtain ⟨_, _, _, hframe⟩ := foldl_release_frame
        (Capability.sortBy Contribution.capability buffer.ready) { buffer with ready := [] }
      unfold Buffer.resolve
      rw [if_pos hsettled]
      dsimp only
      split
      · -- What was held back creates nothing and is structural.
        refine hreleased.emit [] (by rw [hframe]; exact hsettled) ?_ (by simp)
        intro action haction
        obtain ⟨hmem, hattach⟩ := hreleased.withheld action haction
        exact ⟨isCreation_of_isAttach hattach, fun track htrack => .inl ⟨action, hmem, htrack⟩⟩
      · exact hreleased

/-- An attachment that is held back leaves the buffer orderly. -/
theorem hold {action : Action} (hattach : action.isAttach = true) :
    Orderly { buffer with
      structural := buffer.structural ++ [action]
      withheld := buffer.withheld ++ [action] } where
  creations := by
    intro other hother hcreates
    rcases List.mem_append.1 hother with hbefore | hnew
    · exact orderly.creations other hbefore hcreates
    · rw [List.mem_singleton.1 hnew, isCreation_of_isAttach hattach] at hcreates
      cases hcreates
  withheld := by
    intro other hother
    rcases List.mem_append.1 hother with hbefore | hnew
    · exact (orderly.withheld other hbefore).imp_left (List.mem_append_left _)
    · rw [List.mem_singleton.1 hnew]
      exact ⟨by simp, hattach⟩
  early hunsettled other hother := List.mem_append_left _ (orderly.early hunsettled other hother)
  ready := orderly.ready
  follows h := orderly.follows (attachFollowsCreation_concat.1 h).1
  closed h := orderly.closed (closed_concat.1 h).1

/-- What was pushed before is in front of what is pushed now, also in what is handed on. -/
theorem handOn (hsettled : buffer.settled = false) (action : Action) :
    Orderly (Buffer.emit [action]
      { buffer with structural := buffer.structural ++ [action] }) where
  creations := by
    intro other hother hcreates
    rcases List.mem_append.1 hother with hbefore | hnew
    · exact List.mem_append_left _ (orderly.creations other hbefore hcreates)
    · exact List.mem_append_right _ hnew
  withheld other hother := (orderly.withheld other hother).imp_left (List.mem_append_left _)
  early := by
    intro hunsettled other hother
    rcases List.mem_append.1 hother with hbefore | hnew
    · exact List.mem_append_left _ (orderly.early hunsettled other hbefore)
    · exact List.mem_append_right _ hnew
  ready := orderly.ready
  follows := by
    intro h
    obtain ⟨hbefore, hnew⟩ := attachFollowsCreation_concat.1 h
    refine attachFollowsCreation_concat.2 ⟨orderly.follows hbefore, ?_⟩
    intro first hfirst
    exact hnew first (orderly.early hsettled first hfirst)
  closed := by
    intro h
    obtain ⟨hbefore, hnew⟩ := closed_concat.1 h
    refine closed_concat.2 ⟨orderly.closed hbefore, ?_⟩
    intro hcreation track htrack
    exact (hnew hcreation track htrack).mono orderly.creations

/-- A structural action that comes in leaves the buffer orderly. -/
theorem push (hsettled : buffer.settled = false) (action : Action) :
    Orderly (buffer.push action) := by
  unfold Buffer.push
  dsimp only
  split
  · next hhold =>
    simp only [Bool.and_eq_true] at hhold
    exact orderly.hold hhold.1.1
  · exact orderly.handOn hsettled action

/-- Nothing but a push depends on whether the structural actions are complete. -/
theorem step {event : Event} (hsettled : event.action? ≠ none → buffer.settled = false)
    (plain : ∀ part, event.part? = some part → Plain part) : Orderly (buffer.step event) := by
  cases event with
  | pushed action => exact orderly.push (hsettled nofun) action
  | structuralFinished =>
      have hcomplete : Orderly { buffer with settled := true } := { orderly with early := nofun }
      exact hcomplete.resolve
  | contentFinished capability part =>
      have hready : ∀ other ∈ buffer.ready ++ part.toList, Plain other := by
        intro other hother
        rcases List.mem_append.1 hother with hbefore | hnew
        · exact orderly.ready other hbefore
        · exact plain other (Option.mem_toList.1 hnew)
      have hnext : Orderly { buffer with
          pending := buffer.pending.filter (· ≠ capability)
          ready := buffer.ready ++ part.toList } := { orderly with ready := hready }
      exact hnext.resolve
  | flushed =>
      have hcomplete : Orderly { buffer with settled := true, pending := [] } :=
        { orderly with early := nofun }
      exact hcomplete.resolve

omit orderly in
/-- Until the structural actions are complete, anything may come. -/
theorem run_open {events : List Event} {buffer : Buffer} (orderly : Orderly buffer)
    (hsettled : buffer.settled = false) (hfinished : .structuralFinished ∉ events)
    (hflushed : .flushed ∉ events) (plain : ∀ part ∈ events.filterMap Event.part?, Plain part) :
    Orderly (buffer.run events) := by
  induction events generalizing buffer with
  | nil => exact orderly
  | cons event rest ih =>
      have hpart (part : Contribution) (h : event.part? = some part) : Plain part :=
        plain part (List.mem_filterMap.2 ⟨event, List.mem_cons_self, h⟩)
      have hkept : (buffer.step event).settled = false := by
        cases event with
        | pushed action => exact (push_fields buffer action).1.trans hsettled
        | contentFinished => exact (resolve_fields _).1.trans hsettled
        | structuralFinished => exact absurd List.mem_cons_self hfinished
        | flushed => exact absurd List.mem_cons_self hflushed
      refine ih (orderly.step (fun _ => hsettled) hpart) hkept ?_ ?_ ?_
      · exact fun hrest => hfinished (List.mem_cons_of_mem event hrest)
      · exact fun hrest => hflushed (List.mem_cons_of_mem event hrest)
      · intro part hrest
        obtain ⟨other, hmem, hother⟩ := List.mem_filterMap.1 hrest
        exact plain part (List.mem_filterMap.2 ⟨other, List.mem_cons_of_mem event hmem, hother⟩)

omit orderly in
/-- When nothing more is pushed, anything else may come. -/
theorem run_closed {events : List Event} {buffer : Buffer} (orderly : Orderly buffer)
    (hpushed : ∀ event ∈ events, event.action? = none)
    (plain : ∀ part ∈ events.filterMap Event.part?, Plain part) : Orderly (buffer.run events) := by
  induction events generalizing buffer with
  | nil => exact orderly
  | cons event rest ih =>
      obtain ⟨hevent, hrest⟩ := List.forall_mem_cons.1 hpushed
      have hpart (part : Contribution) (h : event.part? = some part) : Plain part :=
        plain part (List.mem_filterMap.2 ⟨event, List.mem_cons_self, h⟩)
      refine ih (orderly.step (fun h => absurd hevent h) hpart) hrest ?_
      intro part hmem
      obtain ⟨other, hother, hpart⟩ := List.mem_filterMap.1 hmem
      exact plain part (List.mem_filterMap.2 ⟨other, List.mem_cons_of_mem event hother, hpart⟩)

end Orderly

end Buffer

/-- Some delivery of structural actions and contributions has handed on these actions at some
moment: after any number of its events, of which the last one flushes the buffer. -/
def HandedOn (snapshot : Snapshot) (structural : List Action) (parts : List Contribution)
    (emitted : List Action) : Prop :=
  ∃ task awaited contents events moment,
    contents.filterMap Prod.snd = parts ∧ Schedule task structural contents events ∧
      moment <+: events ++ [.flushed] ∧
        ((Buffer.start snapshot task awaited).run moment).emitted = emitted

/-- The contributions of a schedule are plain in every choice of its events. -/
theorem Schedule.plain_of_subset {task : Bool} {structural : List Action}
    {contents : List (Capability × Option Contribution)} {events chosen : List Event}
    (schedule : Schedule task structural contents events)
    (plain : ∀ part ∈ contents.filterMap Prod.snd, Plain part)
    (hsub : chosen ⊆ events ++ [.flushed]) : ∀ part ∈ chosen.filterMap Event.part?, Plain part := by
  intro part hpart
  refine plain part (schedule.parts_perm.subset ?_)
  obtain ⟨event, hmem, hevent⟩ := List.mem_filterMap.1 hpart
  rcases List.mem_append.1 (hsub hmem) with hmem | hflushed
  · exact List.mem_filterMap.2 ⟨event, hmem, hevent⟩
  · rw [List.mem_singleton.1 hflushed] at hevent
    cases hevent

/-- Without a push before it, nothing is pushed up to the flushing of a buffer. -/
theorem action?_eq_none {events chosen : List Event} (hpushed : events.filterMap Event.action? = [])
    (hsub : chosen ⊆ events ++ [.flushed]) : ∀ event ∈ chosen, event.action? = none := by
  intro event hevent
  rcases List.mem_append.1 (hsub hevent) with hmem | hflushed
  · exact List.filterMap_eq_nil_iff.1 hpushed event hmem
  · rw [List.mem_singleton.1 hflushed]
    rfl

/-- At every moment of a delivery its state is orderly. -/
theorem Schedule.orderly {task : Bool} {structural : List Action}
    {contents : List (Capability × Option Contribution)} {events moment : List Event}
    (schedule : Schedule task structural contents events) (snapshot : Snapshot)
    (awaited : List Capability) (plain : ∀ part ∈ contents.filterMap Prod.snd, Plain part)
    (hmoment : moment <+: events ++ [.flushed]) :
    ((Buffer.start snapshot task awaited).run moment).Orderly := by
  have hstart := Buffer.Orderly.start snapshot task awaited
  have hplain := schedule.plain_of_subset plain hmoment.subset
  cases task with
  | false =>
      obtain ⟨rfl, -⟩ := schedule.absent rfl
      exact hstart.run_closed (action?_eq_none schedule.pushed hmoment.subset) hplain
  | true =>
      obtain ⟨before, after, rfl, hbefore, -, hafter⟩ := schedule.completed rfl
      have hunflushed : .flushed ∉ before := fun hmem =>
        schedule.unflushed (List.mem_append_left _ hmem)
      obtain ⟨rest, hsplit⟩ := hmoment
      -- The moment is before the structural actions are complete or after that.
      rw [List.append_assoc] at hsplit
      rcases List.append_eq_append_iff.1 hsplit with ⟨later, rfl, -⟩ | ⟨later, rfl, hlater⟩
      · refine hstart.run_open rfl ?_ ?_ hplain
        · exact fun hmem => hbefore (List.mem_append_left _ hmem)
        · exact fun hmem => hunflushed (List.mem_append_left _ hmem)
      · rw [List.filterMap_append, List.forall_mem_append] at hplain
        rw [Buffer.run_append]
        have hquiet : (Event.structuralFinished :: after).filterMap Event.action? = [] := hafter
        refine (hstart.run_open rfl hbefore hunflushed hplain.1).run_closed ?_ hplain.2
        refine action?_eq_none hquiet ?_
        rw [hlater]
        exact List.subset_append_left later rest

/-- What was pushed up to a moment is the beginning of the structural actions. -/
theorem Schedule.structural_prefix {task : Bool} {structural : List Action}
    {contents : List (Capability × Option Contribution)} {events moment : List Event}
    (schedule : Schedule task structural contents events) (awaited : List Capability)
    (hmoment : moment <+: events ++ [.flushed]) :
    ((Buffer.start snapshot task awaited).run moment).structural <+: structural := by
  have h := hmoment.filterMap Event.action?
  rw [List.filterMap_append, schedule.pushed] at h
  rw [Buffer.structural_run]
  exact h.trans (by rw [List.filterMap_cons_none rfl]; simp)

/-- What begins a list in order is in order. -/
theorem Closed.of_prefix {actions beginning : List Action} (h : Closed snapshot actions)
    (hfront : beginning <+: actions) : Closed snapshot beginning := by
  obtain ⟨rest, rfl⟩ := hfront
  rintro before action after rfl
  exact h before action (after ++ rest) (by simp)

/-- What begins a list of attachments in order is in order. -/
theorem attachFollowsCreation_of_prefix {actions beginning : List Action}
    (h : attachFollowsCreation actions = true) (hfront : beginning <+: actions) :
    attachFollowsCreation beginning = true := by
  rw [attachFollowsCreation_iff] at h ⊢
  exact h.sublist hfront.sublist

/-- Merging and delivering keep both orders: what holds of the structural actions holds of the
merged list, and of what was handed on at any moment of a delivery of the same structural actions
and contributions. -/
theorem ordering_kept (snapshot : Snapshot) (structural : List Action) {parts : List Contribution}
    (plain : ∀ part ∈ parts, ∀ action ∈ part.actions,
      action.isCreation = false ∧ action.target? = none) :
    (attachFollowsCreation structural = true →
      attachFollowsCreation (merge structural parts snapshot).actions = true ∧
        ∀ emitted, HandedOn snapshot structural parts emitted →
          attachFollowsCreation emitted = true) ∧
    (Closed snapshot structural →
      Closed snapshot (merge structural parts snapshot).actions ∧
        ∀ emitted, HandedOn snapshot structural parts emitted → Closed snapshot emitted) := by
  have hlate : ∀ action ∈ (Capability.sortBy Contribution.capability parts).flatMap
      (fun part => part.actions.map (tag (resolveTarget structural snapshot))),
        Late snapshot structural action := by
    intro action haction
    obtain ⟨part, hpart, haction⟩ := List.mem_flatMap.1 haction
    exact late_tag (plain part ((Capability.sortBy_perm _ _).subset hpart)) action haction
  constructor
  · intro hfollows
    constructor
    · rw [actions_merge]
      refine attachFollowsCreation_append_late ?_ hlate
      cases resolveTarget structural snapshot with
      | none => exact hfollows
      | some target => exact foldl_attachNotes_follows target _ hfollows
    · rintro _ ⟨task, awaited, contents, events, moment, rfl, schedule, hmoment, rfl⟩
      refine (schedule.orderly snapshot awaited plain hmoment).follows ?_
      exact attachFollowsCreation_of_prefix hfollows (schedule.structural_prefix awaited hmoment)
  · intro hclosed
    constructor
    · rw [actions_merge]
      cases htarget : resolveTarget structural snapshot with
      | none =>
          rw [htarget] at hlate
          exact hclosed.append_late (fun _ hplaced => hplaced.named hclosed) hlate
      | some target =>
          have hattached := foldl_attachNotes_closed
            (Capability.sortBy Contribution.capability parts) (target_of_resolveTarget htarget)
            hclosed
          rw [htarget] at hlate
          refine hattached.append_late ?_ hlate
          intro track hplaced
          exact (foldl_attachNotes_placed target _ hplaced).named hattached
    · rintro _ ⟨task, awaited, contents, events, moment, rfl, schedule, hmoment, rfl⟩
      have horderly := schedule.orderly snapshot awaited plain hmoment
      have hsnapshot := Buffer.snapshot_run (Buffer.start snapshot task awaited) moment
      have h := horderly.closed
      rw [hsnapshot] at h
      exact h (hclosed.of_prefix (schedule.structural_prefix awaited hmoment))

/-- A beat that waits for the structural actions is attached to the track that these create. -/
theorem ordering_kept_beat :
    let beat : Contribution := ⟨.drummer, [⟨Action.Kind.drumPattern, []⟩], [⟨36, 100, 0, 1⟩]⟩
    let create : Action := ⟨Action.Kind.createTrack, [("index", .nat 0)]⟩
    let name : Action := ⟨Action.Kind.setTrackName, [("track", .nat 0)]⟩
    let emitted := [create, name, .attaching 0 (notesOf [beat]),
      ⟨Action.Kind.drumPattern, [("track", .nat 0)]⟩]
    (∀ action ∈ beat.actions, action.isCreation = false ∧ action.target? = none) ∧
      attachFollowsCreation [create, name] = true ∧ Closed {} [create, name] ∧
      HandedOn {} [create, name] [beat] emitted ∧
      (attachFollowsCreation (merge [create, name] [beat] {}).actions = true ∧
        attachFollowsCreation emitted = true) ∧
      Closed {} (merge [create, name] [beat] {}).actions ∧ Closed {} emitted := by
  intro beat create name emitted
  have plain : ∀ part ∈ [beat], ∀ action ∈ part.actions,
      action.isCreation = false ∧ action.target? = none := by
    intro part hpart action haction
    obtain rfl := List.mem_singleton.1 hpart
    obtain rfl := List.mem_singleton.1 haction
    exact ⟨rfl, rfl⟩
  have hfollows : attachFollowsCreation [create, name] = true := rfl
  have hclosed : Closed {} [create, name] := by
    refine closed_iff.2 ⟨nofun, ?_, trivial⟩
    intro _ track htrack
    obtain rfl : track = 0 := (Option.some.inj htrack).symm
    exact .inr rfl
  have handedOn : HandedOn {} [create, name] [beat] emitted := by
    let events : List Event := [.contentFinished .drummer (some beat), .pushed create, .pushed name,
      .structuralFinished]
    have schedule : Schedule true [create, name] [(.drummer, some beat)] events := {
      pushed := rfl
      finished := .refl _
      unflushed := by simp [events]
      completed := fun _ => ⟨[.contentFinished .drummer (some beat), .pushed create, .pushed name],
        [], rfl, by simp, by simp, rfl⟩
      absent := nofun }
    refine ⟨true, [.drummer], _, events, events, rfl, schedule, List.prefix_append _ _, ?_⟩
    have hsort : Capability.sortBy Contribution.capability [beat] = [beat] :=
      List.mergeSort_singleton beat
    show (Buffer.resolve ⟨{}, [create, name], [create, name], [], true, [], [beat], []⟩).emitted =
      emitted
    rw [Buffer.resolve, if_pos rfl, hsort]
    rfl
  obtain ⟨hkept, hkeptClosed⟩ := ordering_kept {} [create, name] plain
  refine ⟨plain beat List.mem_cons_self, hfollows, hclosed, handedOn, ?_, ?_⟩
  · exact (hkept hfollows).imp_right fun h => h emitted handedOn
  · exact (hkeptClosed hclosed).imp_right fun h => h emitted handedOn

end Studio.Delivery
