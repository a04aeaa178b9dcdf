import Studio.Proofs.Delivery.Ordering
import Studio.Proofs.Script.Grounding
import Studio.Proofs.Script.Sentences

/-!
# Indices that are taken twice

A script that creates a track under a number of its own choosing may take one that the session has
or that it created before; notes that were attached to that track then stand in front of a creation
of it (`attachFollowsCreation_fails`). Nothing else does that: a track that is numbered
automatically gets a number behind all that are known, unless these reach the largest index
(`attachFollowsCreation_of_fresh`). The invariant is `Numbered`.
-/

namespace Studio.Script

open Delivery (attachFollowsCreation attachFollowsCreation_concat creates split_of_append
  split_of_concat Precedes)
open Number (nextIndex)
open Session (Snapshot)

variable {snapshot : Snapshot}

/-- The number that a call asks for if it creates a track. -/
def Call.asked? (call : Call) : Option Nat :=
  if call.name = "track" then (call.count? "index").toOption.join else none

/-- The numbers that a script asks for. -/
def Program.asked (program : Program) : List Nat :=
  program.carried.filterMap Call.asked?

/-- The largest index. -/
def lastIndex : Nat := Number.indexBound - 1

/-! ### Numbers behind all others -/

/-- The next index is at most the largest one. -/
theorem nextIndex_le_lastIndex (n : Nat) : nextIndex n ≤ lastIndex :=
  Nat.min_le_right _ _

/-- Only the largest index is not in front of the next one. -/
theorem eq_lastIndex_of_nextIndex_le {n : Nat} (hlimit : n ≤ lastIndex) (h : nextIndex n ≤ n) :
    n = lastIndex := by
  unfold nextIndex at h
  unfold lastIndex at hlimit ⊢
  omega

/-- The index behind some indices is not in front of where the count started. -/
theorem le_foldl_nextIndex (indices : List Nat) (start : Nat) :
    start ≤ indices.foldl (fun next index => max next (nextIndex index)) start := by
  induction indices generalizing start with
  | nil => exact Nat.le_refl _
  | cons index rest ih => exact (Nat.le_max_left _ _).trans (ih _)

/-- The index behind all indices of a session is behind each of them. -/
theorem nextIndex_le_nextTrackIndex {index : Nat} (h : index ∈ snapshot.indices) :
    nextIndex index ≤ snapshot.nextTrackIndex := by
  obtain ⟨before, after, hsplit⟩ := List.append_of_mem h
  unfold Snapshot.nextTrackIndex
  rw [hsplit, List.foldl_append, List.foldl_cons]
  exact (Nat.le_max_right _ _).trans (le_foldl_nextIndex after _)

/-- The index behind all of a session is at most the largest one. -/
theorem nextTrackIndex_le_lastIndex (snapshot : Snapshot) :
    snapshot.nextTrackIndex ≤ lastIndex := by
  unfold Snapshot.nextTrackIndex
  induction snapshot.indices using List.reverseRecOn with
  | nil => exact Nat.zero_le _
  | append_singleton rest index ih =>
      rw [List.foldl_append]
      exact Nat.max_le.2 ⟨ih, nextIndex_le_lastIndex index⟩

/-! ### The invariant -/

/-- A creation under a number that is known is under one that is asked for, or the largest one. -/
def Reuses (snapshot : Snapshot) (asked : List Nat) (actions : List Action) : Prop :=
  ∀ before creation after track, actions = before ++ creation :: after →
    creation.isCreation = true → creation.get? "index" = some (.nat track) →
      Known snapshot before track → track ∈ asked ∨ track = lastIndex

/-- The automatic number is behind all that are known. -/
structure Numbered (snapshot : Snapshot) (asked : List Nat) (state : State) : Prop where
  limit : state.counter ≤ lastIndex
  behind : ∀ track, Known snapshot state.actions track → nextIndex track ≤ state.counter
  reuses : Reuses snapshot asked state.actions

variable {asked : List Nat}

/-- Actions that create nothing reuse no number. -/
theorem Reuses.append {actions more : List Action} (h : Reuses snapshot asked actions)
    (hmore : ∀ action ∈ more, action.isCreation = false) :
    Reuses snapshot asked (actions ++ more) := by
  intro before creation after track hsplit hcreation
  rcases split_of_append hsplit with ⟨rest, hactions, -⟩ | ⟨front, -, rfl⟩
  · exact h before creation rest track hactions hcreation
  · rw [hmore creation (by simp)] at hcreation
    cases hcreation

/-- A creation more reuses a number only if that is asked for or the largest one. -/
theorem Reuses.concat {actions : List Action} {action : Action} {track : Nat}
    (h : Reuses snapshot asked actions) (hindex : action.get? "index" = some (.nat track))
    (htrack : Known snapshot actions track → track ∈ asked ∨ track = lastIndex) :
    Reuses snapshot asked (actions ++ [action]) := by
  intro before creation after other hsplit hcreation hother hknown
  rcases split_of_concat hsplit with ⟨rfl, rfl, -⟩ | ⟨rest, hactions, -⟩
  · rw [hindex] at hother
    obtain rfl : track = other := Int.ofNat.inj (Json.integer.inj (Option.some.inj hother))
    exact htrack hknown
  · exact h before creation rest other hactions hcreation hother hknown

/-- A track is known without the actions that create nothing. -/
theorem Known.of_append {actions more : List Action} {track : Nat}
    (h : Known snapshot (actions ++ more) track)
    (hmore : ∀ action ∈ more, action.isCreation = false) : Known snapshot actions track := by
  refine h.imp_right ?_
  rintro ⟨creation, hmem, hcreation, hindex⟩
  rcases List.mem_append.1 hmem with hmem | hmem
  · exact ⟨creation, hmem, hcreation, hindex⟩
  · rw [hmore creation hmem] at hcreation
    cases hcreation

namespace Numbered

/-- A script starts with its numbers in order. -/
theorem start (snapshot : Snapshot) (asked : List Nat) :
    Numbered snapshot asked (State.start snapshot) where
  limit := nextTrackIndex_le_lastIndex snapshot
  behind := by
    rintro track (hindex | ⟨creation, hmem, -⟩)
    · exact nextIndex_le_nextTrackIndex hindex
    · simp [State.start] at hmem
  reuses := by
    intro before creation after track h
    simp [State.start] at h

variable {state : State} (numbered : Numbered snapshot asked state)
include numbered

/-- Actions that create nothing may be added. -/
theorem emitAll {actions : List Action} (hactions : ∀ action ∈ actions, action.isCreation = false) :
    Numbered snapshot asked (state.emitAll actions) where
  limit := numbered.limit
  behind track h := numbered.behind track (h.of_append hactions)
  reuses := numbered.reuses.append hactions

/-- A creation takes the automatic number or one that is asked for, and leaves the automatic number
behind it. -/
theorem create {action : Action} {explicit : Option Nat}
    (hindex : action.get? "index" = some (.nat (state.newIndex explicit)))
    (hexplicit : ∀ index, explicit = some index → index ∈ asked) :
    Numbered snapshot asked ((state.create explicit).emit action) where
  limit := Nat.max_le.2 ⟨numbered.limit, nextIndex_le_lastIndex _⟩
  behind := by
    rintro track (hthere | ⟨creation, hmem, hcreation, htrack⟩)
    · exact (numbered.behind track (.inl hthere)).trans (Nat.le_max_left _ _)
    · rcases List.mem_append.1 hmem with hmem | hmem
      · have hknown : Known snapshot state.actions track := .inr ⟨creation, hmem, hcreation, htrack⟩
        exact (numbered.behind track hknown).trans (Nat.le_max_left _ _)
      · rw [List.mem_singleton.1 hmem, hindex] at htrack
        obtain rfl : state.newIndex explicit = track :=
          Int.ofNat.inj (Json.integer.inj (Option.some.inj htrack))
        exact State.nextIndex_le_counter explicit state
  reuses := by
    refine numbered.reuses.concat hindex ?_
    intro hknown
    cases explicit with
    | some index => exact .inl (hexplicit index rfl)
    | none =>
        -- The automatic number is not in front of the next one, so it is the largest.
        exact .inr (eq_lastIndex_of_nextIndex_le numbered.limit (numbered.behind _ hknown))

/-- The methods keep the invariant when the numbers they ask for are listed. -/
theorem method {call : Call} {next : State}
    (hasked : ∀ index, call.asked? = some index → index ∈ asked)
    (h : Methods.apply .daw snapshot call state = .ok next) : Numbered snapshot asked next := by
  cases Methods.Tracks.effect_of_apply h with
  | acted htargets hactions =>
      obtain ⟨filtered, notices, rfl⟩ := targets_frame htargets
      have hnext : Numbered snapshot asked { state with filtered, notices } :=
        ⟨numbered.limit, numbered.behind, numbered.reuses⟩
      refine hnext.emitAll ?_
      intro action haction
      obtain ⟨target, -, hcreation, -⟩ := exists_target_of_mem hactions haction
      exact hcreation
  | created explicit _ hindex hname hexplicit =>
      refine numbered.create hindex ?_
      rintro index rfl
      refine hasked index ?_
      rw [Call.asked?, if_pos hname, hexplicit]
      rfl
  | referred | listed | collected => exact ⟨numbered.limit, numbered.behind, numbered.reuses⟩

end Numbered

/-- The order of numbers is kept by all calls that ask for numbers of the list. -/
theorem kept_numbered (snapshot : Snapshot) (asked : List Nat) :
    KeptBy .daw snapshot (fun call => ∀ index, call.asked? = some index → index ∈ asked)
      (Numbered snapshot asked) fun _ => True where
  entities _ _ _ _ := trivial
  project _ _ _ := trivial
  store _ _ _ numbered _ := ⟨numbered.limit, numbered.behind, numbered.reuses⟩
  setFiltered numbered _ := ⟨numbered.limit, numbered.behind, numbered.reuses⟩
  dropFiltered numbered := ⟨numbered.limit, numbered.behind, numbered.reuses⟩
  visit _ _ _ numbered _ := ⟨numbered.limit, numbered.behind, numbered.reuses⟩
  leave numbered := ⟨numbered.limit, numbered.behind, numbered.reuses⟩
  unbind numbered := ⟨numbered.limit, numbered.behind, numbered.reuses⟩
  method hasked numbered h := numbered.method hasked h

/-! ### Notes in front of a creation -/

/-- The index of an action that creates a track is the number of this track. -/
theorem get?_index_of_creates {creation : Action} {track : Nat}
    (h : creates track creation = true) : creation.get? "index" = some (.nat track) := by
  obtain ⟨hcreation, htarget⟩ := Bool.and_eq_true_iff.1 h
  have hfield : creation.targetField = "index" := if_pos hcreation
  have hvalue : (creation.get? "index").bind Json.asIndex? = some track := by
    rw [← hfield]
    exact eq_of_beq htarget
  obtain ⟨value, hvalue, hindex⟩ := Option.bind_eq_some_iff.1 hvalue
  rw [hvalue, Action.eq_nat_of_asIndex? hindex]

/-- When notes are attached in front of a creation of their track, that track was known. -/
theorem Grounded.attachFollowsCreation {actions : List Action}
    (grounded : Grounded snapshot actions)
    (fresh : ∀ before creation after track, actions = before ++ creation :: after →
      creates track creation = true → ¬ Known snapshot before track) :
    attachFollowsCreation actions = true := by
  induction actions using List.reverseRecOn with
  | nil => rfl
  | append_singleton rest last ih =>
      refine attachFollowsCreation_concat.2 ⟨ih ?_ ?_, ?_⟩
      · intro before action after hsplit
        exact grounded before action (after ++ [last]) (by rw [hsplit]; simp)
      · intro before creation after track hsplit
        exact fresh before creation (after ++ [last]) track (by rw [hsplit]; simp)
      · intro first hfirst hattach track htrack
        obtain ⟨before, after, rfl⟩ := List.append_of_mem hfirst
        obtain ⟨other, hother, hknown⟩ := grounded before first (after ++ [last]) (by simp)
          (Delivery.isCreation_of_isAttach hattach)
        rw [Action.target?_of_isAttach hattach, hother] at htrack
        obtain rfl := Delivery.eq_of_asIndex?_nat htrack
        refine Bool.eq_false_iff.2 fun hcreates => ?_
        exact fresh _ last [] track rfl hcreates (hknown.append _)

/-- In what a structural script does, no action attaches notes to a track that is created behind it,
if the numbers that the script asks for are not known when they are taken; nor is the largest index,
behind which automatic numbers stop. -/
theorem attachFollowsCreation_of_fresh {program : Program} {state : State}
    (h : execute .daw snapshot program = .ok state)
    (fresh : ∀ before creation after track, state.actions = before ++ creation :: after →
      creates track creation = true → track ∈ program.asked ∨ track = lastIndex →
        ¬ Known snapshot before track) :
    attachFollowsCreation state.actions = true := by
  unfold execute at h
  split at h
  · simp at h
  · have grounded := ((kept_sound snapshot).runStatements (Sound.start snapshot) h).grounded
    have hasked : ∀ call ∈ program.carried,
        ∀ index, call.asked? = some index → index ∈ program.asked := by
      intro call hcall index hindex
      exact List.mem_filterMap.2 ⟨call, hcall, hindex⟩
    have numbered := (kept_numbered snapshot program.asked).runStatements hasked
      (Numbered.start snapshot program.asked) h
    refine grounded.attachFollowsCreation ?_
    intro before creation after track hsplit hcreates hknown
    have hcreation := (Bool.and_eq_true_iff.1 hcreates).1
    exact fresh before creation after track hsplit hcreates
      (numbered.reuses before creation after track hsplit hcreation (get?_index_of_creates hcreates)
        hknown) hknown

/-- Two tracks with notes that are numbered automatically. -/
theorem attachFollowsCreation_of_fresh_tracks :
    let withNotes (name : String) : Statement :=
      ⟨⟨"track", [⟨some "name", .string name⟩]⟩, [⟨"add_midi", []⟩]⟩
    let program : Program := [withNotes "Bass", withNotes "Keys"]
    ∃ state, execute .daw {} program = .ok state ∧ state.actions.length = 4 ∧
      (∀ before creation after track, state.actions = before ++ creation :: after →
        creates track creation = true → track ∈ program.asked ∨ track = lastIndex →
          ¬ Known {} before track) ∧
      attachFollowsCreation state.actions = true := by
  intro withNotes program
  obtain ⟨state, h, hlength, hlast⟩ : ∃ state, execute .daw {} program = .ok state ∧
      state.actions.length = 4 ∧ state.actions.all (fun action => !creates lastIndex action) :=
    ⟨_, rfl, rfl, rfl⟩
  have fresh : ∀ before creation after track, state.actions = before ++ creation :: after →
      creates track creation = true → track ∈ program.asked ∨ track = lastIndex →
        ¬ Known {} before track := by
    rintro before creation after track hsplit hcreates (hasked | rfl)
    · have hnone : program.asked = [] := rfl
      simp [hnone] at hasked
    · rw [List.all_eq_true] at hlast
      have hmem : creation ∈ state.actions := by simp [hsplit]
      simpa [hcreates] using hlast creation hmem
  exact ⟨state, h, hlength, fresh, attachFollowsCreation_of_fresh h fresh⟩

/-- The second track takes the number of the first one, behind the notes for it. -/
theorem attachFollowsCreation_fails :
    ∃ program state, parse "track().add_midi()\ntrack(index=0)" = .ok program ∧
      execute .daw {} program = .ok state ∧ attachFollowsCreation state.actions = false := by
  let index : Argument := ⟨some "index", .number (ofDecimal false ['0'] [])⟩
  let program : Program := [⟨⟨"track", []⟩, [⟨"add_midi", []⟩]⟩, ⟨⟨"track", [index]⟩, []⟩]
  have hnumber : Spells readLiteral (signText false ++ (['0'] ++ fractionText [])) _ :=
    spells_number (by simp) (List.forall_mem_singleton.2 rfl) (by simp) false
  have hindex : Spells readArgument "index=0".toList index :=
    @spells_named "index".toList ['0'] _ rfl hnumber.value
  have htrack : IsCall "track()".toList ⟨"track", []⟩ := @isCall_nil "track".toList rfl
  have hnotes : IsCall "add_midi()".toList ⟨"add_midi", []⟩ := @isCall_nil "add_midi".toList rfl
  have hagain : IsCall "track(index=0)".toList ⟨"track", [index]⟩ :=
    @isCall_listed "track".toList "index=0".toList _ rfl (.one hindex)
  have hfirst : IsStatement "track().add_midi()".toList ⟨⟨"track", []⟩, [⟨"add_midi", []⟩]⟩ :=
    ⟨"track()".toList, ".add_midi()".toList, rfl, htrack, .cons hnotes .nil⟩
  have hsecond : IsStatement "track(index=0)".toList ⟨⟨"track", [index]⟩, []⟩ :=
    ⟨"track(index=0)".toList, [], rfl, hagain, .nil⟩
  have hscript : IsScript ("track().add_midi()".toList ++ (['\n'] ++ "track(index=0)".toList))
      program :=
    .cons hfirst (by simp) (by simp) (.one hsecond)
  have hrun : ((execute .daw {} program).toOption.map fun state =>
      attachFollowsCreation state.actions) = some false := by decide +kernel
  cases h : execute .daw {} program with
  | error fault => simp [h, Except.toOption] at hrun
  | ok state =>
      have hfollows : attachFollowsCreation state.actions = false := by
        simpa [h, Except.toOption] using hrun
      exact ⟨program, state, parse_eq_ok.2 hscript.reads, h, hfollows⟩

end Studio.Script
