import Mathlib.Data.List.Nodup
import Studio.Proofs.Delivery.Agreement

/-!
# What a merge is

`merge_spec` says what a merge of structural actions with contributions returns, without the steps
that lead there. Contributions come in the order of `Capability.all`, those of one capability in the
order in which they were given (`sortBy_eq_flatMap`). Their notes are attached one payload after
another, each to the list that the payloads before it left; that comes to the same as attaching all
of them at once (`attach_attach`), so the outcome is one of the three cases of `Attached`.
-/

namespace Studio

/-! ### Sorting by capability -/

namespace Capability

variable {α : Type} (capability : α → Capability)

/-- The order by rank is transitive. -/
theorem rank_trans (a b c : α) (hab : decide ((capability a).rank ≤ (capability b).rank) = true)
    (hbc : decide ((capability b).rank ≤ (capability c).rank) = true) :
    decide ((capability a).rank ≤ (capability c).rank) = true := by
  rw [decide_eq_true_eq] at hab hbc ⊢
  exact Nat.le_trans hab hbc

/-- Of two things, one comes first by rank. -/
theorem rank_total (a b : α) : (decide ((capability a).rank ≤ (capability b).rank) ||
    decide ((capability b).rank ≤ (capability a).rank)) = true := by
  rw [Bool.or_eq_true, decide_eq_true_eq, decide_eq_true_eq]
  exact Nat.le_total _ _

/-- Capabilities with one rank are the same. -/
theorem rank_injective {a b : Capability} (h : a.rank = b.rank) : a = b := by
  cases a <;> cases b <;> first | rfl | cases h

/-- What was sorted is in the order of ranks. -/
theorem pairwise_sortBy (items : List α) : (sortBy capability items).Pairwise
    fun a b => decide ((capability a).rank ≤ (capability b).rank) = true :=
  List.pairwise_mergeSort (rank_trans capability) (rank_total capability) items

/-- Sorting changes nothing but the order. -/
theorem sortBy_perm (items : List α) : (sortBy capability items).Perm items :=
  List.mergeSort_perm items _

/-- Sorting leaves the order of those of one capability alone. -/
theorem filter_sortBy (items : List α) (wanted : Capability) :
    (sortBy capability items).filter (fun a => capability a = wanted) =
      items.filter (fun a => capability a = wanted) := by
  have hequal : (items.filter fun a => capability a = wanted).Pairwise
      fun a b => decide ((capability a).rank ≤ (capability b).rank) = true := by
    refine List.pairwise_of_forall_mem_list ?_
    intro a ha b hb
    rw [of_decide_eq_true (List.mem_filter.1 ha).2, of_decide_eq_true (List.mem_filter.1 hb).2]
    exact decide_eq_true (Nat.le_refl _)
  have hsublist : (items.filter fun a => capability a = wanted).Sublist
      (sortBy capability items) :=
    List.sublist_mergeSort (rank_trans capability) (rank_total capability) hequal
      List.filter_sublist
  have hfiltered := hsublist.filter fun a => decide (capability a = wanted)
  rw [List.filter_filter] at hfiltered
  simp only [Bool.and_self] at hfiltered
  -- Both are as long, as sorting neither drops nor adds anything.
  have hlength := ((sortBy_perm capability items).filter fun a => capability a = wanted).length_eq
  exact (hfiltered.eq_of_length hlength.symm).symm

/-- A list in the order of the capabilities has one group for each of them. -/
theorem eq_flatMap_filter {items : List α} (h : items.Pairwise
      fun a b => decide ((capability a).rank ≤ (capability b).rank) = true) :
    items = all.flatMap fun wanted => items.filter fun a => capability a = wanted := by
  induction items with
  | nil => rfl
  | cons a rest ih =>
      obtain ⟨hbehind, hrest⟩ := List.pairwise_cons.1 h
      have ih := ih hrest
      -- What is behind has no lower rank, so the groups in front of that of the head are empty.
      have hempty (wanted : Capability) (hlow : wanted.rank < (capability a).rank) :
          rest.filter (fun b => capability b = wanted) = [] := by
        refine List.filter_eq_nil_iff.2 ?_
        intro b hb hwanted
        have hle := of_decide_eq_true (hbehind b hb)
        rw [of_decide_eq_true hwanted] at hle
        exact absurd hlow (Nat.not_lt.2 hle)
      simp only [all, List.flatMap_cons, List.flatMap_nil, List.append_nil, List.filter_cons]
        at ih ⊢
      cases hcapability : capability a with
      | daw => simpa using ih
      | arranger =>
          rw [hempty .daw (by rw [hcapability]; decide)] at ih ⊢
          simpa using ih
      | drummer =>
          rw [hempty .daw (by rw [hcapability]; decide),
            hempty .arranger (by rw [hcapability]; decide)] at ih ⊢
          simpa using ih

/-- Sorting puts the groups of the capabilities one behind another. -/
theorem sortBy_eq_flatMap (items : List α) : sortBy capability items =
    all.flatMap fun wanted => items.filter fun a => capability a = wanted := by
  rw [eq_flatMap_filter capability (pairwise_sortBy capability items)]
  simp only [filter_sortBy]

/-- When no capability occurs twice, sorting forgets the order. -/
theorem sortBy_congr {items others : List α} (hperm : others.Perm items)
    (hnodup : (items.map capability).Nodup) :
    sortBy capability others = sortBy capability items := by
  have hsorted : (sortBy capability others).Perm (sortBy capability items) :=
    (sortBy_perm capability others).trans (hperm.trans (sortBy_perm capability items).symm)
  refine hsorted.eq_of_pairwise ?_ (pairwise_sortBy capability others)
    (pairwise_sortBy capability items)
  intro a b ha hb hab hba
  have hrank := Nat.le_antisymm (of_decide_eq_true hab) (of_decide_eq_true hba)
  have ha : a ∈ items := hperm.subset ((sortBy_perm capability others).subset ha)
  have hb : b ∈ items := (sortBy_perm capability items).subset hb
  exact List.inj_on_of_nodup_map hnodup ha hb (rank_injective hrank)

end Capability

/-! ### Notes that are added twice -/

/-- Of two values for a field, the last is kept. -/
theorem Action.set_set (action : Action) (name : String) (old new : Json) :
    (action.set name old).set name new = action.set name new := by
  rw [set, set, set, Fields.insert_insert]

/-- Notes that are added twice are added at once. -/
theorem Action.appendNotes_appendNotes (action : Action) (first second : List Json) :
    (action.appendNotes first).appendNotes second = action.appendNotes (first ++ second) := by
  rw [appendNotes, notes_appendNotes, appendNotes, set_set, List.append_assoc, appendNotes]

/-- Notes that are added to an attachment are attached at once. -/
theorem Action.attaching_appendNotes (target : Nat) (first second : List Json) :
    (attaching target first).appendNotes second = attaching target (first ++ second) :=
  appendNotes_appendNotes _ first second

namespace Delivery

open Session (Snapshot)

/-! ### Cutting a list at the last match -/

section

variable {α : Type} {test : α → Bool}

/-- A list is not split where nothing passes the test. -/
theorem splitLast?_none {items : List α} (h : ∀ a ∈ items, test a = false) :
    splitLast? test items = none := by
  induction items with
  | nil => rfl
  | cons a rest ih =>
      rw [splitLast?, ih fun b hb => h b (List.mem_cons_of_mem a hb), h a List.mem_cons_self]
      rfl

/-- A list is split at the last that passes the test. -/
theorem splitLast?_append (before : List α) {found : α} {after : List α}
    (hfound : test found = true) (hafter : ∀ a ∈ after, test a = false) :
    splitLast? test (before ++ found :: after) = some (before, found, after) := by
  induction before with
  | nil => rw [List.nil_append, splitLast?, splitLast?_none hafter, if_pos hfound]
  | cons a rest ih => rw [List.cons_append, splitLast?, ih]

end

/-! ### Attaching notes -/

/-- The list in which notes for a track are attached: they go into the last action that attaches
notes to it; without one, into a new action behind the last one on the track, or at the end. -/
inductive Attached (target : Nat) (notes : List Json) : List Action → List Action → Prop where
  | joined (before : List Action) (found : Action) (after : List Action)
      (attaches : attachesTo target found = true)
      (last : ∀ action ∈ after, attachesTo target action = false) :
      Attached target notes (before ++ found :: after) (before ++ found.appendNotes notes :: after)
  | behind (before : List Action) (found : Action) (after : List Action)
      (unattached : ∀ action ∈ before ++ found :: after, attachesTo target action = false)
      (touched : touches target found = true)
      (last : ∀ action ∈ after, touches target action = false) :
      Attached target notes (before ++ found :: after)
        (before ++ found :: Action.attaching target notes :: after)
  | atEnd (actions : List Action) (untouched : ∀ action ∈ actions, touches target action = false) :
      Attached target notes actions (actions ++ [Action.attaching target notes])

variable {target : Nat}

/-- Attaching notes to a target puts them where they are to be attached. -/
theorem attached_attach (target : Nat) (notes : List Json) (actions : List Action) :
    Attached target notes actions (attach target notes actions).1 := by
  unfold attach
  split
  · next before found after hsplit =>
    obtain ⟨rfl, hattaches, hafter⟩ := splitLast?_eq_some hsplit
    exact .joined before found after hattaches hafter
  · next hnone =>
    have hunattached := splitLast?_eq_none hnone
    split
    · next before found after hsplit =>
      obtain ⟨rfl, htouches, hafter⟩ := splitLast?_eq_some hsplit
      exact .behind before found after hunattached htouches hafter
    · next huntouched => exact .atEnd actions (splitLast?_eq_none huntouched)

/-- Notes go into the last action that attaches some to the target. -/
theorem attach_of_attaches (before : List Action) {found : Action} {after : List Action}
    (hattaches : attachesTo target found = true)
    (hafter : ∀ action ∈ after, attachesTo target action = false) (notes : List Json) :
    attach target notes (before ++ found :: after) =
      (before ++ found.appendNotes notes :: after, before.length) := by
  rw [attach, splitLast?_append before hattaches hafter]

/-- An action that has nothing to do with a target attaches nothing to it. -/
theorem attachesTo_of_touches_eq_false {action : Action} (h : touches target action = false) :
    attachesTo target action = false := by
  have htarget : (action.target? == some target) = false := h
  rw [attachesTo, htarget, Bool.and_false]

/-- An attachment to a target attaches notes to it. -/
theorem attachesTo_attaching_self (bound : target < Number.indexBound) (notes : List Json) :
    attachesTo target (.attaching target notes) = true := by
  have hattach := Action.isAttach_attaching target notes
  have hindex : (Json.nat target).asIndex? = some target := if_pos bound
  rw [attachesTo, hattach, Action.target?_of_isAttach hattach, Action.get?_track_attaching,
    Option.bind_some, hindex]
  exact beq_self_eq_true _

/-- Notes that are attached later go into the action that took the earlier ones. -/
theorem attach_attach (bound : target < Number.indexBound) (first second : List Json)
    (actions : List Action) :
    attach target second (attach target first actions).1 =
      attach target (first ++ second) actions := by
  cases hattaches : splitLast? (attachesTo target) actions with
  | some parts =>
      obtain ⟨before, found, after⟩ := parts
      obtain ⟨rfl, hfound, hafter⟩ := splitLast?_eq_some hattaches
      have hjoined := (attachesTo_appendNotes target found first).trans hfound
      rw [attach_of_attaches before hfound hafter, attach_of_attaches before hjoined hafter,
        attach_of_attaches before hfound hafter, Action.appendNotes_appendNotes]
  | none =>
      have hnew := attachesTo_attaching_self bound first
      cases htouches : splitLast? (touches target) actions with
      | some parts =>
          obtain ⟨before, found, after⟩ := parts
          obtain ⟨rfl, -, hafter⟩ := splitLast?_eq_some htouches
          have hlast : ∀ action ∈ after, attachesTo target action = false := fun action haction =>
            attachesTo_of_touches_eq_false (hafter action haction)
          have hfresh (notes : List Json) : attach target notes (before ++ found :: after) =
              (before ++ [found] ++ Action.attaching target notes :: after, before.length + 1) := by
            simp [attach, hattaches, htouches]
          rw [hfresh, hfresh, attach_of_attaches (before ++ [found]) hnew hlast,
            Action.attaching_appendNotes, List.length_append]
          rfl
      | none =>
          have hfresh (notes : List Json) : attach target notes actions =
              (actions ++ [Action.attaching target notes], actions.length) := by
            simp [attach, hattaches, htouches]
          rw [hfresh, hfresh, attach_of_attaches actions hnew (by simp),
            Action.attaching_appendNotes]

/-- The notes of contributions, in order. -/
def notesOf (parts : List Contribution) : List Json :=
  parts.flatMap fun part => part.notes.map Music.Note.toJson

/-- There are no notes just when no contribution has any. -/
theorem notesOf_eq_nil {parts : List Contribution} :
    notesOf parts = [] ↔ ∀ part ∈ parts, part.notes = [] := by
  simp [notesOf]

/-- Attaching the notes of contributions one after another attaches all of them at once. -/
theorem foldl_attachNotes (bound : target < Number.indexBound) (parts : List Contribution)
    (actions : List Action) : parts.foldl (attachNotes target) actions =
      if notesOf parts = [] then actions else (attach target (notesOf parts) actions).1 := by
  induction parts generalizing actions with
  | nil => rfl
  | cons part rest ih =>
      rw [List.foldl_cons, ih]
      have hcons : notesOf (part :: rest) = part.notes.map Music.Note.toJson ++ notesOf rest := rfl
      rw [hcons, attachNotes]
      cases hnotes : part.notes with
      | nil => rfl
      | cons note more =>
          have hsome : (note :: more).map Music.Note.toJson ++ notesOf rest ≠ [] := by simp
          rw [if_neg hsome]
          split
          · next hnone => rw [hnone, List.append_nil]; rfl
          · next => exact congrArg Prod.fst (attach_attach bound _ _ actions)

/-! ### Targets -/

/-- The target of an action is an index. -/
theorem lt_indexBound_of_target? {action : Action} (h : action.target? = some target) :
    target < Number.indexBound := by
  obtain ⟨value, -, hindex⟩ := Option.bind_eq_some_iff.1 h
  unfold Json.asIndex? at hindex
  split at hindex
  · split at hindex
    · next hlt => exact Option.some.inj hindex ▸ hlt
    · simp at hindex
  · simp at hindex

/-- A target is that of a structural action or a track of the session. -/
theorem target_of_resolveTarget {structural : List Action} {snapshot : Snapshot}
    (h : resolveTarget structural snapshot = some target) :
    (∃ action ∈ structural, action.target? = some target) ∨ target ∈ snapshot.indices := by
  unfold resolveTarget at h
  rcases Option.or_eq_some_iff.1 h with h | ⟨-, hlast⟩
  · rcases Option.or_eq_some_iff.1 h with h | ⟨-, hselected⟩
    · rcases Option.or_eq_some_iff.1 h with hattach | ⟨-, hany⟩
      · obtain ⟨action, hfind, htarget⟩ := Option.bind_eq_some_iff.1 hattach
        exact .inl ⟨action, List.mem_reverse.1 (List.mem_of_find?_eq_some hfind), htarget⟩
      · obtain ⟨action, hmem, htarget⟩ := List.exists_of_findSome?_eq_some hany
        exact .inl ⟨action, List.mem_reverse.1 hmem, htarget⟩
    · obtain ⟨⟨index, track⟩, hfind, rfl⟩ := Option.map_eq_some_iff.1 hselected
      exact .inr (List.mem_map_of_mem (f := Prod.fst) (List.mem_of_find?_eq_some hfind))
  · exact .inr (List.mem_of_getLast? hlast)

/-! ### Merging -/

/-- A merge is the structural actions with notes attached, and behind them the actions of the
contributions. -/
theorem actions_merge (structural : List Action) (parts : List Contribution)
    (snapshot : Snapshot) : (merge structural parts snapshot).actions =
      ((resolveTarget structural snapshot).elim structural fun target =>
        (Capability.sortBy Contribution.capability parts).foldl (attachNotes target) structural) ++
      (Capability.sortBy Contribution.capability parts).flatMap
        (fun part => part.actions.map (tag (resolveTarget structural snapshot))) := by
  unfold merge
  cases resolveTarget structural snapshot <;> rfl

/-- A merge returns the structural actions with all notes attached at once, and behind them the
actions of the contributions with the target as their track. The contributions come in the order of
the capabilities, and of one capability in the order in which they are given; only without a track
are there capabilities whose notes find none. When no capability occurs twice the order in which
contributions are given does not matter. Indices of tracks are machine words. -/
theorem merge_spec (structural : List Action) (parts : List Contribution) {snapshot : Snapshot}
    (words : ∀ index ∈ snapshot.indices, index < Number.indexBound) :
    let target := resolveTarget structural snapshot
    let ordered := Capability.all.flatMap fun wanted =>
      parts.filter fun part => part.capability = wanted
    let merged := merge structural parts snapshot
    (∃ attached,
      merged.actions = attached ++ ordered.flatMap (fun part => part.actions.map (tag target)) ∧
      (target = none ∨ (∀ part ∈ parts, part.notes = []) → attached = structural) ∧
      ∀ track, target = some track → (∃ part ∈ parts, part.notes ≠ []) →
        Attached track (notesOf ordered) structural attached) ∧
    (target.isSome → merged.unattached = []) ∧
    (target = none → merged.unattached =
      (ordered.filter fun part => part.notes ≠ []).map Contribution.capability) ∧
    ∀ others, others.Perm parts → (parts.map Contribution.capability).Nodup →
      merge structural others snapshot = merged := by
  intro target ordered merged
  have hordered : Capability.sortBy Contribution.capability parts = ordered :=
    Capability.sortBy_eq_flatMap Contribution.capability parts
  have hmem (part : Contribution) : part ∈ ordered ↔ part ∈ parts := by
    rw [← hordered]
    exact (Capability.sortBy_perm Contribution.capability parts).mem_iff
  have hcongr : ∀ others, others.Perm parts → (parts.map Contribution.capability).Nodup →
      merge structural others snapshot = merged := by
    intro others hperm hnodup
    simp only [merged, merge, Capability.sortBy_congr Contribution.capability hperm hnodup]
  cases htarget : resolveTarget structural snapshot with
  | none =>
      have hmerged : merged = ⟨structural ++
            ordered.flatMap fun part => part.actions.map (tag none),
          (ordered.filter fun part => !part.notes.isEmpty).map Contribution.capability⟩ := by
        simp only [merged, merge, hordered, htarget]
      rw [show target = none from htarget, hmerged]
      refine ⟨⟨structural, rfl, fun _ => rfl, by simp⟩, by simp, fun _ => ?_, hmerged ▸ hcongr⟩
      refine congrArg (List.map Contribution.capability) (List.filter_congr ?_)
      intro part _
      cases part.notes <;> rfl
  | some track =>
      have hbound : track < Number.indexBound := by
        rcases target_of_resolveTarget htarget with ⟨action, -, haction⟩ | hindex
        · exact lt_indexBound_of_target? haction
        · exact words track hindex
      have hmerged : merged = ⟨(if notesOf ordered = [] then structural
            else (attach track (notesOf ordered) structural).1) ++
          ordered.flatMap fun part => part.actions.map (tag (some track)), []⟩ := by
        simp only [merged, merge, hordered, htarget, foldl_attachNotes hbound]
      rw [show target = some track from htarget, hmerged]
      refine ⟨⟨_, rfl, ?_, ?_⟩, fun _ => rfl, by simp, hmerged ▸ hcongr⟩
      · rintro (hnone | hempty)
        · cases hnone
        · exact if_pos (notesOf_eq_nil.2 fun part hpart => hempty part ((hmem part).1 hpart))
      · intro other hother hnotes
        obtain rfl := Option.some.inj hother
        obtain ⟨part, hpart, hnotes⟩ := hnotes
        rw [if_neg fun hnil => hnotes (notesOf_eq_nil.1 hnil part ((hmem part).2 hpart))]
        exact attached_attach track _ structural

/-- A chord and a beat are attached together, behind the clip on the new track. -/
theorem merge_spec_clip :
    let snapshot : Snapshot := ⟨[{}]⟩
    let structural : List Action := [⟨Action.Kind.createTrack, [("index", .nat 1)]⟩,
      ⟨Action.Kind.createClip, [("track", .nat 1)]⟩, ⟨Action.Kind.createTrack, []⟩]
    let beat : Contribution := ⟨.drummer, [], [⟨36, 100, 0, 1⟩]⟩
    let chord : Contribution := ⟨.arranger, [⟨Action.Kind.chord, []⟩], [⟨60, 100, 0, 4⟩]⟩
    (∀ index ∈ snapshot.indices, index < Number.indexBound) ∧
      resolveTarget structural snapshot = some 1 ∧
      (∃ attached, (merge structural [beat, chord] snapshot).actions =
          attached ++ [⟨Action.Kind.chord, [("track", .nat 1)]⟩] ∧
        Attached 1 (notesOf [chord, beat]) structural attached) ∧
      merge structural [chord, beat] snapshot = merge structural [beat, chord] snapshot := by
  intro snapshot structural beat chord
  have words : ∀ index ∈ snapshot.indices, index < Number.indexBound := by
    intro index hindex
    obtain rfl : index = 0 := List.mem_singleton.1 hindex
    decide
  obtain ⟨⟨attached, hactions, -, hattached⟩, -, -, hcongr⟩ :=
    merge_spec structural [beat, chord] words
  refine ⟨words, rfl, ⟨attached, hactions, ?_⟩, ?_⟩
  · exact hattached 1 rfl ⟨beat, List.mem_cons_self, List.cons_ne_nil _ _⟩
  · exact hcongr [chord, beat] (.swap _ _ _) (by decide)

end Delivery

end Studio
