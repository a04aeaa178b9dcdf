import Studio.Proofs.Json.Ordering
import Studio.Proofs.Number.Finiteness
import Studio.Session.Format

/-!
# Snapshots that are written and read again

A snapshot that was read from a value is `Proper`: its numbers are finite, and what only the host
knows has other names than the known fields. A proper snapshot is read again from the value that is
written for it, in whatever order the members of that stand (`ofJson?_rearranged`).
-/

namespace Studio.Session

open Studio.Json (Proper ordered Rearranges Flat memberSome unknownMembers record? field? fieldOr?
  optional? list? fieldOr?_elim fieldOr?_of_get? fieldOr?_optional optional?_elim list?_elim)

/-! ### Scalars -/

/-- A proper value that is read as a number gives a finite one. -/
theorem isFinite_of_asFloat? {value : Json} {x : Float} (hvalue : Proper value)
    (h : value.asFloat? = some x) : x.isFinite = true := by
  cases hvalue with
  | integer hleast hmost =>
      obtain rfl := Option.some.inj h
      exact Number.isFinite_ofInt (by omega)
  | float hfinite =>
      obtain rfl := Option.some.inj h
      exact hfinite
  | null | bool | string | array | object => cases h

/-- A value that is read as an index gives one below the bound. -/
theorem lt_of_asIndex? {value : Json} {n : Nat} (h : value.asIndex? = some n) :
    n < Number.indexBound := by
  unfold Json.asIndex? at h
  split at h
  · split at h
    · next hlt => exact Option.some.inj h ▸ hlt
    · cases h
  · cases h

/-- A finite number is written as itself. -/
theorem ofFloat_eq {x : Float} (h : x.isFinite = true) : Json.ofFloat x = .float x :=
  if_pos h

/-- A whole number below the bound is proper. -/
theorem proper_nat {n : Nat} (h : n < Number.indexBound) : Proper (.nat n) := by
  unfold Number.indexBound at h
  exact .integer (by omega) (by omega)

/-- A whole number below the bound is read back. -/
theorem asIndex?_nat {n : Nat} (h : n < Number.indexBound) : (Json.nat n).asIndex? = some n :=
  if_pos h

/-- A finite number is written as a proper value. -/
theorem proper_ofFloat {x : Float} (h : x.isFinite = true) : Proper (.ofFloat x) := by
  rw [ofFloat_eq h]
  exact .float h

/-- A member that may be missing is proper once in order, if what is written for it is proper. -/
theorem proper_memberSome {α : Type} {name : String} {o : Option α} {encode : α → Json}
    (h : ∀ a, o = some a → Proper (encode a)) {member : String × Json}
    (hmem : member ∈ memberSome name (o.map encode)) : Proper (ordered member.2) := by
  cases o with
  | none => cases hmem
  | some a => exact List.mem_singleton.1 hmem ▸ (h a rfl).ordered

section

variable {f : Json → Json} (hf : Rearranges f)

include hf

/-- An index that may be missing is read back where it is there. -/
theorem optional?_asIndex? {n : Nat} (h : n < Number.indexBound) :
    optional? Json.asIndex? (f (.nat n)) = some (some n) := by
  rw [hf.proper (proper_nat h)]
  exact congrArg (Option.map some) (asIndex?_nat h)

/-- A number that may be missing is read back where it is there. -/
theorem optional?_asFloat? {x : Float} (h : x.isFinite = true) :
    optional? Json.asFloat? (f (.ofFloat x)) = some (some x) := by
  rw [ofFloat_eq h, hf.proper (.float h)]
  rfl

end

/-! ### Effects -/

/-- An effect is written with its own members and no others. -/
theorem Effect.flat (effect : Effect) :
    Flat Effect.fieldNames [("name", .string effect.name), ("enabled", .bool effect.enabled)]
      [] where
  names := by simp
  listed := by simp [Effect.fieldNames]
  proper := .object .nil fun _ h => absurd h List.not_mem_nil
  unknown := rfl

/-- An effect is read back from what is written for it, in any order of members. -/
theorem Effect.ofJson?_rearranged {f : Json → Json} (hf : Rearranges f) (effect : Effect) :
    Effect.ofJson? (f effect.toJson) = some effect := by
  obtain ⟨members, hobject, hget, -⟩ := effect.flat.rearranged hf
  have hname : Fields.get? "name" members = some (.string effect.name) := by
    rw [hget _ (by simp [Effect.fieldNames])]
    exact congrArg some (hf.proper (.string _))
  have henabled : fieldOr? members "enabled" true Json.asBool? = some effect.enabled := by
    refine fieldOr?_of_get? (hget _ (by simp [Effect.fieldNames])) ?_
    rw [hf.proper (.bool _)]
    rfl
  have hvalue : f effect.toJson = .object members := hobject
  simp [Effect.ofJson?, hvalue, record?, field?, hname, henabled, Json.asString?]

/-- What is written for an effect is proper once in order. -/
theorem Effect.proper_ordered (effect : Effect) : Proper (ordered effect.toJson) := by
  refine effect.flat.proper_ordered fun member hmem => ?_
  simp only [List.mem_cons, List.not_mem_nil, or_false] at hmem
  rcases hmem with rfl | rfl
  · exact .string _
  · exact .bool _

/-! ### Clips -/

/-- What a clip that was read keeps to. -/
structure Clip.Proper (clip : Clip) : Prop where
  index : ∀ n, clip.index = some n → n < Number.indexBound
  position : clip.position.isFinite = true
  length : clip.length.isFinite = true
  extra : Json.Proper (.object clip.extra)
  unknown : unknownMembers Clip.fieldNames clip.extra = clip.extra

/-- The known members of a written clip. -/
def Clip.members (clip : Clip) : List (String × Json) :=
  memberSome "index" (clip.index.map Json.nat) ++
    [("position", .ofFloat clip.position), ("length", .ofFloat clip.length),
      ("selected", .bool clip.selected)]

/-- A proper clip is written with its own members and proper ones of other names. -/
theorem Clip.Proper.flat {clip : Clip} (h : clip.Proper) :
    Flat Clip.fieldNames clip.members clip.extra where
  names := by cases hindex : clip.index <;> simp [Clip.members, memberSome, hindex]
  listed := by
    cases hindex : clip.index <;> simp [Clip.members, memberSome, hindex, Clip.fieldNames]
  proper := h.extra
  unknown := h.unknown

/-- A proper clip is read back from what is written for it, in any order of members. -/
theorem Clip.Proper.ofJson?_rearranged {clip : Clip} (h : clip.Proper) {f : Json → Json}
    (hf : Rearranges f) : Clip.ofJson? (f clip.toJson) = some clip := by
  obtain ⟨members, hobject, hget, hunknown⟩ := h.flat.rearranged hf
  have hvalue : f clip.toJson = .object members := hobject
  simp only [Clip.fieldNames, List.forall_mem_cons] at hget
  simp [Clip.members, Fields.get?_append, Json.get?_memberSome, Fields.get?,
    ofFloat_eq h.position, ofFloat_eq h.length, hf.proper (.float h.position),
    hf.proper (.float h.length), hf.proper (.bool _)] at hget
  obtain ⟨hindex, hposition, hlength, hselected⟩ := hget
  have hindex : fieldOr? members "index" none (optional? Json.asIndex?) = some clip.index :=
    fieldOr?_optional hindex fun n hn => optional?_asIndex? hf (h.index n hn)
  have hposition : fieldOr? members "position" 0 Json.asFloat? = some clip.position :=
    fieldOr?_of_get? hposition rfl
  have hlength : fieldOr? members "length" 0 Json.asFloat? = some clip.length :=
    fieldOr?_of_get? hlength rfl
  have hselected : fieldOr? members "selected" false Json.asBool? = some clip.selected :=
    fieldOr?_of_get? hselected rfl
  simp [Clip.ofJson?, hvalue, hindex, hposition, hlength, hselected, hunknown]

/-- What is written for a proper clip is proper once in order. -/
theorem Clip.Proper.proper_ordered {clip : Clip} (h : clip.Proper) :
    Json.Proper (ordered clip.toJson) := by
  refine h.flat.proper_ordered fun member hmem => ?_
  simp only [Clip.members, List.mem_append, List.mem_cons, List.not_mem_nil, or_false] at hmem
  rcases hmem with hindex | rfl | rfl | rfl
  · exact proper_memberSome (fun n hn => proper_nat (h.index n hn)) hindex
  · exact (proper_ofFloat h.position).ordered
  · exact (proper_ofFloat h.length).ordered
  · exact .bool _

/-- A clip that was read from a proper value is proper. -/
theorem Clip.proper_of_ofJson? {value : Json} {clip : Clip} (hvalue : Json.Proper value)
    (h : Clip.ofJson? value = some clip) : clip.Proper := by
  cases hvalue with
  | @object members hsorted hmembers =>
      simp only [Clip.ofJson?, Option.bind_eq_bind, Option.bind_eq_some_iff, Option.pure_def,
        Option.some.injEq] at h
      obtain ⟨index, hindex, position, hposition, length, hlength, selected, -, rfl⟩ := h
      exact {
        index := fieldOr?_elim hindex hmembers (fun n hn => nomatch hn) fun _ _ _ hdecode =>
          optional?_elim hdecode fun _ => lt_of_asIndex?
        position := fieldOr?_elim (P := (Float.isFinite · = true)) hposition hmembers rfl
          fun _ _ => isFinite_of_asFloat?
        length := fieldOr?_elim (P := (Float.isFinite · = true)) hlength hmembers rfl
          fun _ _ => isFinite_of_asFloat?
        extra := Json.proper_unknownMembers (.object hsorted hmembers) _
        unknown := Json.unknownMembers_unknownMembers _ _ }
  | null | bool | integer | float | string | array => cases h

/-! ### Tracks -/

/-- What a track that was read keeps to. -/
structure Track.Proper (track : Track) : Prop where
  index : ∀ n, track.index = some n → n < Number.indexBound
  volume : ∀ x, track.volume = some x → x.isFinite = true
  pan : ∀ x, track.pan = some x → x.isFinite = true
  clips : ∀ clip ∈ track.clips, clip.Proper
  extra : Json.Proper (.object track.extra)
  unknown : unknownMembers Track.fieldNames track.extra = track.extra

/-- The known members of a written track. -/
def Track.members (track : Track) : List (String × Json) :=
  memberSome "index" (track.index.map Json.nat) ++
    [("name", .string track.name), ("muted", .bool track.muted), ("soloed", .bool track.soloed),
      ("selected", .bool track.selected)] ++
    memberSome "volume_db" (track.volume.map Json.ofFloat) ++
    memberSome "pan" (track.pan.map Json.ofFloat) ++
    [("fx", .listOf Effect.toJson track.effects), ("clips", .listOf Clip.toJson track.clips)]

/-- A proper track is written with its own members and proper ones of other names. -/
theorem Track.Proper.flat {track : Track} (h : track.Proper) :
    Flat Track.fieldNames track.members track.extra where
  names := by
    cases hindex : track.index <;> cases hvolume : track.volume <;> cases hpan : track.pan <;>
      simp [Track.members, memberSome, hindex, hvolume, hpan]
  listed := by
    cases hindex : track.index <;> cases hvolume : track.volume <;> cases hpan : track.pan <;>
      simp [Track.members, memberSome, hindex, hvolume, hpan, Track.fieldNames]
  proper := h.extra
  unknown := h.unknown

/-- A proper track is read back from what is written for it, in any order of members. -/
theorem Track.Proper.ofJson?_rearranged {track : Track} (h : track.Proper) {f : Json → Json}
    (hf : Rearranges f) : Track.ofJson? (f track.toJson) = some track := by
  obtain ⟨members, hobject, hget, hunknown⟩ := h.flat.rearranged hf
  have hvalue : f track.toJson = .object members := hobject
  simp only [Track.fieldNames, List.forall_mem_cons] at hget
  simp [Track.members, Fields.get?_append, Json.get?_memberSome, Fields.get?, Json.listOf, hf.array,
    hf.proper (.bool _), hf.proper (.string _)] at hget
  obtain ⟨hindex, hname, hmuted, hsoloed, hselected, hvolume, hpan, heffects, hclips⟩ := hget
  have hindex : fieldOr? members "index" none (optional? Json.asIndex?) = some track.index :=
    fieldOr?_optional hindex fun n hn => optional?_asIndex? hf (h.index n hn)
  have hname : fieldOr? members "name" "" Json.asString? = some track.name :=
    fieldOr?_of_get? hname rfl
  have hmuted : fieldOr? members "muted" false Json.asBool? = some track.muted :=
    fieldOr?_of_get? hmuted rfl
  have hsoloed : fieldOr? members "soloed" false Json.asBool? = some track.soloed :=
    fieldOr?_of_get? hsoloed rfl
  have hselected : fieldOr? members "selected" false Json.asBool? = some track.selected :=
    fieldOr?_of_get? hselected rfl
  have hvolume : fieldOr? members "volume_db" none (optional? Json.asFloat?) = some track.volume :=
    fieldOr?_optional hvolume fun x hx => optional?_asFloat? hf (h.volume x hx)
  have hpan : fieldOr? members "pan" none (optional? Json.asFloat?) = some track.pan :=
    fieldOr?_optional hpan fun x hx => optional?_asFloat? hf (h.pan x hx)
  have heffects : fieldOr? members "fx" [] (list? Effect.ofJson?) = some track.effects :=
    fieldOr?_of_get? heffects (Json.list?_array_map fun effect _ => effect.ofJson?_rearranged hf)
  have hclips : fieldOr? members "clips" [] (list? Clip.ofJson?) = some track.clips :=
    fieldOr?_of_get? hclips (Json.list?_array_map fun clip hclip =>
      (h.clips clip hclip).ofJson?_rearranged hf)
  simp [Track.ofJson?, hvalue, hindex, hname, hmuted, hsoloed, hselected, hvolume, hpan, heffects,
    hclips, hunknown]

/-- What is written for a proper track is proper once in order. -/
theorem Track.Proper.proper_ordered {track : Track} (h : track.Proper) :
    Json.Proper (ordered track.toJson) := by
  refine h.flat.proper_ordered fun member hmem => ?_
  simp only [Track.members, List.mem_append, List.mem_cons, List.not_mem_nil, or_false,
    or_assoc] at hmem
  rcases hmem with hindex | rfl | rfl | rfl | rfl | hvolume | hpan | rfl | rfl
  · exact proper_memberSome (fun n hn => proper_nat (h.index n hn)) hindex
  · exact .string _
  · exact .bool _
  · exact .bool _
  · exact .bool _
  · exact proper_memberSome (fun x hx => proper_ofFloat (h.volume x hx)) hvolume
  · exact proper_memberSome (fun x hx => proper_ofFloat (h.pan x hx)) hpan
  · exact Json.proper_ordered_array (List.forall_mem_map.2 fun effect _ => effect.proper_ordered)
  · exact Json.proper_ordered_array (List.forall_mem_map.2 fun clip hclip =>
      (h.clips clip hclip).proper_ordered)

/-- A track that was read from a proper value is proper. -/
theorem Track.proper_of_ofJson? {value : Json} {track : Track} (hvalue : Json.Proper value)
    (h : Track.ofJson? value = some track) : track.Proper := by
  cases hvalue with
  | @object members hsorted hmembers =>
      simp only [Track.ofJson?, Option.bind_eq_bind, Option.bind_eq_some_iff, Option.pure_def,
        Option.some.injEq] at h
      obtain ⟨index, hindex, name, -, muted, -, soloed, -, selected, -, volume, hvolume, pan, hpan,
        effects, -, clips, hclips, rfl⟩ := h
      exact {
        index := fieldOr?_elim hindex hmembers (fun n hn => nomatch hn) fun _ _ _ hdecode =>
          optional?_elim hdecode fun _ => lt_of_asIndex?
        volume := fieldOr?_elim hvolume hmembers (fun n hn => nomatch hn) fun _ _ hproper hdecode =>
          optional?_elim hdecode fun _ => isFinite_of_asFloat? hproper
        pan := fieldOr?_elim hpan hmembers (fun n hn => nomatch hn) fun _ _ hproper hdecode =>
          optional?_elim hdecode fun _ => isFinite_of_asFloat? hproper
        clips := fieldOr?_elim hclips hmembers (fun _ hclip => nomatch hclip)
          fun _ _ hproper hdecode => list?_elim hdecode hproper fun _ _ => Clip.proper_of_ofJson?
        extra := Json.proper_unknownMembers (.object hsorted hmembers) _
        unknown := Json.unknownMembers_unknownMembers _ _ }
  | null | bool | integer | float | string | array => cases h

/-! ### Snapshots -/

namespace Snapshot

/-- A snapshot is written with its tracks and nothing else. -/
theorem flat (snapshot : Snapshot) :
    Flat ["tracks"] [("tracks", .listOf Track.toJson snapshot.tracks)] [] where
  names := by simp
  listed := by simp
  proper := .object .nil fun _ h => absurd h List.not_mem_nil
  unknown := rfl

/-- A snapshot of proper tracks is read from the value that is written for it, with the members of
objects in any order. -/
theorem ofJson?_rearranged {snapshot : Snapshot} (h : ∀ track ∈ snapshot.tracks, track.Proper)
    {f : Json → Json} (hf : Rearranges f) : ofJson? (f snapshot.toJson) = some snapshot := by
  obtain ⟨members, hobject, hget, -⟩ := hf.object snapshot.flat.nodup
  have hvalue : f snapshot.toJson = .object members := hobject
  have htracks : Fields.get? "tracks" members =
      some (.array ((snapshot.tracks.map Track.toJson).map f)) := by
    rw [hget]
    exact congrArg some (hf.array _)
  -- What is written for a snapshot is no enclosing object.
  have hstate : Fields.get? "state" members = none := by
    rw [hget]
    rfl
  have hlist : fieldOr? members "tracks" [] (list? Track.ofJson?) = some snapshot.tracks := by
    refine fieldOr?_of_get? htracks ?_
    rw [List.map_map]
    exact Json.list?_array_map fun track htrack => (h track htrack).ofJson?_rearranged hf
  simp [ofJson?, hvalue, unwrap, hstate, ofBare?, record?, hlist]

/-- What is written for a snapshot of proper tracks is proper once in order. -/
theorem proper_ordered {snapshot : Snapshot} (h : ∀ track ∈ snapshot.tracks, track.Proper) :
    Proper (ordered snapshot.toJson) := by
  refine snapshot.flat.proper_ordered fun member hmem => ?_
  obtain rfl := List.mem_singleton.1 hmem
  exact Json.proper_ordered_array (List.forall_mem_map.2 fun track htrack =>
    (h track htrack).proper_ordered)

/-- What a host wraps into its own object is proper where the whole is. -/
theorem proper_unwrap {value : Json} (h : Proper value) : Proper (unwrap value) := by
  unfold unwrap
  split
  · next members =>
    split
    · next inner hstate _ =>
      cases h with
      | object _ hmembers => exact hmembers _ (Json.mem_of_get? hstate)
    · exact h
  · exact h

/-- The fields of a record that was read from a proper value are proper. -/
theorem proper_of_record? {value : Json} {names : List String} {members : List (String × Json)}
    (hvalue : Proper value) (h : record? names value = some members) :
    ∀ member ∈ members, Proper member.2 := by
  cases hvalue with
  | object _ hmembers =>
      obtain rfl := Option.some.inj h
      exact hmembers
  | array hitems =>
      rw [record?, Option.ite_none_right_eq_some] at h
      obtain ⟨-, hzip⟩ := h
      obtain rfl := Option.some.inj hzip
      exact fun member hmem => hitems _ (List.of_mem_zip hmem).2
  | null | bool | integer | float | string => cases h

/-- The tracks of a snapshot that was read from a proper value are proper. -/
theorem proper_of_ofJson? {value : Json} {snapshot : Snapshot} (hvalue : Proper value)
    (h : ofJson? value = some snapshot) : ∀ track ∈ snapshot.tracks, track.Proper := by
  unfold ofJson? ofBare? at h
  split at h
  · rw [if_pos rfl] at h
    obtain rfl := Option.some.inj h
    exact fun track htrack => nomatch htrack
  · rw [if_neg Bool.false_ne_true] at h
    simp only [Option.bind_eq_bind, Option.bind_eq_some_iff, Option.pure_def,
      Option.some.injEq] at h
    obtain ⟨members, hmembers, tracks, htracks, rfl⟩ := h
    have hproper := proper_of_record? (proper_unwrap hvalue) hmembers
    exact fieldOr?_elim htracks hproper (fun _ htrack => nomatch htrack)
      fun _ _ hvalue hdecode => list?_elim hdecode hvalue fun _ _ => Track.proper_of_ofJson?

/-- A snapshot that was read is read again from what is written for it: from the written object,
and from the value that has the members of this object in order, at every depth. -/
theorem ofJson?_toJson {value : Json} {snapshot : Snapshot} (hvalue : Proper value)
    (h : ofJson? value = some snapshot) :
    Proper (ordered snapshot.toJson) ∧ ofJson? (ordered snapshot.toJson) = some snapshot ∧
      ofJson? snapshot.toJson = some snapshot := by
  have htracks := proper_of_ofJson? hvalue h
  exact ⟨proper_ordered htracks, ofJson?_rearranged htracks Json.rearranges_ordered,
    ofJson?_rearranged htracks Json.rearranges_id⟩

/-- A session in an enclosing object, with an effect that is a list of its fields and with
properties that only the host knows. -/
def hosted : Json :=
  .object [("state", .object [("tracks", .array [.object [
    ("clips", .array [.object [("color", .string "red"), ("index", .integer 3),
      ("position", .integer 4)]]),
    ("color", .object [("hue", .integer (-5))]), ("fx", .array [.array [.string "EQ"]]),
    ("name", .string "Bass"), ("pan", .null), ("volume_db", .float (-6))]])])]

/-- The state of a host is proper. -/
theorem proper_hosted : Proper hosted := by
  have hobject {members : List (String × Json)} (hsorted : Fields.Sorted members)
      (h : members.Forall fun member => Proper member.2) : Proper (.object members) :=
    .object hsorted (List.forall_iff_forall_mem.1 h)
  have harray {items : List Json} (h : items.Forall Proper) : Proper (.array items) :=
    .array (List.forall_iff_forall_mem.1 h)
  have hinteger {n : Int} (h : -0x8000000000000000 ≤ n ∧ n < 0x10000000000000000) :
      Proper (.integer n) :=
    .integer h.1 h.2
  have hclip : Proper (.object [("color", .string "red"), ("index", .integer 3),
      ("position", .integer 4)]) :=
    hobject (by decide) ⟨.string _, hinteger (by decide), hinteger (by decide)⟩
  have hhue : Proper (.object [("hue", .integer (-5))]) :=
    hobject (by decide) (hinteger (by decide))
  have hvolume : Proper (.float (-6)) := .float rfl
  exact hobject (by decide) (hobject (by decide) (harray (hobject (by decide)
    ⟨harray hclip, hhue, harray (harray (.string _)), .string _, .null, hvolume⟩)))

/-- The state of a host is read, written and read back, also with its members in order. -/
theorem ofJson?_toJson_hosted : ∃ snapshot, ofJson? hosted = some snapshot ∧
    Proper (ordered snapshot.toJson) ∧ ofJson? (ordered snapshot.toJson) = some snapshot ∧
      ofJson? snapshot.toJson = some snapshot :=
  ⟨_, rfl, ofJson?_toJson proper_hosted rfl⟩

end Snapshot

end Studio.Session
