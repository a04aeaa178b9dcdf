import Mathlib.Data.List.Sort
import Studio.Json.Members
import Studio.Number.Reading

/-!
# The order of members

A value is `Proper` when it can be built member by member: the members of its objects are in order,
and its numbers are finite. Writing the members of an object in another order loses nothing that a
look-up finds: putting the members of every object in order (`ordered`) `Rearranges` a value, and
leaves a proper one as it is.
-/

namespace Studio

namespace Fields

variable {α β : Type} {fields other : Fields α} {name : String} {value : α}

/-! ### Look-ups -/

/-- Looking up in two runs of fields takes the first that has the name. -/
theorem get?_append (fields other : Fields α) (name : String) :
    get? name (fields ++ other) = (get? name fields).or (get? name other) := by
  induction fields with
  | nil => rfl
  | cons field fields ih =>
      by_cases h : field.1 = name <;> simp [get?, h, ih]

/-- Changed values are found under the names of those they come from. -/
theorem get?_mapValues (f : α → β) (fields : Fields α) (name : String) :
    get? name (mapValues f fields) = (get? name fields).map f := by
  induction fields with
  | nil => rfl
  | cons field fields ih =>
      unfold mapValues at ih ⊢
      by_cases h : field.1 = name <;> simp [get?, h, ih]

/-- Look-ups find what a condition on names lets through. -/
theorem get?_filter (p : String → Bool) (fields : Fields α) (name : String) :
    get? name (fields.filter fun field => p field.1) =
      if p name then get? name fields else none := by
  induction fields with
  | nil => simp [get?]
  | cons field fields ih =>
      by_cases h : field.1 = name
      · subst h
        by_cases hp : p field.1 <;> simp [get?, hp, ih]
      · by_cases hp : p field.1 <;> simp [get?, hp, h, ih]

/-- There is no value under a name just when no field has it. -/
theorem get?_eq_none : get? name fields = none ↔ name ∉ fields.map Prod.fst := by
  induction fields with
  | nil => simp [get?]
  | cons field fields ih =>
      by_cases h : field.1 = name
      · simp [get?, h]
      · simp [get?, h, ih, Ne.symm h]

/-- Where names are told apart, look-ups find every field. -/
theorem mem_iff_get? (h : (fields.map Prod.fst).Nodup) :
    (name, value) ∈ fields ↔ get? name fields = some value := by
  induction fields with
  | nil => simp [get?]
  | cons field fields ih =>
      obtain ⟨key, first⟩ := field
      rw [List.map_cons, List.nodup_cons] at h
      rw [List.mem_cons, ih h.2]
      by_cases hkey : key = name
      · subst hkey
        have hnone : get? key fields = none := get?_eq_none.2 h.1
        simp [get?, hnone, eq_comm]
      · simp [get?, hkey, Ne.symm hkey]

/-! ### Fields in order -/

instance (fields : Fields α) : Decidable (Sorted fields) :=
  inferInstanceAs (Decidable (List.Pairwise _ _))

/-- Fields in order have different names. -/
theorem Sorted.nodup (h : Sorted fields) : (fields.map Prod.fst).Nodup :=
  List.pairwise_map.2 (h.imp String.ne_of_lt)

/-- Fields in order are told by their look-ups. -/
theorem Sorted.ext (h : Sorted fields) (hother : Sorted other)
    (hget : ∀ name, get? name fields = get? name other) : fields = other := by
  have hperm : fields.Perm other :=
    (List.perm_ext_iff_of_nodup h.nodup.of_map hother.nodup.of_map).2 fun (name, value) => by
      rw [mem_iff_get? h.nodup, mem_iff_get? hother.nodup, hget]
  refine hperm.eq_of_pairwise (fun a b _ _ hab hba => ?_) h hother
  exact absurd (String.lt_trans hab hba) (String.lt_irrefl _)

/-- Fields in order stay in order when some are left out. -/
theorem Sorted.filter (h : Sorted fields) (p : String × α → Bool) : Sorted (fields.filter p) :=
  List.Pairwise.filter p h

/-- Fields in order stay in order when values change. -/
theorem Sorted.mapValues (h : Sorted fields) (f : α → β) : Sorted (mapValues f fields) :=
  List.pairwise_map.2 h

/-- Putting fields in order changes no look-up, where names are told apart. -/
theorem get?_foldl_insert {pairs : List (String × α)} (h : (pairs.map Prod.fst).Nodup)
    (fields : Fields α) (name : String) :
    get? name (pairs.foldl (fun fields (name, value) => fields.insert name value) fields) =
      (get? name pairs).or (get? name fields) := by
  induction pairs generalizing fields with
  | nil => rfl
  | cons pair pairs ih =>
      obtain ⟨key, first⟩ := pair
      rw [List.map_cons, List.nodup_cons] at h
      rw [List.foldl_cons, ih h.2, get?_insert]
      by_cases hkey : key = name
      · subst hkey
        have hnone : get? key pairs = none := get?_eq_none.2 h.1
        simp [get?, hnone]
      · simp [get?, hkey]

/-- Fields with different names keep their values when they are put in order. -/
theorem get?_ofList {pairs : List (String × α)} (h : (pairs.map Prod.fst).Nodup) (name : String) :
    get? name (ofList pairs) = get? name pairs :=
  (get?_foldl_insert h [] name).trans (Option.or_none)

/-- Fields that are put in one by one are in order. -/
theorem sorted_ofList (pairs : List (String × α)) : Sorted (ofList pairs) := by
  unfold ofList
  generalize hstart : ([] : Fields α) = start
  have hsorted : Sorted start := hstart ▸ List.Pairwise.nil
  clear hstart
  induction pairs generalizing start with
  | nil => exact hsorted
  | cons pair pairs ih => exact ih _ (hsorted.insert pair.1 pair.2)

/-- Fields in order stay as they are. -/
theorem Sorted.ofList_eq (h : Sorted fields) : ofList fields = fields :=
  (sorted_ofList fields).ext h (get?_ofList h.nodup)

end Fields

namespace Json

/-- A value that can be built member by member: integers have 64 bits, doubles are finite, and the
members of objects are in order. -/
inductive Proper : Json → Prop
  | null : Proper .null
  | bool (flag : Bool) : Proper (.bool flag)
  | integer {n : Int} (hleast : -0x8000000000000000 ≤ n) (hmost : n < 0x10000000000000000) :
      Proper (.integer n)
  | float {x : Float} (h : x.isFinite = true) : Proper (.float x)
  | string (text : String) : Proper (.string text)
  | array {items : List Json} (h : ∀ item ∈ items, Proper item) : Proper (.array items)
  | object {members : List (String × Json)} (hsorted : Fields.Sorted members)
      (h : ∀ member ∈ members, Proper member.2) : Proper (.object members)

mutual

/-- The value with the members of every object in order. -/
def ordered : Json → Json
  | .array items => .array (orderedItems items)
  | .object members => .object (Fields.ofList (orderedMembers members))
  | scalar => scalar

/-- Items with the members of every object in order. -/
def orderedItems : List Json → List Json
  | [] => []
  | item :: items => ordered item :: orderedItems items

/-- Members whose values have the members of every object in order. -/
def orderedMembers : List (String × Json) → List (String × Json)
  | [] => []
  | (name, value) :: members => (name, ordered value) :: orderedMembers members

end

/-- Items are put in order one by one. -/
theorem orderedItems_eq (items : List Json) : orderedItems items = items.map ordered := by
  induction items with
  | nil => rfl
  | cons item items ih => rw [orderedItems, ih, List.map_cons]

/-- The values of members are put in order one by one. -/
theorem orderedMembers_eq (members : List (String × Json)) :
    orderedMembers members = Fields.mapValues ordered members := by
  induction members with
  | nil => rfl
  | cons member members ih =>
      rw [orderedMembers, ih]
      rfl

/-- The items of an array are put in order, and the array keeps theirs. -/
theorem ordered_array (items : List Json) :
    ordered (.array items) = .array (items.map ordered) := by
  rw [ordered, orderedItems_eq]

/-- The members of an object are put in order, and so are their values. -/
theorem ordered_object (members : List (String × Json)) :
    ordered (.object members) = .object (Fields.ofList (Fields.mapValues ordered members)) := by
  rw [ordered, orderedMembers_eq]

/-- In a proper value everything is in order. -/
theorem Proper.ordered_eq {value : Json} (h : Proper value) : ordered value = value := by
  induction h with
  | null | bool | integer | float | string => rfl
  | array _ ih =>
      rw [ordered_array]
      exact congrArg Json.array ((List.map_congr_left ih).trans (List.map_id _))
  | @object members hsorted _ ih =>
      have hmembers : Fields.mapValues ordered members = members := by
        refine (List.map_congr_left fun member hmem => ?_).trans (List.map_id members)
        exact Prod.ext rfl (ih member hmem)
      rw [ordered_object, hmembers, hsorted.ofList_eq]

/-- A proper value that is put in order is proper. -/
theorem Proper.ordered {value : Json} (h : Proper value) : Proper (ordered value) := by
  rwa [h.ordered_eq]

/-- Changed values keep their names different. -/
theorem nodup_mapValues {members : List (String × Json)} (h : (members.map Prod.fst).Nodup)
    (f : Json → Json) : ((Fields.mapValues f members).map Prod.fst).Nodup := by
  unfold Fields.mapValues
  rwa [List.map_map]

/-- Put in order, an object of values that are proper in order is proper. -/
theorem proper_ordered_object {members : List (String × Json)}
    (hnames : (members.map Prod.fst).Nodup)
    (h : ∀ member ∈ members, Proper (ordered member.2)) : Proper (ordered (.object members)) := by
  rw [ordered_object]
  have hsorted := Fields.sorted_ofList (Fields.mapValues ordered members)
  refine .object hsorted fun (name, value) hmem => ?_
  rw [Fields.mem_iff_get? hsorted.nodup, Fields.get?_ofList (nodup_mapValues hnames ordered),
    Fields.get?_mapValues, Option.map_eq_some_iff] at hmem
  obtain ⟨value, hvalue, rfl⟩ := hmem
  exact h _ ((Fields.mem_iff_get? hnames).2 hvalue)

/-- An array whose items are proper once in order is proper once in order. -/
theorem proper_ordered_array {items : List Json} (h : ∀ item ∈ items, Proper (ordered item)) :
    Proper (ordered (.array items)) := by
  rw [ordered_array]
  exact .array (List.forall_mem_map.2 h)

/-- The function changes nothing but the order of members, and that only where they are not in
order. -/
structure Rearranges (f : Json → Json) : Prop where
  proper {value : Json} (h : Proper value) : f value = value
  array (items : List Json) : f (.array items) = .array (items.map f)
  object {members : List (String × Json)} (h : (members.map Prod.fst).Nodup) :
    ∃ rearranged, f (.object members) = .object rearranged ∧
      (∀ name, Fields.get? name rearranged = (Fields.get? name members).map f) ∧
      ∀ known, Fields.Sorted (unknownMembers known members) →
        unknownMembers known rearranged = Fields.mapValues f (unknownMembers known members)

/-- Leaving a value as it is rearranges it. -/
theorem rearranges_id : Rearranges id where
  proper _ := rfl
  array items := congrArg Json.array (List.map_id items).symm
  object {members} _ :=
    ⟨members, rfl, fun _ => Option.map_id'.symm, fun _ _ => (List.map_id _).symm⟩

/-- Members of unknown names are found under all names but the known ones. -/
theorem get?_unknownMembers (known : List String) (members : List (String × Json)) (name : String) :
    Fields.get? name (unknownMembers known members) =
      if known.contains name then none else Fields.get? name members := by
  refine (Fields.get?_filter (fun name => !known.contains name) members name).trans ?_
  cases known.contains name <;> rfl

/-- Putting the members of every object in order rearranges them. -/
theorem rearranges_ordered : Rearranges ordered where
  proper := Proper.ordered_eq
  array := ordered_array
  object {members} hnames := by
    have hget (name : String) :
        Fields.get? name (Fields.ofList (Fields.mapValues ordered members)) =
          (Fields.get? name members).map ordered := by
      rw [Fields.get?_ofList (nodup_mapValues hnames ordered), Fields.get?_mapValues]
    refine ⟨_, ordered_object members, hget, fun known hsorted => ?_⟩
    -- Both sides are in order, so it is enough to look names up in them.
    refine ((Fields.sorted_ofList _).filter _).ext (hsorted.mapValues _) fun name => ?_
    rw [Fields.get?_mapValues]
    show Fields.get? name (unknownMembers known _) = _
    rw [get?_unknownMembers, get?_unknownMembers, hget]
    split <;> rfl

/-! ### Known members and others -/

/-- Members of known names, with proper ones of other names behind them. -/
structure Flat (known : List String) (members extra : List (String × Json)) : Prop where
  names : (members.map Prod.fst).Nodup
  listed : ∀ name ∈ members.map Prod.fst, name ∈ known
  proper : Proper (.object extra)
  unknown : unknownMembers known extra = extra

namespace Flat

variable {known : List String} {members extra : List (String × Json)}

/-- The members of other names are in order. -/
theorem sorted (h : Flat known members extra) : Fields.Sorted extra := by
  cases h.proper with
  | object hsorted _ => exact hsorted

/-- No member of another name has a known one. -/
theorem get?_extra (h : Flat known members extra) {name : String} (hname : name ∈ known) :
    Fields.get? name extra = none := by
  rw [← h.unknown, get?_unknownMembers, if_pos (List.contains_iff_mem.2 hname)]

/-- All names are different, the known and the others. -/
theorem nodup (h : Flat known members extra) : ((members ++ extra).map Prod.fst).Nodup := by
  rw [List.map_append]
  refine h.names.append h.sorted.nodup fun name hmem hextra => ?_
  exact Fields.get?_eq_none.1 (h.get?_extra (h.listed name hmem)) hextra

/-- The members of unknown names are the ones behind. -/
theorem unknownMembers_append (h : Flat known members extra) :
    unknownMembers known (members ++ extra) = extra := by
  have hnone : unknownMembers known members = [] := by
    refine List.filter_eq_nil_iff.2 fun member hmem => ?_
    simpa using h.listed member.1 (List.mem_map_of_mem hmem)
  have hextra := h.unknown
  unfold unknownMembers at hnone hextra ⊢
  rw [List.filter_append, hnone, hextra, List.nil_append]

/-- Rearranged, the known members are found by their names, and the others are the same. -/
theorem rearranged (h : Flat known members extra) {f : Json → Json} (hf : Rearranges f) :
    ∃ rearranged, f (.object (members ++ extra)) = .object rearranged ∧
      (∀ name ∈ known, Fields.get? name rearranged = (Fields.get? name members).map f) ∧
      unknownMembers known rearranged = extra := by
  obtain ⟨rearranged, hobject, hget, hunknown⟩ := hf.object h.nodup
  refine ⟨rearranged, hobject, fun name hname => ?_, ?_⟩
  · rw [hget, Fields.get?_append, h.get?_extra hname, Option.or_none]
  · have hvalues : Fields.mapValues f extra = extra := by
      refine (List.map_congr_left fun member hmem => ?_).trans (List.map_id extra)
      cases h.proper with
      | object _ hproper => exact Prod.ext rfl (hf.proper (hproper member hmem))
    rw [hunknown known (by rw [h.unknownMembers_append]; exact h.sorted), h.unknownMembers_append,
      hvalues]

/-- Putting such an object in order makes it proper, if the values of its known members are proper
once in order. -/
theorem proper_ordered (h : Flat known members extra)
    (hmembers : ∀ member ∈ members, Proper (ordered member.2)) :
    Proper (ordered (.object (members ++ extra))) := by
  refine proper_ordered_object h.nodup fun member hmem => ?_
  rcases List.mem_append.1 hmem with hmem | hmem
  · exact hmembers member hmem
  · cases h.proper with
    | object _ hproper =>
        exact (hproper member hmem).ordered

end Flat

/-- The members of unknown names of a proper object make a proper object. -/
theorem proper_unknownMembers {members : List (String × Json)} (h : Proper (.object members))
    (known : List String) : Proper (.object (unknownMembers known members)) := by
  cases h with
  | object hsorted hmembers =>
      exact .object (hsorted.filter _) fun member hmem =>
        hmembers member (List.mem_of_mem_filter hmem)

/-- Leaving known names out twice is leaving them out once. -/
theorem unknownMembers_unknownMembers (known : List String) (members : List (String × Json)) :
    unknownMembers known (unknownMembers known members) = unknownMembers known members := by
  simp [unknownMembers, List.filter_filter]

/-! ### Taking values apart -/

section

variable {α : Type} {members : List (String × Json)} {name : String} {value : Json}
  {decode : Json → Option α} {default a : α}

/-- A member that may be missing is found under its own name, if it is there. -/
theorem get?_memberSome (key name : String) (o : Option Json) :
    Fields.get? name (memberSome key o) = if key = name then o else none := by
  cases o with
  | none => simp [memberSome, Fields.get?]
  | some value => rfl

/-- A value that is found belongs to a member. -/
theorem mem_of_get? (h : Fields.get? name members = some value) : (name, value) ∈ members := by
  induction members with
  | nil => cases h
  | cons member members ih =>
      rw [Fields.get?] at h
      split at h
      · next hname =>
        obtain rfl := Option.some.inj h
        exact List.mem_cons.2 (.inl (Prod.ext hname.symm rfl))
      · exact List.mem_cons_of_mem _ (ih h)

/-- What holds of the default and of all that is decoded holds of the field. -/
theorem fieldOr?_elim {P : α → Prop} (h : fieldOr? members name default decode = some a)
    (hmembers : ∀ member ∈ members, Proper member.2) (hdefault : P default)
    (hdecode : ∀ value a, Proper value → decode value = some a → P a) : P a := by
  unfold fieldOr? at h
  split at h
  · next value hget => exact hdecode value a (hmembers _ (mem_of_get? hget)) h
  · exact Option.some.inj h ▸ hdefault

/-- A field with a value is read from it, whatever the default. -/
theorem fieldOr?_of_get? (hget : Fields.get? name members = some value)
    (hdecode : decode value = some a) : fieldOr? members name default decode = some a := by
  rw [fieldOr?, hget]
  exact hdecode

/-- A field that may be missing is read back from what was written for it. -/
theorem fieldOr?_optional {o : Option α} {encode : α → Json}
    (hget : Fields.get? name members = o.map encode)
    (hdecode : ∀ a, o = some a → optional? decode (encode a) = some (some a)) :
    fieldOr? members name none (optional? decode) = some o := by
  cases o with
  | none =>
      rw [fieldOr?, hget]
      rfl
  | some a => exact fieldOr?_of_get? hget (hdecode a rfl)

/-- What holds of all that is decoded holds of what is decoded where nothing may stand. -/
theorem optional?_elim {P : α → Prop} {o : Option α} (h : optional? decode value = some o)
    (hdecode : ∀ a, decode value = some a → P a) : ∀ a, o = some a → P a := by
  rintro a rfl
  unfold optional? at h
  split at h
  · cases h
  · obtain ⟨b, hb, hab⟩ := Option.map_eq_some_iff.1 h
    exact hdecode a (by rwa [← Option.some.inj hab])

/-- A list is decoded just when its items are, in their order. -/
theorem list?_eq_some {items : List Json} {all : List α} :
    list? decode (.array items) = some all ↔
      List.Forall₂ (fun item a => decode item = some a) items all := by
  show items.mapM decode = some all ↔ _
  induction items generalizing all with
  | nil => simp [eq_comm]
  | cons item items ih =>
      rw [List.mapM_cons, List.forall₂_cons_left_iff]
      simp only [Option.bind_eq_bind, Option.bind_eq_some_iff, Option.pure_def,
        Option.some.injEq, ih]
      constructor
      · rintro ⟨a, hitem, rest, hrest, rfl⟩
        exact ⟨a, rest, hitem, hrest, rfl⟩
      · rintro ⟨a, rest, hitem, hrest, rfl⟩
        exact ⟨a, hitem, rest, hrest, rfl⟩

/-- A list is decoded as its items are encoded. -/
theorem list?_array_map {all : List α} {encode : α → Json}
    (h : ∀ a ∈ all, decode (encode a) = some a) :
    list? decode (.array (all.map encode)) = some all :=
  list?_eq_some.2 (List.forall₂_map_left_iff.2 (List.forall₂_same.2 h))

/-- What holds of all that is decoded holds of the items of a list. -/
theorem list?_elim {all : List α} {P : α → Prop} (h : list? decode value = some all)
    (hvalue : Proper value) (hdecode : ∀ item a, Proper item → decode item = some a → P a) :
    ∀ a ∈ all, P a := by
  cases hvalue with
  | @array items hitems =>
      intro a ha
      obtain ⟨n, hn, rfl⟩ := List.getElem_of_mem ha
      obtain ⟨hlength, hdecoded⟩ := List.forall₂_iff_get.1 (list?_eq_some.1 h)
      have hitem : n < items.length := hlength ▸ hn
      exact hdecode _ _ (hitems _ (List.getElem_mem hitem)) (hdecoded n hitem hn)
  | null | bool | integer | float | string | object => cases h

end

end Json

end Studio
