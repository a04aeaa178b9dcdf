import Studio.Proofs.Json.Accepting
import Studio.Proofs.Request.Policy
import Studio.Proofs.Text.Lowercase

/-!
# Keyword tables in normal form

The terms of a table that was read are trimmed, lowercase, long enough and told apart (`IsNormal`),
and it is read again from the text that is written for it. Normal forms neither add nor lose a
match: a request has a stored term exactly when it has a term of the table as it stands in the text
(`parse_normal`).
-/

namespace Studio.Request

open Json (readText readRecord Accepts AcceptsMember Spaced)

/-! ### Terms -/

/-- Terms are trimmed, lowercase, long enough and told apart. -/
structure IsNormal (terms : List String) : Prop where
  trimmed : ∀ term ∈ terms, Text.trim term = term
  lower : ∀ term ∈ terms, Text.lower term = term
  length : ∀ term ∈ terms, 2 ≤ term.length
  nodup : terms.Nodup

/-- A term in normal form is trimmed. -/
theorem trim_normalTerm (term : String) : Text.trim (normalTerm term) = normalTerm term :=
  Text.trim_lower term

/-- A term in normal form is lowercase. -/
theorem lower_normalTerm (term : String) : Text.lower (normalTerm term) = normalTerm term :=
  Text.lower_lower _

/-- The terms of a normalized list are the normal forms of its terms that are long enough. -/
theorem mem_normalize {terms : List String} {term : String} :
    term ∈ normalize terms ↔ 2 ≤ term.length ∧ ∃ raw ∈ terms, normalTerm raw = term := by
  simp only [normalize, List.mem_eraseDups, List.mem_filter, List.mem_map, decide_eq_true_eq,
    and_comm]

/-- A list that was normalized is in normal form. -/
theorem isNormal_normalize (terms : List String) : IsNormal (normalize terms) where
  trimmed term h := by
    obtain ⟨-, raw, -, rfl⟩ := mem_normalize.1 h
    exact trim_normalTerm raw
  lower term h := by
    obtain ⟨-, raw, -, rfl⟩ := mem_normalize.1 h
    exact lower_normalTerm raw
  length term h := (mem_normalize.1 h).1
  nodup := nodup_normalize terms

/-- Terms that are told apart already stay as they are. -/
theorem eraseDups_of_nodup {terms : List String} (h : terms.Nodup) : terms.eraseDups = terms := by
  induction terms with
  | nil => rfl
  | cons term terms ih =>
      obtain ⟨hterm, hterms⟩ := List.nodup_cons.1 h
      have hfilter : (terms.filter fun other => !other == term) = terms := by
        refine List.filter_eq_self.2 fun other hother => ?_
        have hne : other ≠ term := fun heq => hterm (heq ▸ hother)
        simpa using hne
      rw [List.eraseDups_cons, hfilter, ih hterms]

/-- Normalizing changes nothing in a list in normal form. -/
theorem IsNormal.normalize_eq {terms : List String} (h : IsNormal terms) :
    normalize terms = terms := by
  have hmap : terms.map normalTerm = terms := by
    refine (List.map_congr_left fun term hterm => ?_).trans (List.map_id terms)
    rw [normalTerm, h.trimmed term hterm, h.lower term hterm, id]
  have hfilter : (terms.filter fun term => 2 ≤ term.length) = terms :=
    List.filter_eq_self.2 fun term hterm => decide_eq_true (h.length term hterm)
  rw [normalize, hmap, hfilter, eraseDups_of_nodup h.nodup]

namespace KeywordSet

/-- Keywords and hints are normalized once and for all. -/
theorem normal_normal (set : KeywordSet) : set.normal.normal = set.normal := by
  simp only [normal, (isNormal_normalize _).normalize_eq]

/-- A set is read from what is written for it. -/
theorem accepts_toJson (set : KeywordSet) : Accepts (readRecord record) 2 set.toJson set := by
  have hterms (terms : List String) : Accepts (Json.readListOf (Json.readTextAs "a string")) 1
      (.listOf Json.string terms) terms :=
    Json.accepts_list (List.forall₂_map_left_iff.2 (List.forall₂_same.2 fun term _ =>
      Json.accepts_text "a string" term))
  have hmembers : List.Forall₂ (AcceptsMember record 1)
      [("keywords", .listOf Json.string set.keywords), ("hints", .listOf Json.string set.hints)]
      [fun value => { value with keywords := set.keywords },
        fun value => { value with hints := set.hints }] :=
    .cons ⟨_, rfl, (hterms set.keywords).map _⟩ (.cons ⟨_, rfl, (hterms set.hints).map _⟩ .nil)
  exact Json.accepts_record hmembers (by simp) (by simp [record])

end KeywordSet

namespace KeywordTable

/-! ### Tables and their texts -/

/-- The terms of a capability are normalized with the table. -/
theorem set?_normal (table : KeywordTable) (capability : Capability) :
    table.normal.set? capability = (table.set? capability).map KeywordSet.normal :=
  rfl

/-- A table is normalized once and for all. -/
theorem normal_normal (table : KeywordTable) : table.normal.normal = table.normal := by
  refine congrArg KeywordTable.mk (funext fun capability => ?_)
  rw [set?_normal, Option.map_map]
  exact congrArg (Option.map · _) (funext KeywordSet.normal_normal)

/-- The pairs of a table are its capabilities with their terms. -/
theorem mem_pairs {table : KeywordTable} {capability : Capability} {set : KeywordSet} :
    (capability, set) ∈ table.pairs ↔ table.set? capability = some set := by
  simp only [pairs, List.mem_filterMap, Option.map_eq_some_iff, Prod.mk.injEq]
  constructor
  · rintro ⟨_, -, _, hset, rfl, rfl⟩
    exact hset
  · exact fun hset => ⟨capability, Capability.mem_all capability, set, hset, rfl, rfl⟩

/-- A table has keywords just when one of its capabilities does. -/
theorem hasKeywords_iff {table : KeywordTable} : table.hasKeywords = true ↔
    ∃ capability set, table.set? capability = some set ∧ set.keywords ≠ [] := by
  simp only [hasKeywords, List.any_eq_true, Prod.exists, mem_pairs, Bool.not_eq_true',
    List.isEmpty_eq_false_iff]

/-- A table is told by its pairs, in whatever order they are. -/
theorem ofPairs_of_mem_iff {table : KeywordTable} {pairs : List (Capability × KeywordSet)}
    (h : ∀ capability set, (capability, set) ∈ pairs ↔ table.set? capability = some set) :
    ofPairs pairs = table := by
  refine congrArg KeywordTable.mk (funext fun capability => ?_)
  cases hfind : pairs.find? fun pair => pair.1 = capability with
  | some pair =>
      obtain rfl : pair.1 = capability := by simpa using List.find?_some hfind
      exact ((h _ _).1 (List.mem_of_find?_eq_some hfind)).symm
  | none =>
      cases hset : table.set? capability with
      | none => rfl
      | some set =>
          have hother := List.find?_eq_none.1 hfind _ ((h _ _).2 hset)
          exact absurd (decide_eq_true rfl) hother

/-- A table is read from what is written for it. -/
theorem accepts_toJson (table : KeywordTable) :
    Accepts (readRecord record) 4 table.toJson table := by
  have hpairs : List.Forall₂ (fun (member : String × Json) (pair : Capability × KeywordSet) =>
        capabilityOf member.1 = .ok pair.1 ∧
          Accepts (readRecord KeywordSet.record) 2 member.2 pair.2)
      (table.pairs.map fun pair => (pair.1.name, pair.2.toJson)) table.pairs := by
    refine List.forall₂_map_left_iff.2 (List.forall₂_same.2 fun pair _ => ⟨?_, ?_⟩)
    · dsimp only
      rw [capabilityOf, Capability.ofName?_name]
    · exact pair.2.accepts_toJson
  have hread : Accepts (Json.readMap capabilityOf (fun key set read => (key, set) :: read)
      (readRecord KeywordSet.record)) 3
      (.object (table.pairs.map fun pair => (pair.1.name, pair.2.toJson))) _ :=
    Json.accepts_map hpairs
  -- The pairs are gathered in reverse, which makes no difference: there is one for a capability.
  have htable : ofPairs (table.pairs.foldl (fun read pair => (pair.1, pair.2) :: read) []) =
      table := by
    refine ofPairs_of_mem_iff fun capability set => ?_
    rw [← mem_pairs]
    simp
  have hmembers : List.Forall₂ (AcceptsMember record 3)
      [("capabilities", .object (table.pairs.map fun pair => (pair.1.name, pair.2.toJson)))]
      [fun _ => ofPairs (table.pairs.foldl (fun read pair => (pair.1, pair.2) :: read) [])] :=
    .cons ⟨_, rfl, hread.map _⟩ .nil
  rw [htable] at hmembers
  exact Json.accepts_record hmembers (by simp) (by simp [record])

/-- A table is parsed just when its text is read, and some keyword is left once it is normalized. -/
theorem parse_eq_ok {path source : String} {table : KeywordTable} :
    parse path source = .ok table ↔ ∃ raw, readText (readRecord record) source.toList = .ok raw ∧
      raw.normal = table ∧ table.hasKeywords = true := by
  rw [parse]
  cases readText (readRecord record) source.toList with
  | error fault => simp
  | ok raw =>
      dsimp only
      split
      · next hkeywords =>
        constructor
        · rintro h
          obtain rfl := Except.ok.inj h
          exact ⟨raw, rfl, rfl, hkeywords⟩
        · rintro ⟨_, hraw, rfl, -⟩
          rw [Except.ok.inj hraw]
      · next hnone =>
        refine iff_of_false (fun h => by cases h) ?_
        rintro ⟨_, hraw, rfl, hkeywords⟩
        exact hnone (Except.ok.inj hraw ▸ hkeywords)

/-- What is written for a table in normal form that has keywords is read as that table. -/
theorem parse_of_spaced {table : KeywordTable} (hnormal : table.normal = table)
    (hkeywords : table.hasKeywords = true) {path source : String}
    (hsource : Spaced table.toJson source.toList) : parse path source = .ok table :=
  parse_eq_ok.2 ⟨table, table.accepts_toJson.readText (by decide) hsource, hnormal, hkeywords⟩

/-! ### Matches -/

/-- A request mentions a table in normal form where it mentions a term of the table that is long
enough in normal form. -/
theorem mentions_normal {table : KeywordTable} {list : KeywordSet → List String}
    (hlist : ∀ set, list (KeywordSet.normal set) = normalize (list set)) {request : String}
    {capability : Capability} : table.normal.Mentions list request capability ↔
      ∃ set, table.set? capability = some set ∧ ∃ term ∈ list set, 2 ≤ (normalTerm term).length ∧
        (normalTerm term).toList <:+: (Text.lower request).toList := by
  simp only [Mentions, set?_normal, Option.map_eq_some_iff]
  constructor
  · rintro ⟨_, ⟨set, hset, rfl⟩, term, hterm, hoccurs⟩
    rw [hlist] at hterm
    obtain ⟨hlength, raw, hraw, rfl⟩ := mem_normalize.1 hterm
    exact ⟨set, hset, raw, hraw, hlength, hoccurs⟩
  · rintro ⟨set, hset, raw, hraw, hlength, hoccurs⟩
    refine ⟨_, ⟨set, hset, rfl⟩, normalTerm raw, ?_, hoccurs⟩
    rw [hlist]
    exact mem_normalize.2 ⟨hlength, raw, hraw, rfl⟩

/-- The capabilities with a term in a request are some of all, in their order. -/
theorem sublist_selected (table : KeywordTable) (list : KeywordSet → List String)
    (request : String) : (table.selected list request).Sublist Capability.all :=
  List.filter_sublist

/-- What every table that was read keeps to: its terms are in normal form, some of them are
keywords, and it is read again from what is written for it, in one line or in several. A request
matches, in the order of the capabilities, those for which some term in the text, in normal form, is
long enough and occurs in the request in lowercase. -/
theorem parse_normal {path source : String} {table : KeywordTable}
    (h : parse path source = .ok table) :
    (∀ capability set, table.set? capability = some set →
      IsNormal set.keywords ∧ IsNormal set.hints) ∧
    (∃ capability set, table.set? capability = some set ∧ set.keywords ≠ []) ∧
    (∀ other, parse other table.toJson.text = .ok table ∧
      parse other table.toJson.prettyText = .ok table) ∧
    ∃ raw, readText (readRecord record) source.toList = .ok raw ∧ ∀ request,
      (table.matching request).Sublist Capability.all ∧
      (∀ capability, capability ∈ table.matching request ↔
        ∃ set, raw.set? capability = some set ∧ ∃ term ∈ set.keywords,
          2 ≤ (normalTerm term).length ∧
          (normalTerm term).toList <:+: (Text.lower request).toList) ∧
      (table.hinted request).Sublist Capability.all ∧
      ∀ capability, capability ∈ table.hinted request ↔
        ∃ set, raw.set? capability = some set ∧ ∃ term ∈ set.hints,
          2 ≤ (normalTerm term).length ∧
          (normalTerm term).toList <:+: (Text.lower request).toList := by
  obtain ⟨raw, hraw, rfl, hkeywords⟩ := parse_eq_ok.1 h
  have hspaced {written : String} (hwritten : Spaced raw.normal.toJson written.toList)
      (other : String) : parse other written = .ok raw.normal :=
    parse_of_spaced raw.normal_normal hkeywords hwritten
  refine ⟨fun capability set hset => ?_, hasKeywords_iff.1 hkeywords, fun other => ⟨?_, ?_⟩, raw,
    hraw, fun request => ⟨sublist_selected _ _ _, fun capability => ?_, sublist_selected _ _ _,
    fun capability => ?_⟩⟩
  · obtain ⟨set, -, rfl⟩ := Option.map_eq_some_iff.1 hset
    exact ⟨isNormal_normalize _, isNormal_normalize _⟩
  · refine hspaced ?_ other
    rw [Json.text, String.toList_ofList]
    exact Json.spaced_write _
  · refine hspaced ?_ other
    rw [Json.prettyText, String.toList_ofList]
    exact Json.spaced_writeAt _ 0
  · exact mem_selected.trans (mentions_normal fun _ => rfl)
  · exact mem_selected.trans (mentions_normal fun _ => rfl)

/-- A table with terms that are too short, and with one that is given twice. -/
def padded : KeywordTable :=
  ofPairs [(.daw, ⟨["x", " Track ", "track"], ["a"]⟩)]

/-- A table of terms in need of normalizing is parsed to its normal form. -/
theorem parse_padded : parse "keywords.json" padded.toJson.text = .ok padded.normal := by
  refine parse_eq_ok.2 ⟨padded, padded.accepts_toJson.readText (by decide) ?_, rfl,
    by decide +kernel⟩
  rw [Json.text, String.toList_ofList]
  exact Json.spaced_write _

/-- The padded table is parsed, brought into normal form, written and parsed again. -/
theorem parse_normal_padded :
    parse "keywords.json" padded.toJson.text = .ok padded.normal ∧
    (∀ capability set, padded.normal.set? capability = some set →
      IsNormal set.keywords ∧ IsNormal set.hints) ∧
    (∃ capability set, padded.normal.set? capability = some set ∧ set.keywords ≠ []) ∧
    ∀ other, parse other padded.normal.toJson.text = .ok padded.normal ∧
      parse other padded.normal.toJson.prettyText = .ok padded.normal := by
  obtain ⟨hnormal, hkeywords, hreread, -⟩ := parse_normal parse_padded
  exact ⟨parse_padded, hnormal, hkeywords, hreread⟩

example : padded.normal.set? .daw = some ⟨["track"], []⟩ := by decide +kernel

example : padded.normal.matching "New TRACK please" = [.daw] := by decide +kernel

end KeywordTable

end Studio.Request
