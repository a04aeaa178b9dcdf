import Studio.Capability
import Studio.Config.Fault
import Studio.Json.Shape
import Studio.Request.Terms
import Studio.Text.Case

/-!
# Keyword tables

A keyword table has two lists of terms for a capability: keywords, which select it, and hints, which
only make a request worth a closer look. Terms are compared without regard to letter case, anywhere
in a request. Main statements: `length_of_mem_normalize` and `nodup_normalize` say that stored terms
have at least two characters and are told apart.
-/

namespace Studio.Request

open Json (Record Reader readTextAs readListOf readRecord readMap readText)

/-- The terms of a capability. -/
structure KeywordSet where
  keywords : List String := []
  hints : List String := []
deriving DecidableEq, Repr

/-- The normal form of a term: lowercase, without blanks at its ends. -/
def normalTerm (term : String) : String :=
  Text.lower (Text.trim term)

/-- The terms of a list in normal form, without those of less than two characters and without
repetitions. -/
def normalize (terms : List String) : List String :=
  ((terms.map normalTerm).filter fun term => 2 ≤ term.length).eraseDups

/-- Whether a term of a list occurs in a text. -/
def anyOccurs (terms : List String) (text : String) : Bool :=
  terms.any fun term => Text.contains term.toList text.toList

namespace KeywordSet

/-- A set with its terms in normal form. -/
def normal (set : KeywordSet) : KeywordSet :=
  ⟨normalize set.keywords, normalize set.hints⟩

/-- The number of terms. -/
def size (set : KeywordSet) : Nat :=
  set.keywords.length + set.hints.length

/-- A set as a record of named fields. -/
def record : Record KeywordSet where
  title := "KeywordSet"
  blank := {}
  fields := [
    ⟨"keywords", false, (readListOf (readTextAs "a string")).map fun value set =>
      { set with keywords := value }⟩,
    ⟨"hints", false, (readListOf (readTextAs "a string")).map fun value set =>
      { set with hints := value }⟩]

/-- A set as an object. -/
def toJson (set : KeywordSet) : Json :=
  .object [("keywords", .listOf Json.string set.keywords), ("hints", .listOf Json.string set.hints)]

end KeywordSet

/-- The terms of each capability, where they are known. -/
structure KeywordTable where
  set? : Capability → Option KeywordSet

namespace KeywordTable

/-- The table without terms. -/
def empty : KeywordTable := ⟨fun _ => none⟩

/-- A table from pairs; of two sets for one capability the first counts. -/
def ofPairs (pairs : List (Capability × KeywordSet)) : KeywordTable :=
  ⟨fun capability => (pairs.find? fun pair => pair.1 = capability).map Prod.snd⟩

/-- The sets of a table in the order of the capabilities. -/
def pairs (table : KeywordTable) : List (Capability × KeywordSet) :=
  Capability.all.filterMap fun capability =>
    (table.set? capability).map fun set => (capability, set)

/-- A table with its terms in normal form. -/
def normal (table : KeywordTable) : KeywordTable :=
  ⟨fun capability => (table.set? capability).map KeywordSet.normal⟩

/-- Whether any capability has a keyword. -/
def hasKeywords (table : KeywordTable) : Bool :=
  table.pairs.any fun (_, set) => !set.keywords.isEmpty

/-- The number of terms. -/
def size (table : KeywordTable) : Nat :=
  table.pairs.foldr (fun (_, set) n => set.size + n) 0

/-- The capabilities for which a term of the chosen list occurs in a request. -/
def selected (list : KeywordSet → List String) (table : KeywordTable) (request : String) :
    List Capability :=
  Capability.all.filter fun capability =>
    (table.set? capability).any fun set => anyOccurs (list set) (Text.lower request)

/-- The capabilities that a request has a keyword of. -/
def matching (table : KeywordTable) (request : String) : List Capability :=
  table.selected KeywordSet.keywords request

/-- The capabilities that a request has a hint of. -/
def hinted (table : KeywordTable) (request : String) : List Capability :=
  table.selected KeywordSet.hints request

/-- The capability that a name in a table stands for. -/
def capabilityOf (name : String) : Except Json.Cause Capability :=
  match Capability.ofName? name with
  | some capability => .ok capability
  | none => .error (.unknownName name (Capability.all.map Capability.name))

/-- A table as a record of named fields. -/
def record : Record KeywordTable where
  title := "KeywordTable"
  blank := empty
  fields := [⟨"capabilities", true,
    (readMap capabilityOf (fun key set read => (key, set) :: read)
      (readRecord KeywordSet.record)).map fun read _ => ofPairs read⟩]

/-- Reads a table from its text and puts its terms in normal form; `path` is for the fault alone. -/
def parse (path source : String) : Except Config.Fault KeywordTable :=
  match readText (readRecord record) source.toList with
  | .error fault => .error (.json path source fault)
  | .ok table =>
    if table.normal.hasKeywords then .ok table.normal else .error (.noKeywords path)

/-- A table as an object. -/
def toJson (table : KeywordTable) : Json :=
  .object [("capabilities",
    .object (table.pairs.map fun (capability, set) => (capability.name, set.toJson)))]

/-- The table for requests that bring none of their own. -/
def shipped : KeywordTable :=
  KeywordTable.normal (ofPairs [
    (.daw, ⟨Terms.structuralKeywords, Terms.structuralHints⟩),
    (.arranger, ⟨Terms.harmonicKeywords, Terms.harmonicHints⟩),
    (.drummer, ⟨Terms.percussiveKeywords, Terms.percussiveHints⟩)])

end KeywordTable

/-- A stored term has at least two characters. -/
theorem length_of_mem_normalize {terms : List String} {term : String}
    (h : term ∈ normalize terms) : 2 ≤ term.length := by
  simp only [normalize, List.mem_eraseDups, List.mem_filter, decide_eq_true_eq] at h
  exact h.2

/-- Taking repetitions away leaves none. -/
theorem nodup_eraseDups (terms : List String) : terms.eraseDups.Nodup := by
  match terms with
  | [] => simp
  | term :: rest =>
    rw [List.eraseDups_cons, List.nodup_cons]
    exact ⟨by simp [List.mem_eraseDups], nodup_eraseDups _⟩
termination_by terms.length
decreasing_by
  simp only [List.length_cons]
  exact Nat.lt_succ_of_le (List.length_filter_le _ _)

/-- Stored terms are told apart. -/
theorem nodup_normalize (terms : List String) : (normalize terms).Nodup :=
  nodup_eraseDups _

end Studio.Request
