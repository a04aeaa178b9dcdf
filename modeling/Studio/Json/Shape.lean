import Studio.Json.Reader

/-!
# Readers for shapes

Readers for truth values, texts, bounded naturals, lists, records of named fields and maps. A record
may also be written as the list of its fields in their order. Fields that the record does not know
are passed over, a field given twice is a fault, and a field left out keeps the value of the empty
record unless it is required.
-/

namespace Studio.Json

open Studio.Text (Rest)

/-- The fault of finding another shape than the expected one; scalars are read to be named. -/
def wrongTypeFault (expected : String) (s : List Char) : Fault :=
  let fault (found : String) (unread : List Char) := Fault.here (.wrongType found expected) unread
  match s with
  | [] => .ahead .expectedValue []
  | c :: rest =>
    if c = 'n' then
      match readWord "ull".toList rest with
      | .error e => e
      | .ok r => fault "null" r.val
    else if c = 't' then
      match readWord "rue".toList rest with
      | .error e => e
      | .ok r => fault "boolean `true`" r.val
    else if c = 'f' then
      match readWord "alse".toList rest with
      | .error e => e
      | .ok r => fault "boolean `false`" r.val
    else if c = '"' then
      match readString rest with
      | .error e => e
      | .ok (text, r) => fault ("string " ++ Text.quoted text) r.val
    else if c = '-' || Number.isDigit c then
      match readNumeral (c = '-') (if c = '-' then rest else c :: rest) with
      | .error e => e
      | .ok (.integer n, r) => fault ("integer `" ++ Number.intText n ++ "`") r.val
      | .ok (.float x, r) =>
        fault ("floating point `" ++ (Json.float x).text ++ "`") r.val
    else if c = '[' then fault "sequence" s
    else if c = '\x7b' then fault "map" s
    else .ahead .expectedValue s

/-- Look at the first character behind the blanks; without one the value is missing. -/
def dispatch {α : Type} (s : List Char)
    (step : (c : Char) → (rest : List Char) → Step (c :: rest) α) : Step s α :=
  behindSpace s <| match skipSpace s with
  | [] => .error (.ahead .endInValue [])
  | c :: rest => step c rest

/-- Change the value that a reader returns. -/
def Reader.map {α β : Type} (f : α → β) (reader : Reader α) : Reader β := fun depth s =>
  match reader depth s with
  | .error e => .error e
  | .ok (a, r) => .ok (f a, r)

/-- Reads a truth value. -/
def readBool : Reader Bool := fun _ s =>
  dispatch s fun c rest =>
    if c = 't' then wordAs true "rue".toList c rest
    else if c = 'f' then wordAs false "alse".toList c rest
    else .error (wrongTypeFault "a boolean" (c :: rest))

/-- Reads a text, which faults call `title`. -/
def readTextAs (title : String) : Reader String := fun _ s =>
  dispatch s fun c rest =>
    if c = '"' then (readString rest).cons
    else .error (wrongTypeFault title (c :: rest))

/-- Reads a natural number below `bound`, which faults call `title`. -/
def readNat (title : String) (bound : Nat) : Reader Nat := fun _ s =>
  dispatch s fun c rest =>
    if c = '-' || Number.isDigit c then
      let step : Step (c :: rest) Numeral :=
        if c = '-' then (readNumeral true rest).cons else readNumeral false (c :: rest)
      match step with
      | .error e => .error e
      | .ok (.integer n, r) =>
        if 0 ≤ n && n < bound then .ok (n.toNat, r)
        else
          .error (.here (.wrongValue ("integer `" ++ Number.intText n ++ "`") title) r.val)
      | .ok (.float x, r) =>
        .error (.here
          (.wrongType ("floating point `" ++ (Json.float x).text ++ "`") title) r.val)
    else .error (wrongTypeFault title (c :: rest))

/-- Reads a number in single precision: the double that is read is rounded once more. -/
def readSingle : Reader Float32 := fun _ s =>
  dispatch s fun c rest =>
    if c = '-' || Number.isDigit c then
      let step : Step (c :: rest) Numeral :=
        if c = '-' then (readNumeral true rest).cons else readNumeral false (c :: rest)
      match step with
      | .error e => .error e
      | .ok (.integer n, r) =>
        .ok (Number.DecimalText.toSingle ⟨n < 0, n.natAbs, 0⟩, r)
      | .ok (.float x, r) => .ok (Number.toSingle x, r)
    else .error (wrongTypeFault "f32" (c :: rest))

/-- Reads a value or `null`. -/
def readOpt {α : Type} (reader : Reader α) : Reader (Option α) := fun depth s =>
  match h : skipSpace s with
  | 'n' :: rest => behindSpace s (by rw [h]; exact wordAs none "ull".toList 'n' rest)
  | _ => (reader.map some) depth s

/-- Where the reader of a list stops when it goes on behind a fault. -/
def listStop (unread : List Char) : List Char :=
  match skipSpace unread with
  | ']' :: rest => rest
  | ',' :: rest => skipSpace rest
  | other => other

/-- Where the reader of an object stops when it goes on behind a fault. -/
def objectStop (unread : List Char) : List Char :=
  match skipSpace unread with
  | '\x7d' :: rest => rest
  | other => other

/-- Settle the place of a fault inside a container. -/
def settleStep {s : List Char} {α : Type} (stop : List Char → List Char) : Step s α → Step s α
  | .ok r => .ok r
  | .error e => .error (e.settle stop)

/-- Read the items of a list up to its end, where `read` holds the items before, last first. -/
def readItemsAs {α : Type} (item : Reader α) (depth : Nat) (first : Bool) (read : List α)
    (s : List Char) : Step s (List α) :=
  match nextItem first s with
  | .error e => .error e
  | .ok (.close r) => .ok (read.reverse, r)
  | .ok (.item r) =>
    match item depth r.val with
    | .error e => .error e
    | .ok (value, r') =>
      have hlt : r'.val.length < s.length := Nat.lt_of_lt_of_le r'.property r.property
      (readItemsAs item depth false (value :: read) r'.val).widen (Nat.le_of_lt hlt)
termination_by s.length

/-- Reads a list. -/
def readListOf {α : Type} (item : Reader α) : Reader (List α) := fun depth s =>
  dispatch s fun c rest =>
    if c = '[' then
      if depth ≤ 1 then .error (.ahead .tooDeep (c :: rest))
      else settleStep listStop (readItemsAs item (depth - 1) true [] rest).cons
    else .error (wrongTypeFault "a sequence" (c :: rest))

/-! ### Records -/

/-- A field of a record: its name, whether it must be given, and a reader for what it changes. -/
structure Field (α : Type) where
  name : String
  required : Bool
  read : Reader (α → α)

/-- A record: the name that faults use, its fields in order, and its value when all are left out. -/
structure Record (α : Type) where
  title : String
  fields : List (Field α)
  blank : α

/-- How faults describe a record of that many fields. -/
def Record.description {α : Type} (record : Record α) : String :=
  "struct " ++ record.title ++ " with " ++ Number.intText record.fields.length ++
    (if record.fields.length = 1 then " element" else " elements")

/-- Read the members of a record written as an object, where `seen` names those before. -/
def readRecordMembers {α : Type} (record : Record α) (depth : Nat) (first : Bool)
    (seen : List String) (value : α) (s : List Char) : Step s α :=
  match nextMember first s with
  | .error e => .error e
  | .ok (.close r) =>
    match record.fields.find? fun f => f.required && !seen.contains f.name with
    | some f => .error (.here (.missingField f.name) r.val)
    | none => .ok (value, r)
  | .ok (.item r) =>
    match readString r.val with
    | .error e => .error e
    | .ok (key, rk) =>
      let field := record.fields.find? fun f => f.name = key
      if field.isSome && seen.contains key then
        .error ⟨.repeatedField key, .undecided rk.val⟩
      else
        match readColon rk.val with
        | .error e => .error e
        | .ok ((), rc) =>
          -- What no field is called by is passed over, however often it is given.
          let change : Step rc.val (α → α) := match field with
            | some f => f.read depth rc.val
            | none =>
              match skipValue rc.val with
              | .error e => .error e
              | .ok ((), r') => .ok (id, r')
          match change with
          | .error e => .error e
          | .ok (change, r') =>
            have hlt : r'.val.length < s.length := by
              have := r.property; have := rk.property; have := rc.property
              have := r'.property; omega
            (readRecordMembers record depth false (key :: seen) (change value) r'.val).widen
              (Nat.le_of_lt hlt)
termination_by s.length

/-- Read the fields of a record written as a list, where `index` of them come before. -/
def readRecordItems {α : Type} (record : Record α) (depth index : Nat) (first : Bool) (value : α) :
    (fields : List (Field α)) → (s : List Char) → Step s α
  | [], s =>
    behindSpace s <| match skipSpace s with
    | [] => .error (.ahead .endInList [])
    | ']' :: rest => .ok (value, .behind rest)
    | ',' :: rest =>
      match skipSpace rest with
      | ']' :: more => .error (.ahead .trailingComma (']' :: more))
      | other => .error (.ahead .trailingCharacters other)
    | other => .error (.ahead .trailingCharacters other)
  | field :: fields, s =>
    match nextItem first s with
    | .error e => .error e
    | .ok (.close r) =>
      match (field :: fields).findIdx? fun f => f.required with
      | some i => .error (.here (.wrongLength (index + i) record.description) r.val)
      | none => .ok (value, r)
    | .ok (.item r) =>
      match field.read depth r.val with
      | .error e => .error e
      | .ok (change, r') =>
        (readRecordItems record depth (index + 1) false (change value) fields r'.val).widen
          (Nat.le_of_lt (Nat.lt_of_lt_of_le r'.property r.property))

/-- Reads a record. -/
def readRecord {α : Type} (record : Record α) : Reader α := fun depth s =>
  dispatch s fun c rest =>
    if c = '\x7b' then
      if depth ≤ 1 then .error (.ahead .tooDeep (c :: rest))
      else settleStep objectStop
        (readRecordMembers record (depth - 1) true [] record.blank rest).cons
    else if c = '[' then
      if depth ≤ 1 then .error (.ahead .tooDeep (c :: rest))
      else settleStep listStop
        (readRecordItems record (depth - 1) 0 true record.blank record.fields rest).cons
    else .error (wrongTypeFault ("struct " ++ record.title) (c :: rest))

/-! ### Maps -/

/-- Read the members of a map, whose names `key` understands; of two members with one name the
later counts. -/
def readMapMembers {κ α : Type} (key : String → Except Cause κ) (insert : κ → α → List (κ × α) →
    List (κ × α)) (item : Reader α) (depth : Nat) (first : Bool) (read : List (κ × α))
    (s : List Char) : Step s (List (κ × α)) :=
  match nextMember first s with
  | .error e => .error e
  | .ok (.close r) => .ok (read, r)
  | .ok (.item r) =>
    match readString r.val with
    | .error e => .error e
    | .ok (name, rk) =>
      match key name with
      | .error cause => .error (.here cause rk.val)
      | .ok k =>
        match readColon rk.val with
        | .error e => .error e
        | .ok ((), rc) =>
          match item depth rc.val with
          | .error e => .error e
          | .ok (value, r') =>
            have hlt : r'.val.length < s.length := by
              have := r.property; have := rk.property; have := rc.property
              have := r'.property; omega
            (readMapMembers key insert item depth false (insert k value read) r'.val).widen
              (Nat.le_of_lt hlt)
termination_by s.length

/-- Reads a map. -/
def readMap {κ α : Type} (key : String → Except Cause κ) (insert : κ → α → List (κ × α) →
    List (κ × α)) (item : Reader α) : Reader (List (κ × α)) := fun depth s =>
  dispatch s fun c rest =>
    if c = '\x7b' then
      if depth ≤ 1 then .error (.ahead .tooDeep (c :: rest))
      else settleStep objectStop
        (readMapMembers key insert item (depth - 1) true [] rest).cons
    else .error (wrongTypeFault "a map" (c :: rest))

/-- Reads any value, and the same text once more in the shape that is chosen for the value; where
none fits, the fault is placed by the container around the value. -/
def readChosen {α : Type} (cause : Cause) (choose : Json → Option (Reader α)) : Reader α :=
  fun depth s =>
  match readValue depth s with
  | .error e => .error e
  | .ok (value, r) =>
    let chosen : Option α := do
      let reader ← choose value
      let (a, _) ← (reader depth s).toOption
      pure a
    match chosen with
    | some a => .ok (a, r)
    | none => .error ⟨cause, .undecided r.val⟩

end Studio.Json
