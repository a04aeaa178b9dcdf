import Studio.Json.Scan

/-!
# Reading JSON texts

`parse` reads a text as a value. Records of known fields are read straight from their text instead,
by a `Reader` for every shape, so that a fault shows at the first place where the text departs from
the shape. Containers may be nested 127 deep; what is passed over unread may be nested at will.
-/

namespace Studio.Json

open Studio.Text (Rest Tail)

/-- Reads a value of a shape from the front of a text, where containers may still be nested less
than `depth` deep. -/
abbrev Reader (α : Type) := (depth : Nat) → (s : List Char) → Step s α

/-- The value of a numeral. -/
def ofNumeral : Numeral → Json
  | .integer n => .integer n
  | .float x => .float x

/-- A step behind leading blanks is a step on the text. -/
def behindSpace {α : Type} (s : List Char) (step : Step (skipSpace s) α) : Step s α :=
  step.widen (length_skipSpace_le s)

/-- Whether an item of a list, a member of an object, or the end comes next. -/
inductive Ahead (s : List Char) where
  | item (rest : Tail s)
  | close (rest : Rest s)

/-- Look for the next item of a list. -/
def nextItem (first : Bool) (s : List Char) : Except Fault (Ahead s) :=
  match h : skipSpace s with
  | [] => .error (.ahead .endInList [])
  | c :: rest =>
    have hle := length_behind_space_lt h
    if c = ']' then .ok (.close ⟨rest, hle⟩)
    else if first then .ok (.item ⟨c :: rest, hle⟩)
    else if c = ',' then
      match skipSpace rest with
      | [] => .error (.ahead .endInValue [])
      | ']' :: more => .error (.ahead .trailingComma (']' :: more))
      | _ => .ok (.item (Rest.toTail ⟨rest, hle⟩))
    else .error (.ahead .expectedListEnd (c :: rest))

/-- Look for the next member of an object; a member is left behind its opening quote. -/
def nextMember (first : Bool) (s : List Char) : Except Fault (Ahead s) :=
  match h : skipSpace s with
  | [] => .error (.ahead .endInObject [])
  | c :: rest =>
    have hle := length_behind_space_lt h
    if c = '\x7d' then .ok (.close ⟨rest, hle⟩)
    else if first then
      if c = '"' then .ok (.item (Rest.toTail ⟨rest, hle⟩))
      else .error (.ahead .keyNotString (c :: rest))
    else if c = ',' then
      match h' : skipSpace rest with
      | [] => .error (.ahead .endInValue [])
      | d :: more =>
        if d = '"' then
          .ok (.item (Rest.toTail ⟨more, Nat.lt_trans (length_behind_space_lt h') hle⟩))
        else if d = '\x7d' then .error (.ahead .trailingComma (d :: more))
        else .error (.ahead .keyNotString (d :: more))
    else .error (.ahead .expectedObjectEnd (c :: rest))

/-- Read the colon behind a name. -/
def readColon (s : List Char) : Step s Unit :=
  behindSpace s <| match skipSpace s with
  | [] => .error (.ahead .endInObject [])
  | ':' :: rest => .ok ((), .behind rest)
  | other => .error (.ahead .expectedColon other)

/-- Read a name behind its opening quote, and the colon. -/
def readKey (s : List Char) : Step s String :=
  match readString s with
  | .error e => .error e
  | .ok (key, r) =>
    match readColon r.val with
    | .error e => .error e
    | .ok ((), r') => .ok (key, ⟨r'.val, Nat.lt_trans r'.property r.property⟩)

mutual

/-- Read any value. -/
def readValue (depth : Nat) (s : List Char) : Step s Json :=
  behindSpace s <| match _h : skipSpace s with
  | [] => .error (.ahead .endInValue [])
  | c :: rest =>
    if c = 'n' then wordAs .null "ull".toList c rest
    else if c = 't' then wordAs (.bool true) "rue".toList c rest
    else if c = 'f' then wordAs (.bool false) "alse".toList c rest
    else if c = '"' then
      match readString rest with
      | .error e => .error e
      | .ok (text, r) => .ok (.string text, r.cons)
    else if c = '-' then
      match readNumeral true rest with
      | .error e => .error e
      | .ok (n, r) => .ok (ofNumeral n, r.cons)
    else if Number.isDigit c then
      match readNumeral false (c :: rest) with
      | .error e => .error e
      | .ok (n, r) => .ok (ofNumeral n, r)
    else if c = '[' then
      if depth ≤ 1 then .error (.ahead .tooDeep (c :: rest))
      else
        match readItems (depth - 1) true [] rest with
        | .error e => .error e
        | .ok (items, r) => .ok (.array items, r.cons)
    else if c = '\x7b' then
      if depth ≤ 1 then .error (.ahead .tooDeep (c :: rest))
      else
        match readMembers (depth - 1) true [] rest with
        | .error e => .error e
        | .ok (members, r) => .ok (.object members, r.cons)
    else .error (.ahead .expectedValue (c :: rest))
termination_by (s.length, 0)
decreasing_by all_goals exact Prod.Lex.left _ _ (length_behind_space_lt _h)

/-- Read the items of a list up to its end, where `read` holds the items before, last first. -/
def readItems (depth : Nat) (first : Bool) (read : List Json) (s : List Char) :
    Step s (List Json) :=
  match nextItem first s with
  | .error e => .error e
  | .ok (.close r) => .ok (read.reverse, r)
  | .ok (.item r) =>
    match readValue depth r.val with
    | .error e => .error e
    | .ok (value, r') =>
      have hlt : r'.val.length < s.length := Nat.lt_of_lt_of_le r'.property r.property
      (readItems depth false (value :: read) r'.val).widen (Nat.le_of_lt hlt)
termination_by (s.length, 1)
decreasing_by
  · rcases Nat.lt_or_eq_of_le r.property with h | h
    · exact Prod.Lex.left _ _ h
    · rw [h]; exact Prod.Lex.right _ (by omega)
  · exact Prod.Lex.left _ _ hlt

/-- Read the members of an object up to its end; of two members with one name the later counts. -/
def readMembers (depth : Nat) (first : Bool) (read : Fields Json) (s : List Char) :
    Step s (Fields Json) :=
  match nextMember first s with
  | .error e => .error e
  | .ok (.close r) => .ok (read, r)
  | .ok (.item r) =>
    match readKey r.val with
    | .error e => .error e
    | .ok (key, rk) =>
      match readValue depth rk.val with
      | .error e => .error e
      | .ok (value, r') =>
        have hlt : r'.val.length < s.length := by
          have := r.property; have := rk.property; have := r'.property; omega
        (readMembers depth false (read.insert key value) r'.val).widen (Nat.le_of_lt hlt)
termination_by (s.length, 1)
decreasing_by
  · exact Prod.Lex.left _ _ (Nat.lt_of_lt_of_le rk.property r.property)
  · exact Prod.Lex.left _ _ hlt

end

mutual

/-- Pass over any value. -/
def skipValue (s : List Char) : Step s Unit :=
  behindSpace s <| match _h : skipSpace s with
  | [] => .error (.ahead .endInValue [])
  | c :: rest =>
    if c = 'n' then wordAs () "ull".toList c rest
    else if c = 't' then wordAs () "rue".toList c rest
    else if c = 'f' then wordAs () "alse".toList c rest
    else if c = '"' then (skipString rest).cons
    else if c = '-' then (skipNumeral rest).cons
    else if Number.isDigit c then skipNumeral (c :: rest)
    else if c = '[' then (skipItems true rest).cons
    else if c = '\x7b' then (skipMembers true rest).cons
    else .error (.ahead .expectedValue (c :: rest))
termination_by (s.length, 0)
decreasing_by all_goals exact Prod.Lex.left _ _ (length_behind_space_lt _h)

/-- Pass over the items of a list up to its end. -/
def skipItems (first : Bool) (s : List Char) : Step s Unit :=
  match h : skipSpace s with
  | [] => .error (.ahead .endInList [])
  | c :: rest =>
    have hlt := length_behind_space_lt h
    if c = ']' then .ok ((), ⟨rest, hlt⟩)
    else if first || c = ',' then
      let item : Tail s :=
        if first then ⟨c :: rest, hlt⟩ else Rest.toTail ⟨rest, hlt⟩
      match skipValue item.val with
      | .error e => .error e
      | .ok ((), r) =>
        have hr : r.val.length < s.length := Nat.lt_of_lt_of_le r.property item.property
        (skipItems false r.val).widen (Nat.le_of_lt hr)
    else .error (.ahead .expectedListEnd (c :: rest))
termination_by (s.length, 1)
decreasing_by
  · rcases Nat.lt_or_eq_of_le item.property with h | h
    · exact Prod.Lex.left _ _ h
    · rw [h]; exact Prod.Lex.right _ (by omega)
  · exact Prod.Lex.left _ _ hr

/-- Pass over the members of an object up to its end. -/
def skipMembers (first : Bool) (s : List Char) : Step s Unit :=
  match h : skipSpace s with
  | [] => .error (.ahead .endInObject [])
  | c :: rest =>
    have hlt := length_behind_space_lt h
    if c = '\x7d' then .ok ((), ⟨rest, hlt⟩)
    else if first || c = ',' then
      let member : Tail s :=
        if first then ⟨c :: rest, hlt⟩ else Rest.toTail ⟨rest, hlt⟩
      match hq : skipSpace member.val with
      | [] => .error (.ahead .endInObject [])
      | q :: name =>
        have hname : name.length < s.length := by
          have := length_skipSpace_le member.val; rw [hq] at this; simp at this
          have := member.property; omega
        if q = '"' then
          match skipString name with
          | .error e => .error e
          | .ok ((), rn) =>
            match readColon rn.val with
            | .error e => .error e
            | .ok ((), rc) =>
              match skipValue rc.val with
              | .error e => .error e
              | .ok ((), r) =>
                have hr : r.val.length < s.length := by
                  have := rn.property; have := rc.property; have := r.property; omega
                (skipMembers false r.val).widen (Nat.le_of_lt hr)
        else .error (.ahead .keyNotString (q :: name))
    else .error (.ahead .expectedObjectEnd (c :: rest))
termination_by (s.length, 1)
decreasing_by
  · exact Prod.Lex.left _ _ (by have := rn.property; have := rc.property; omega)
  · exact Prod.Lex.left _ _ hr

end

/-- How deep the containers of a text may be nested, plus one. -/
def depthLimit : Nat := 128

/-- Read a whole text in a shape; only blanks may follow. -/
def readText {α : Type} (reader : Reader α) (source : List Char) : Except Fault α :=
  match reader depthLimit source with
  | .error e => .error (e.settle id)
  | .ok (value, r) =>
    match skipSpace r.val with
    | [] => .ok value
    | more => .error (.ahead .trailingCharacters more)

/-- Read a text as a value. -/
def parse (source : String) : Except Fault Json :=
  readText readValue source.toList

end Studio.Json
