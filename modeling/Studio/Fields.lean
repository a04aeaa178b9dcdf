/-!
# Named fields

Finite maps from names to values as lists in ascending order of the names. Main statements:
`get?_insert` says what an insertion does to every look-up, and `Sorted.insert` that insertion keeps
the order.
-/

namespace Studio

/-- Values by name, in ascending order of the names. -/
abbrev Fields (α : Type) := List (String × α)

namespace Fields

variable {α β : Type}

/-- The value of a name. -/
def get? (name : String) : Fields α → Option α
  | [] => none
  | (key, value) :: rest => if key = name then some value else get? name rest

/-- Whether a name has a value. -/
def has (name : String) (fields : Fields α) : Bool :=
  (fields.get? name).isSome

/-- Give a name a value, in place of the one it had. -/
def insert (name : String) (value : α) : Fields α → Fields α
  | [] => [(name, value)]
  | (key, old) :: rest =>
    if name = key then (name, value) :: rest
    else if name < key then (name, value) :: (key, old) :: rest
    else (key, old) :: insert name value rest

/-- Give a name a value if there is one. -/
def insertSome (name : String) (value : Option α) (fields : Fields α) : Fields α :=
  match value with
  | some v => fields.insert name v
  | none => fields

/-- Take a name's value away. -/
def erase (name : String) (fields : Fields α) : Fields α :=
  fields.filter fun (key, _) => key ≠ name

/-- Fields from pairs in any order; of two values for one name the later counts. -/
def ofList (pairs : List (String × α)) : Fields α :=
  pairs.foldl (fun fields (name, value) => fields.insert name value) []

/-- Change every value. -/
def mapValues (f : α → β) (fields : Fields α) : Fields β :=
  fields.map fun (name, value) => (name, f value)

/-- The names are in strictly ascending order. -/
def Sorted (fields : Fields α) : Prop :=
  fields.Pairwise fun a b => a.1 < b.1

/-- A look-up after an insertion. -/
theorem get?_insert (name other : String) (value : α) (fields : Fields α) :
    (fields.insert name value).get? other =
      if name = other then some value else fields.get? other := by
  induction fields with
  | nil => simp [insert, get?]
  | cons head rest ih =>
    obtain ⟨key, old⟩ := head
    simp only [insert]
    split
    · next h => subst h; by_cases hn : name = other <;> simp [get?, hn]
    · split
      · by_cases hn : name = other <;> simp [get?, hn]
      · next h _ =>
        by_cases hk : key = other
        · subst hk; simp [get?, h]
        · simp [get?, hk, ih]

/-- Of two values for one name the later counts. -/
theorem insert_insert (name : String) (old new : α) (fields : Fields α) :
    (fields.insert name old).insert name new = fields.insert name new := by
  induction fields with
  | nil => simp [insert]
  | cons head rest ih =>
    obtain ⟨key, value⟩ := head
    simp only [insert]
    split
    · simp [insert]
    · split
      · simp [insert]
      · next hne hge => simp [insert, hne, hge, ih]

/-- Insertion keeps the order of the names. -/
theorem Sorted.insert {fields : Fields α} (sorted : fields.Sorted) (name : String) (value : α) :
    (fields.insert name value).Sorted := by
  induction fields with
  | nil => simp [Fields.insert, Sorted]
  | cons head rest ih =>
    obtain ⟨key, old⟩ := head
    have tail : Sorted rest := (List.pairwise_cons.1 sorted).2
    have above : ∀ entry ∈ rest, key < entry.1 := (List.pairwise_cons.1 sorted).1
    simp only [Fields.insert]
    split
    · next h => subst h; exact List.pairwise_cons.2 ⟨above, tail⟩
    · split
      · next h =>
        refine List.pairwise_cons.2 ⟨fun entry he => ?_, sorted⟩
        rcases List.mem_cons.1 he with rfl | he
        · exact h
        · exact String.lt_trans h (above entry he)
      · next hne hlt =>
        refine List.pairwise_cons.2 ⟨fun entry he => ?_, ih tail⟩
        have keyLt : key < name := Std.lt_of_le_of_ne (String.not_lt.1 hlt) (Ne.symm hne)
        clear ih sorted tail hne hlt
        induction rest with
        | nil => simp_all [Fields.insert]
        | cons next more ih =>
          obtain ⟨k, o⟩ := next
          simp only [Fields.insert] at he
          split at he
          · rcases List.mem_cons.1 he with rfl | he
            · exact keyLt
            · exact above entry (List.mem_cons_of_mem _ he)
          · split at he
            · rcases List.mem_cons.1 he with rfl | he
              · exact keyLt
              · exact above entry he
            · rcases List.mem_cons.1 he with rfl | he
              · exact above (k, o) List.mem_cons_self
              · exact ih (fun e h => above e (List.mem_cons_of_mem _ h)) he

end Fields

end Studio
