import Studio.Provider.EventStream

/-!
# Decoding chunk by chunk

A decoder that takes in bytes chunk by chunk comes to what it comes to when it takes them in all at
once, wherever they are cut (`pushes_agree`). Bytes split into the same lines when what one chunk
leaves over stands in front of the next (`splitLines_append`), and lines are read one after another,
whatever chunk they end in (`lines_append`).
-/

namespace Studio.Provider

/-! ### Lines -/

/-- A byte belongs to the first line, and a line end ends it. -/
theorem splitLines_cons (byte : UInt8) (bytes : List UInt8) :
    splitLines (byte :: bytes) =
      if byte = lineEnd then ([byte] :: (splitLines bytes).1, (splitLines bytes).2)
      else match (splitLines bytes).1 with
        | [] => ([], byte :: (splitLines bytes).2)
        | line :: more => ((byte :: line) :: more, (splitLines bytes).2) :=
  rfl

/-- Bytes may be cut anywhere: what follows the last line end of the first part begins the first
line of the second. -/
theorem splitLines_append (first second : List UInt8) :
    splitLines (first ++ second) =
      ((splitLines first).1 ++ (splitLines ((splitLines first).2 ++ second)).1,
        (splitLines ((splitLines first).2 ++ second)).2) := by
  induction first with
  | nil => simp [splitLines]
  | cons byte bytes ih =>
      rw [List.cons_append, splitLines_cons, splitLines_cons, ih]
      by_cases hbyte : byte = lineEnd
      · simp [hbyte]
      · simp only [if_neg hbyte]
        cases (splitLines bytes).1 with
        | nil =>
            -- The byte belongs to the line that the first part leaves open.
            rw [List.nil_append, List.nil_append, List.cons_append, splitLines_cons, if_neg hbyte]
        | cons line more => rfl

/-- Bytes without a line end are no line yet. -/
theorem splitLines_of_not_mem {bytes : List UInt8} (h : lineEnd ∉ bytes) :
    splitLines bytes = ([], bytes) := by
  induction bytes with
  | nil => rfl
  | cons byte rest ih =>
      have hbyte : byte ≠ lineEnd := fun heq => h (heq ▸ List.mem_cons_self)
      have hrest := ih fun hmem => h (List.mem_cons_of_mem byte hmem)
      rw [splitLines_cons, if_neg hbyte, hrest]

namespace Heard

/-- How the reading of lines ends when others were read before them, with their events. -/
def Outcome.behind (events : List StreamEvent) : Outcome → Outcome
  | .read more => .read (events ++ more)
  | .stopped fault behind => .stopped fault behind

/-- An outcome behind no events is the outcome. -/
theorem Outcome.behind_nil (outcome : Outcome) : outcome.behind [] = outcome := by
  cases outcome <;> rfl

/-- An event in front of events is told with them. -/
theorem Outcome.cons_behind (event : Option StreamEvent) (events : List StreamEvent)
    (outcome : Outcome) :
    (outcome.behind events).cons event = outcome.behind (event.toList ++ events) := by
  cases outcome <;> simp [behind, cons]

/-- Lines are read one after another, and those behind a fault not at all. -/
theorem lines_append (heard : Heard) (first second : List (List UInt8)) :
    heard.lines (first ++ second) = match heard.lines first with
      | (next, .read events) => ((next.lines second).1, (next.lines second).2.behind events)
      | (next, .stopped fault behind) => (next, .stopped fault (behind ++ second)) := by
  induction first generalizing heard with
  | nil => simp [lines, Outcome.behind_nil]
  | cons line rest ih =>
      simp only [List.cons_append, lines]
      rcases heard.line line with ⟨next, fault | event⟩
      · rfl
      · simp only [ih next]
        rcases next.lines rest with ⟨last, events | ⟨fault, behind⟩⟩
        · exact congrArg (Prod.mk _) (Outcome.cons_behind event events _)
        · rfl

end Heard

/-! ### Chunks -/

namespace Decoder

variable {decoder next : Decoder} {events : List StreamEvent} {fault : Fault}

/-- Take in chunks one after another, with the answers to all of them. A decoder goes on after a
fault. -/
def pushes (decoder : Decoder) :
    List (List UInt8) → Decoder × List (Except Fault (List StreamEvent))
  | [] => (decoder, [])
  | chunk :: rest =>
    let (next, answer) := decoder.push chunk
    let (last, answers) := next.pushes rest
    (last, answer :: answers)

/-- The lines that a chunk completes are read without a fault. -/
theorem push_eq_ok {chunk : List UInt8} : decoder.push chunk = (next, .ok events) ↔
    next.kept = (splitLines (decoder.kept ++ chunk)).2 ∧
      decoder.heard.lines (splitLines (decoder.kept ++ chunk)).1 = (next.heard, .read events) := by
  obtain ⟨kept, heard⟩ := next
  simp only [push]
  split
  · next last found h =>
    simp only [h, Prod.mk.injEq, Decoder.mk.injEq, Except.ok.injEq, Heard.Outcome.read.injEq]
    grind
  · next last fault behind h => simp [h]

/-- One of the lines that a chunk completes is at fault. -/
theorem push_eq_error {chunk : List UInt8} : (decoder.push chunk).2 = .error fault ↔
    ∃ heard behind, decoder.heard.lines (splitLines (decoder.kept ++ chunk)).1 =
      (heard, .stopped fault behind) := by
  simp only [push]
  split
  · next last found h => simp [h]
  · next last found behind h => simp [h]

/-- Nothing is left to read in a decoder without a complete line. -/
theorem push_nil (h : lineEnd ∉ decoder.kept) : decoder.push [] = (decoder, .ok []) := by
  rw [push_eq_ok, List.append_nil, splitLines_of_not_mem h]
  exact ⟨rfl, rfl⟩

/-- A decoder that took in a chunk without a fault keeps no complete line. -/
theorem not_mem_kept_of_push {chunk : List UInt8} (h : decoder.push chunk = (next, .ok events)) :
    lineEnd ∉ next.kept := by
  rw [(push_eq_ok.1 h).1]
  exact lineEnd_not_mem_rest _

/-- Two chunks that are taken in as one lead to the events of both. -/
theorem push_append_of_ok {first : List UInt8} (h : decoder.push first = (next, .ok events))
    (second : List UInt8) : decoder.push (first ++ second) =
      ((next.push second).1, (next.push second).2.map (events ++ ·)) := by
  obtain ⟨hkept, hread⟩ := push_eq_ok.1 h
  simp only [push, ← List.append_assoc, splitLines_append (decoder.kept ++ first), hkept,
    Heard.lines_append, hread]
  rcases next.heard.lines (splitLines ((splitLines (decoder.kept ++ first)).2 ++ second)).1 with
    ⟨last, more | ⟨fault, behind⟩⟩ <;> rfl

/-- A fault in the first of two chunks is the fault of both as one. -/
theorem push_append_of_error {first : List UInt8} (h : (decoder.push first).2 = .error fault)
    (second : List UInt8) : (decoder.push (first ++ second)).2 = .error fault := by
  obtain ⟨heard, behind, hread⟩ := push_eq_error.1 h
  rw [push_eq_error, ← List.append_assoc, splitLines_append, Heard.lines_append, hread]
  exact ⟨heard, _, rfl⟩

/-- Bytes without a fault are taken in chunk by chunk as they are at once. -/
theorem pushes_of_ok {chunks : List (List UInt8)} (hkept : lineEnd ∉ decoder.kept)
    (h : decoder.push chunks.flatten = (next, .ok events)) :
    ∃ parts : List (List StreamEvent),
      decoder.pushes chunks = (next, parts.map .ok) ∧ parts.flatten = events := by
  induction chunks generalizing decoder events with
  | nil =>
      obtain ⟨rfl, hnone⟩ := Prod.mk.inj ((push_nil hkept).symm.trans h)
      exact ⟨[], rfl, Except.ok.inj hnone⟩
  | cons chunk rest ih =>
      rw [List.flatten_cons] at h
      rcases hchunk : decoder.push chunk with ⟨between, fault | found⟩
      · have hfault := push_append_of_error (congrArg Prod.snd hchunk) rest.flatten
        rw [h] at hfault
        cases hfault
      · rw [push_append_of_ok hchunk] at h
        rcases hrest : between.push rest.flatten with ⟨last, fault | more⟩
        · rw [hrest] at h
          cases h
        · rw [hrest] at h
          obtain ⟨rfl, hevents⟩ := Prod.mk.inj h
          obtain ⟨parts, hparts, rfl⟩ := ih (not_mem_kept_of_push hchunk) hrest
          refine ⟨found :: parts, ?_, Except.ok.inj hevents⟩
          rw [pushes, hchunk]
          simp only [hparts, List.map_cons]

/-- The fault of bytes is that of the first chunk that has one. -/
theorem pushes_of_error {chunks : List (List UInt8)} (hkept : lineEnd ∉ decoder.kept)
    (h : (decoder.push chunks.flatten).2 = .error fault) :
    ∃ (parts : List (List StreamEvent)) (answers : List (Except Fault (List StreamEvent))),
      (decoder.pushes chunks).2 = parts.map .ok ++ .error fault :: answers := by
  induction chunks generalizing decoder with
  | nil =>
      rw [List.flatten_nil, push_nil hkept] at h
      cases h
  | cons chunk rest ih =>
      rw [List.flatten_cons] at h
      rcases hchunk : decoder.push chunk with ⟨between, found | found⟩
      · obtain rfl : found = fault := by
          have hfault := push_append_of_error (congrArg Prod.snd hchunk) rest.flatten
          exact Except.error.inj (hfault.symm.trans h)
        refine ⟨[], (between.pushes rest).2, ?_⟩
        rw [pushes, hchunk]
        rfl
      · rw [push_append_of_ok hchunk] at h
        have hrest : (between.push rest.flatten).2 = .error fault := by
          cases hlast : (between.push rest.flatten).2 with
          | error other =>
              rw [hlast] at h
              exact h
          | ok more =>
              rw [hlast] at h
              cases h
        obtain ⟨parts, answers, hparts⟩ := ih (not_mem_kept_of_push hchunk) hrest
        refine ⟨found :: parts, answers, ?_⟩
        rw [pushes, hchunk]
        simp only [hparts, List.map_cons, List.cons_append]

/-- Bytes that are taken in chunk by chunk, cut anywhere, lead to what they lead to at once: to a
fault exactly if some chunk does, and then to the first of these; otherwise to the same events, the
same text and the same bytes that are kept. -/
theorem pushes_agree (chunks : List (List UInt8)) :
    let whole := Decoder.push {} chunks.flatten
    let parts := Decoder.pushes {} chunks
    ((∃ fault, whole.2 = .error fault) ↔ ∃ fault, .error fault ∈ parts.2) ∧
      (∀ fault, whole.2 = .error fault →
        ∃ (before : List (List StreamEvent)) (after : List (Except Fault (List StreamEvent))),
          parts.2 = before.map .ok ++ .error fault :: after) ∧
      ∀ events, whole.2 = .ok events → ∃ answers : List (List StreamEvent),
        parts.2 = answers.map .ok ∧
        answers.flatten = events ∧ parts.1.heard.text = whole.1.heard.text ∧
        parts.1.heard.completed = whole.1.heard.completed ∧ parts.1.kept = whole.1.kept := by
  intro whole parts
  have hkept : lineEnd ∉ ({} : Decoder).kept := List.not_mem_nil
  have hfault (fault : Fault) (h : whole.2 = .error fault) := pushes_of_error hkept h
  have hevents (events : List StreamEvent) (h : whole.2 = .ok events) :
      ∃ answers : List (List StreamEvent), parts = (whole.1, answers.map .ok) ∧
        answers.flatten = events :=
    pushes_of_ok hkept (Prod.ext rfl h)
  refine ⟨⟨?_, ?_⟩, hfault, ?_⟩
  · rintro ⟨fault, h⟩
    obtain ⟨before, after, hparts⟩ := hfault fault h
    exact ⟨fault, by rw [hparts]; simp⟩
  · rintro ⟨fault, hmem⟩
    cases h : whole.2 with
    | error other => exact ⟨other, rfl⟩
    | ok events =>
        obtain ⟨answers, hparts, -⟩ := hevents events h
        rw [hparts] at hmem
        simp at hmem
  · intro events h
    obtain ⟨answers, hparts, hflatten⟩ := hevents events h
    rw [hparts]
    exact ⟨answers, rfl, hflatten, rfl, rfl, rfl⟩

end Decoder

end Studio.Provider
