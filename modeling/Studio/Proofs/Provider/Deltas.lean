import Studio.Proofs.Provider.Chunks

/-!
# Deltas that are told and deltas that are lost

A decoder adds each delta to its text as it reads it (`Heard.gains_lines`), but a chunk that breaks
off at a fault is answered by the fault alone. The deltas that stand in front of the fault are in
the text and in no answer (`Decoder.gains_push`). So the text of a decoder is what it told exactly
if no chunk breaks off behind a delta (`Decoder.text_told_iff`).
-/

namespace Studio.Provider

/-- The text of a delta. -/
def StreamEvent.delta? : StreamEvent → Option String
  | .delta text => some text
  | .completed .. => none

/-- The deltas among events. -/
def deltas (events : List StreamEvent) : List String :=
  events.filterMap StreamEvent.delta?

/-- The deltas that an answer tells. A fault tells none. -/
def told : Except Fault (List StreamEvent) → List String
  | .ok events => deltas events
  | .error _ => []

/-- The deltas of two runs of events are those of each. -/
theorem deltas_append (first second : List StreamEvent) :
    deltas (first ++ second) = deltas first ++ deltas second :=
  List.filterMap_append ..

namespace Heard

/-! ### What is heard -/

/-- The text grew by deltas, none of which is empty. -/
structure Gains (heard next : Heard) (new : List String) : Prop where
  text : next.text = heard.text ++ String.join new
  nonempty : "" ∉ new

variable {heard next last : Heard}

/-- A text that stayed as it was gained nothing. -/
theorem gains_nil (h : next.text = heard.text) : Gains heard next [] :=
  ⟨h.trans String.append_empty.symm, List.not_mem_nil⟩

/-- What a text gained in two turns is what it gained in each. -/
theorem Gains.append {first second : List String} (hfirst : Gains heard next first)
    (hsecond : Gains next last second) : Gains heard last (first ++ second) := by
  refine ⟨?_, fun hmem => (List.mem_append.1 hmem).elim hfirst.nonempty hsecond.nonempty⟩
  rw [hsecond.text, hfirst.text, String.join_append, String.append_assoc]

/-- An event that ends the stream brings no delta. -/
theorem delta?_of_ending {value : Option Json} {event : StreamEvent}
    (h : heard.ending value = .ok event) : event.delta? = none := by
  unfold ending at h
  split at h
  · rw [← Except.ok.inj h]
    rfl
  · split at h
    · rw [← Except.ok.inj h]
      rfl
    · cases h

/-- Only a delta adds to the text, and an empty one is no event. -/
theorem gains_event (heard : Heard) (value : Json) : Gains heard (heard.event value).1
    (told ((heard.event value).2.map Option.toList)) := by
  unfold event
  dsimp only
  split
  · split
    · exact gains_nil rfl
    · next hpiece =>
      rw [String.isEmpty_iff] at hpiece
      refine ⟨?_, fun hmem => hpiece (List.mem_singleton.1 hmem).symm⟩
      exact congrArg (heard.text ++ ·) (String.join_cons.trans String.append_empty).symm
  · split
    · cases h : heard.ending (value.get? "response") with
      | error fault => exact gains_nil rfl
      | ok event =>
          have hnone : told (.ok [event]) = [] := by
            rw [told, deltas, List.filterMap_cons, delta?_of_ending h]
            rfl
          exact hnone.symm ▸ gains_nil rfl
    · split <;> exact gains_nil rfl

/-- A line adds to the text what it tells. -/
theorem gains_line (heard : Heard) (bytes : List UInt8) : Gains heard (heard.line bytes).1
    (told ((heard.line bytes).2.map Option.toList)) := by
  unfold line
  split
  · exact gains_nil rfl
  · split
    · exact gains_nil rfl
    · split
      · exact gains_nil rfl
      · exact gains_event heard _

/-- A line that carries an event is taken in as the event. -/
theorem line_of_payload (data : List Char) {bytes : List UInt8} {value : Json}
    (h : payload? bytes = some data) (hdata : data ∉ [[], "[DONE]".toList])
    (hvalue : Json.parse (String.ofList data) = .ok value) :
    heard.line bytes = heard.event value := by
  have hread : ¬ (data.isEmpty || data = "[DONE]".toList) = true := by simpa using hdata
  simp only [line, h, if_neg hread, hvalue]

/-- The deltas of lines up to the first fault. -/
def deltasOf (heard : Heard) : List (List UInt8) → List String
  | [] => []
  | first :: rest =>
    match heard.line first with
    | (_, .error _) => []
    | (next, .ok event) => deltas event.toList ++ next.deltasOf rest

/-- All deltas up to the first fault are in the text, whether there is a fault or not. -/
theorem gains_lines (heard : Heard) (items : List (List UInt8)) :
    Gains heard (heard.lines items).1 (heard.deltasOf items) := by
  induction items generalizing heard with
  | nil => exact gains_nil rfl
  | cons first rest ih =>
      have hfirst := gains_line heard first
      rw [lines, deltasOf]
      rcases hline : heard.line first with ⟨next, fault | event⟩ <;> rw [hline] at hfirst
      · exact hfirst
      · exact hfirst.append (ih next)

/-- Lines without a fault lead to all their deltas. -/
theorem deltas_of_read {heard next : Heard} {items : List (List UInt8)} {events : List StreamEvent}
    (h : heard.lines items = (next, .read events)) : deltas events = heard.deltasOf items := by
  induction items generalizing heard next events with
  | nil =>
      obtain ⟨-, ⟨⟩⟩ := Prod.mk.inj h
      rfl
  | cons first rest ih =>
      rw [lines] at h
      rw [deltasOf]
      rcases hline : heard.line first with ⟨between, fault | event⟩ <;> simp only [hline] at h
      · cases h
      · rcases hrest : between.lines rest with ⟨last, more | ⟨fault, behind⟩⟩ <;>
          simp only [hrest] at h
        · obtain ⟨-, ⟨⟩⟩ := Prod.mk.inj h
          rw [deltas_append, ih hrest]
        · cases h

end Heard

/-! ### What chunks tell -/

namespace Decoder

/-- The deltas that a chunk loses: if it breaks off, those of its lines in front of the fault. -/
def lost (decoder : Decoder) (chunk : List UInt8) : List String :=
  match (decoder.push chunk).2 with
  | .ok _ => []
  | .error _ => decoder.heard.deltasOf (splitLines (decoder.kept ++ chunk)).1

/-- The deltas that are lost while chunks are taken in one after another. -/
def lostBy (decoder : Decoder) : List (List UInt8) → List String
  | [] => []
  | chunk :: rest => decoder.lost chunk ++ (decoder.push chunk).1.lostBy rest

variable {decoder : Decoder} {chunk : List UInt8}

/-- A chunk is heard line by line, with what was kept in front of it. -/
theorem heard_push (decoder : Decoder) (chunk : List UInt8) : (decoder.push chunk).1.heard =
    (decoder.heard.lines (splitLines (decoder.kept ++ chunk)).1).1 := by
  unfold push
  dsimp only
  split
  · next h => rw [h]
  · next h => rw [h]

/-- Of each delta a chunk either tells or, where it breaks off, keeps silent. -/
theorem told_append_lost (decoder : Decoder) (chunk : List UInt8) :
    told (decoder.push chunk).2 ++ decoder.lost chunk =
      decoder.heard.deltasOf (splitLines (decoder.kept ++ chunk)).1 := by
  rw [lost]
  cases h : (decoder.push chunk).2 with
  | error fault => rfl
  | ok events =>
      obtain ⟨-, hread⟩ := push_eq_ok.1 (Prod.ext rfl h : decoder.push chunk = (_, .ok events))
      exact (List.append_nil _).trans (Heard.deltas_of_read hread)

/-- A chunk adds to the text what it tells and what it keeps silent. -/
theorem gains_push (decoder : Decoder) (chunk : List UInt8) :
    decoder.heard.Gains (decoder.push chunk).1.heard
      (told (decoder.push chunk).2 ++ decoder.lost chunk) := by
  rw [told_append_lost, heard_push]
  exact Heard.gains_lines ..

/-- No delta that is kept silent is empty. -/
theorem nonempty_lostBy (decoder : Decoder) (chunks : List (List UInt8)) :
    "" ∉ decoder.lostBy chunks := by
  induction chunks generalizing decoder with
  | nil => exact List.not_mem_nil
  | cons chunk rest ih =>
      intro hmem
      rcases List.mem_append.1 hmem with hmem | hmem
      · exact (gains_push decoder chunk).nonempty (List.mem_append_right _ hmem)
      · exact ih _ hmem

/-- Without losses, the text grows by what is told. -/
theorem text_of_lostBy {chunks : List (List UInt8)} (h : decoder.lostBy chunks = []) :
    (decoder.pushes chunks).1.heard.text =
      decoder.heard.text ++ String.join ((decoder.pushes chunks).2.flatMap told) := by
  induction chunks generalizing decoder with
  | nil => exact String.append_empty.symm
  | cons chunk rest ih =>
      obtain ⟨hlost, hrest⟩ := List.append_eq_nil_iff.1 h
      have hpush := (gains_push decoder chunk).text
      rw [hlost, List.append_nil] at hpush
      rw [pushes]
      dsimp only
      rw [ih hrest, hpush, List.flatMap_cons, String.join_append, String.append_assoc]

/-- The text has room for all that was told and all that was lost. -/
theorem length_text_pushes (decoder : Decoder) (chunks : List (List UInt8)) :
    (decoder.pushes chunks).1.heard.text.length = decoder.heard.text.length +
      (String.join ((decoder.pushes chunks).2.flatMap told)).length +
      (String.join (decoder.lostBy chunks)).length := by
  induction chunks generalizing decoder with
  | nil => rfl
  | cons chunk rest ih =>
      have hpush := congrArg String.length (gains_push decoder chunk).text
      simp only [String.join_append, String.length_append] at hpush
      simp only [pushes, lostBy, List.flatMap_cons, String.join_append, String.length_append, ih,
        hpush]
      omega

/-- With every chunk the text grows by the deltas that the chunk tells and those that it loses. So
it is the text that all chunks told exactly if none was lost, that is, if no chunk breaks off at a
fault behind a delta. -/
theorem text_told_iff (chunks : List (List UInt8)) :
    (∀ (decoder : Decoder) (chunk : List UInt8), (decoder.push chunk).1.heard.text =
        decoder.heard.text ++ String.join (told (decoder.push chunk).2 ++ decoder.lost chunk)) ∧
      ((pushes {} chunks).1.heard.text = String.join ((pushes {} chunks).2.flatMap told) ↔
        lostBy {} chunks = []) := by
  refine ⟨fun decoder chunk => (gains_push decoder chunk).text, fun h => ?_, fun h => ?_⟩
  · have hlength := length_text_pushes {} chunks
    rw [h] at hlength
    have hlost : (String.join (lostBy {} chunks)).length = 0 := by
      have hstart : ({} : Decoder).heard.text.length = 0 := rfl
      omega
    rw [String.length_join] at hlost
    refine List.eq_nil_iff_forall_not_mem.2 fun delta hmem => nonempty_lostBy {} chunks ?_
    have hempty := List.sum_eq_zero_iff_forall_eq_nat.1 hlost _ (List.mem_map_of_mem hmem)
    obtain rfl := String.length_eq_zero_iff.1 hempty
    exact hmem
  · exact (text_of_lostBy h).trans String.empty_append

/-- The delta in front of an error is in the text, and no answer tells it. -/
theorem told_ne_text :
    let delta := "data: \x7b\"type\":\"response.output_text.delta\",\"delta\":\"track(\"\x7d\n"
    let error := "data: \x7b\"type\":\"error\",\"message\":\"busy\"\x7d\n"
    let decoded := pushes {} [(delta ++ error).toUTF8.data.toList]
    decoded.2 = [.error (.remote "busy")] ∧ decoded.1.heard.text = "track(" ∧
      String.join (decoded.2.flatMap told) = "" := by
  intro delta error decoded
  have hsplit : splitLines (delta ++ error).toUTF8.data.toList =
      ([delta.toUTF8.data.toList, error.toUTF8.data.toList], []) := by decide +kernel
  have hdelta (heard : Heard) : heard.line delta.toUTF8.data.toList = heard.event
      (.object [("delta", .string "track("), ("type", .string "response.output_text.delta")]) :=
    Heard.line_of_payload
      "\x7b\"type\":\"response.output_text.delta\",\"delta\":\"track(\"\x7d".toList
      (by decide +kernel) (by decide) (by cbv)
  have herror (heard : Heard) : heard.line error.toUTF8.data.toList = heard.event
      (.object [("message", .string "busy"), ("type", .string "error")]) :=
    Heard.line_of_payload "\x7b\"type\":\"error\",\"message\":\"busy\"\x7d".toList
      (by decide +kernel) (by decide) (by cbv)
  have hpush : push {} (delta ++ error).toUTF8.data.toList =
      (⟨[], ⟨"track(", false⟩⟩, .error (.remote "busy")) := by
    rw [push, List.nil_append, hsplit]
    simp only [Heard.lines, hdelta, herror]
    rfl
  have hpushes : decoded = (⟨[], ⟨"track(", false⟩⟩, [.error (.remote "busy")]) := by
    simp only [decoded, pushes, hpush]
  rw [hpushes]
  exact ⟨rfl, rfl, rfl⟩

end Decoder

end Studio.Provider
