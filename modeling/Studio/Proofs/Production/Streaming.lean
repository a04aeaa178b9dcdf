import Studio.Production.Performance
import Studio.Proofs.Production.Replies

/-!
# Performing live and at once

A script that comes piece by piece leads to what it leads to as a whole, wherever it is cut
(`performLive_agrees`). The invariant is `Live.Faithful`: what was handed on is what the text up to
some line end amounts to. Such a part of the text opens the script in the reply, so the actions that
were handed on are those that the script begins with.
-/

namespace Studio

open Provider (StreamEvent Usage)
open Script (Yields)
open Session (Snapshot)

/-- The events of a text that comes in pieces. -/
def Provider.pieceEvents (pieces : List (Delayed String)) : Provider.Stream :=
  pieces.map (Delayed.map fun piece => .ok (.delta piece))

/-- Without a cancellation, nothing is cancelled before it starts. -/
@[simp] theorem Cancellation.never_fired (time count : Nat) :
    Cancellation.never.fired time count = false := rfl

/-- Without a cancellation, nothing is cut off. -/
@[simp] theorem Cancellation.never_cuts (time count : Nat) :
    Cancellation.never.cuts time count = false := rfl

namespace Production.Live

variable {capability : Capability} {snapshot : Snapshot}

/-- What was handed on is what the text up to some line end amounts to. -/
def Faithful (capability : Capability) (snapshot : Snapshot) (live : Live) : Prop :=
  live.sent = [] ∨ ∃ lines, lines ++ ['\n'] <+: live.text.toList ∧
    Yields capability snapshot (lines ++ ['\n']) (live.sent.map Prod.snd)

/-- A piece is added to the text that was heard. -/
theorem text_hear (time : Nat) (live : Live) (piece : String) :
    (live.hear capability snapshot time piece).text = live.text ++ piece := by
  unfold hear
  dsimp only
  split <;> rfl

/-- Handing on the actions behind those that were handed on completes these. -/
theorem map_snd_append_drop (time : Nat) {sent : List (Nat × Action)} {actions : List Action}
    (h : sent.map Prod.snd <+: actions) :
    (sent ++ (actions.drop sent.length).map fun action => (time, action)).map Prod.snd =
      actions := by
  obtain ⟨more, rfl⟩ := h
  simp [Function.comp_def]

/-- Hearing one more piece keeps the invariant. The lines that were complete before may be more than
those that can be carried out now; then nothing is handed on. -/
theorem Faithful.hear {live : Live} (h : live.Faithful capability snapshot) (time : Nat)
    (piece : String) : (live.hear capability snapshot time piece).Faithful capability snapshot := by
  have hgrown : live.text.toList <+: (live.text ++ piece).toList := by
    rw [String.toList_append]
    exact List.prefix_append _ _
  unfold Live.hear
  dsimp only
  cases hreceived : Script.interpretReceived capability snapshot (live.text ++ piece) with
  | none => exact h.imp_right fun ⟨lines, hlines, hyields⟩ => ⟨lines, hlines.trans hgrown, hyields⟩
  | some actions =>
      obtain ⟨lines, hlines, hyields, hlast⟩ := Script.yields_of_interpretReceived hreceived
      have hsent : live.sent.map Prod.snd <+: actions := by
        rcases h with hnone | ⟨earlier, hearlier, hsent⟩
        · rw [hnone]
          exact List.nil_prefix
        · exact Script.prefix_of_yields (hlast earlier (hearlier.trans hgrown)) hsent hyields
      refine .inr ⟨lines, hlines, ?_⟩
      rw [map_snd_append_drop time hsent]
      exact hyields

/-- The lines in front of a line end, as a script. -/
theorem Faithful.script {live : Live} (h : live.Faithful capability snapshot)
    (hsent : live.sent ≠ []) : ∃ lines : String, ∃ program state,
      (lines ++ "\n").toList <+: live.text.toList ∧
      Script.parse (lines ++ "\n") = .ok program ∧
      Script.execute capability snapshot program = .ok state ∧
      state.actions = live.sent.map Prod.snd := by
  rcases h with hnone | ⟨lines, hlines, program, state, hread, hrun, hactions⟩
  · exact absurd hnone hsent
  have htext : (String.ofList lines ++ "\n").toList = lines ++ ['\n'] := by simp
  refine ⟨String.ofList lines, program, state, ?_, ?_, hrun, hactions⟩
  · rw [htext]
    exact hlines
  · rw [Script.parse_eq_ok, htext]
    exact hread

/-- Hear pieces one after another from a time on; the first part is when the last one was heard. -/
def hearAll (capability : Capability) (snapshot : Snapshot) (time : Nat) (live : Live) :
    List (Delayed String) → Nat × Live
  | [] => (time, live)
  | piece :: rest =>
    let due := time + piece.wait
    hearAll capability snapshot due (live.hear capability snapshot due piece.value) rest

/-- Pieces are heard one run behind the other. -/
theorem hearAll_append (time : Nat) (live : Live) (first second : List (Delayed String)) :
    live.hearAll capability snapshot time (first ++ second) =
      (live.hearAll capability snapshot time first).2.hearAll capability snapshot
        (live.hearAll capability snapshot time first).1 second := by
  induction first generalizing time live with
  | nil => rfl
  | cons piece rest ih => exact ih _ _

/-- The text that was heard is that of all pieces. -/
theorem text_hearAll (time : Nat) (live : Live) (pieces : List (Delayed String)) :
    (live.hearAll capability snapshot time pieces).2.text.toList =
      live.text.toList ++ pieces.flatMap (·.value.toList) := by
  induction pieces generalizing time live with
  | nil => simp [hearAll]
  | cons piece rest ih =>
      rw [hearAll, ih, text_hear, String.toList_append, List.flatMap_cons, List.append_assoc]

/-- What was handed on stays faithful over all pieces. -/
theorem Faithful.hearAll {live : Live} (h : live.Faithful capability snapshot) (time : Nat)
    (pieces : List (Delayed String)) :
    (live.hearAll capability snapshot time pieces).2.Faithful capability snapshot := by
  induction pieces generalizing time live with
  | nil => exact h
  | cons piece rest ih => exact ih (h.hear _ piece.value) _

/-- A piece that is not cut off is heard. -/
theorem listen_piece {cancellation : Cancellation} {time : Nat} {live : Live}
    {piece : Delayed String}
    (h : cancellation.cuts (time + piece.wait) live.sent.length = false)
    (rest : List (Delayed String)) (later : Provider.Stream) :
    listen capability snapshot cancellation time live
        (Provider.pieceEvents (piece :: rest) ++ later) =
      listen capability snapshot cancellation (time + piece.wait)
        (live.hear capability snapshot (time + piece.wait) piece.value)
        (Provider.pieceEvents rest ++ later) := by
  show listen capability snapshot cancellation time live
    (⟨piece.wait, .ok (.delta piece.value)⟩ :: (Provider.pieceEvents rest ++ later)) = _
  rw [listen, if_neg (by simp [h])]

/-- Listening to pieces without a cancellation hears all of them. -/
theorem listen_pieces (time : Nat) (live : Live) (pieces : List (Delayed String))
    (later : Provider.Stream) :
    listen capability snapshot .never time live (Provider.pieceEvents pieces ++ later) =
      listen capability snapshot .never (live.hearAll capability snapshot time pieces).1
        (live.hearAll capability snapshot time pieces).2 later := by
  induction pieces generalizing time live with
  | nil => rfl
  | cons piece rest ih =>
      rw [listen_piece (Cancellation.never_cuts _ _)]
      exact ih _ _

end Production.Live

namespace Composer

open Production (Fault Live Ending Receipt)

variable {composer : Composer} {commission : Commission}

/-- A structural composer finishes every interpretation. -/
theorem finish_of_structural (hcapability : composer.capability = .daw) (receipt : Receipt)
    (interpretation : Script.Interpretation) : ∃ production,
      composer.finish receipt interpretation = .ok production ∧
      production.actions = interpretation.actions ∧
      production.diagnostics.notices = interpretation.notices := by
  rw [finish, hcapability]
  exact ⟨_, rfl, rfl, rfl⟩

/-- A performance that is not cancelled comes to what the reply amounts to. -/
theorem perform_outcome (hcancellation : commission.cancellation = .never) {reply : Provider.Reply}
    (hreply : (composer.provider.reply
      (composer.call commission.request commission.snapshot)).value = .ok reply) :
    (composer.perform commission).outcome = composer.ofReply commission.snapshot reply := by
  obtain ⟨request, snapshot, start, cancellation⟩ := commission
  obtain rfl : cancellation = .never := hcancellation
  dsimp only at hreply ⊢
  simp [perform, hreply]

section

variable {pieces : List (Delayed String)} {text : String} {usage : Option Usage} {wait : Nat}
  {later : Provider.Stream} (hcancellation : commission.cancellation = .never)
  (hstream : (composer.provider.stream
    (composer.call commission.request commission.snapshot)).value =
      .ok (Provider.pieceEvents pieces ++ ⟨wait, .ok (.completed text usage)⟩ :: later))
include hcancellation hstream

variable (composer commission) in
/-- A live performance hears all pieces, and comes to what the completed text amounts to then. -/
theorem performLive_eq_conclude :
    let opened := commission.start + (composer.provider.stream
      (composer.call commission.request commission.snapshot)).wait
    let heard := Live.hearAll composer.capability commission.snapshot opened {} pieces
    ((composer.performLive commission).handed, (composer.performLive commission).outcome) =
      composer.conclude commission.snapshot heard.2 (heard.1 + wait) (.completed text usage) := by
  obtain ⟨request, snapshot, start, cancellation⟩ := commission
  obtain rfl : cancellation = .never := hcancellation
  dsimp only at hstream ⊢
  simp [performLive, hstream, Live.listen_pieces, Live.listen]

/-- What is heard of a text in pieces and its end decides how a live performance ends. -/
theorem performLive_of_pieces :
    ∃ time live, live.text.toList = pieces.flatMap (·.value.toList) ∧
      live.Faithful composer.capability commission.snapshot ∧
      ((composer.performLive commission).handed, (composer.performLive commission).outcome) =
        composer.conclude commission.snapshot live time (.completed text usage) := by
  refine ⟨_, _, ?_, ?_, performLive_eq_conclude composer commission hcancellation hstream⟩
  · simp [Live.text_hearAll]
  · exact Live.Faithful.hearAll (.inl rfl) _ _

end

section

variable {snapshot : Snapshot} {live : Live} {text : String}
  {fault : Fault} {interpretation : Script.Interpretation}

/-- A composer interprets a text as a script of its capability. -/
theorem interpret_eq_ok :
    composer.interpret text snapshot = .ok interpretation ↔
      Script.interpret composer.capability snapshot text = .ok interpretation := by
  unfold interpret
  cases Script.interpret composer.capability snapshot text with
  | error fault => simp [Except.mapError]
  | ok found => simp [Except.mapError]

/-- A reply whose script cannot be interpreted fails with the fault of that. -/
theorem ofReply_of_fault (reply : Provider.Reply)
    (h : composer.interpret (Production.scriptOf reply.text) snapshot = .error fault) :
    composer.ofReply snapshot reply = .error fault := by
  simp only [ofReply, h]
  rfl

/-- A reply of structural actions comes to the actions and notices of its script. -/
theorem ofReply_of_interpretation (hcapability : composer.capability = .daw)
    (reply : Provider.Reply)
    (h : composer.interpret (Production.scriptOf reply.text) snapshot = .ok interpretation) :
    ∃ production, composer.ofReply snapshot reply = .ok production ∧
      production.actions = interpretation.actions ∧
      production.diagnostics.notices = interpretation.notices := by
  simp only [ofReply, h]
  exact finish_of_structural hcapability _ interpretation

/-- A reply that can be carried out completes the actions that were handed on. -/
theorem conclude_of_interpretation (hcapability : composer.capability = .daw)
    (hlive : live.Faithful composer.capability snapshot) (htext : live.text.toList = text.toList)
    (h : composer.interpret (Production.scriptOf text) snapshot = .ok interpretation)
    (time : Nat) (usage : Option Usage) : ∃ handed production,
      composer.conclude snapshot live time (.completed text usage) = (handed, .ok production) ∧
      handed.map Prod.snd = interpretation.actions ∧
      production.actions = interpretation.actions ∧
      production.diagnostics.notices = interpretation.notices := by
  have hsent : live.sent.map Prod.snd <+: interpretation.actions := by
    rcases hlive with hnone | ⟨lines, hlines, hyields⟩
    · rw [hnone]
      exact List.nil_prefix
    · rw [htext] at hlines
      exact Production.prefix_of_interpret hlines hyields (interpret_eq_ok.1 h)
  obtain ⟨production, hfinish, hproduction⟩ := finish_of_structural hcapability
    { script := Production.scriptOf text, usage, streamed := true } interpretation
  refine ⟨_, production, ?_, Live.map_snd_append_drop time hsent, hproduction⟩
  simp only [conclude, h, hfinish]

/-- A reply that cannot be carried out keeps the actions that were handed on, if there are any. -/
theorem conclude_of_fault (hcapability : composer.capability = .daw)
    (h : composer.interpret (Production.scriptOf text) snapshot = .error fault)
    (time : Nat) (usage : Option Usage) :
    live.sent = [] ∧
        composer.conclude snapshot live time (.completed text usage) = ([], .error fault) ∨
      live.sent ≠ [] ∧ ∃ production,
        composer.conclude snapshot live time (.completed text usage) = (live.sent, .ok production) ∧
        production.actions = live.sent.map Prod.snd ∧
        ∃ reason, production.diagnostics.notices = [.truncated live.sent.length reason] := by
  by_cases hsent : live.sent = []
  · exact .inl ⟨hsent, by simp [conclude, h, hsent]⟩
  · refine .inr ⟨hsent, ?_⟩
    obtain ⟨production, hfinish, hactions, hnotices⟩ := finish_of_structural hcapability
      { script := Production.scriptOf text, usage, streamed := true }
      ⟨live.sent.map Prod.snd, truncation live (fault.message composer.capability)⟩
    refine ⟨production, ?_, hactions, _, hnotices⟩
    simp [conclude, h, hsent, keepSent, hfinish]

end

/-- A structural script that comes in pieces, wherever it is cut, leads to what it leads to as a
whole. If that is a production, all of its actions are handed on, each once and in order. If not,
either nothing is handed on and the fault is the same, or what was handed on is kept: the actions of
the text up to some line end, with a notice that they are all. -/
theorem performLive_agrees (composer : Composer) (commission : Commission) {model text : String}
    {usage streamUsage : Option Usage} {pieces : List (Delayed String)} {wait : Nat}
    {later : Provider.Stream}
    (hcapability : composer.capability = .daw) (hcancellation : commission.cancellation = .never)
    (hreply : (composer.provider.reply
      (composer.call commission.request commission.snapshot)).value = .ok ⟨model, text, usage⟩)
    (hstream : (composer.provider.stream
      (composer.call commission.request commission.snapshot)).value =
        .ok (Provider.pieceEvents pieces ++ ⟨wait, .ok (.completed text streamUsage)⟩ :: later))
    (hpieces : pieces.flatMap (·.value.toList) = text.toList) :
    (∀ whole, (composer.perform commission).outcome = .ok whole →
      ∃ production, (composer.performLive commission).outcome = .ok production ∧
        production.actions = whole.actions ∧
        production.diagnostics.notices = whole.diagnostics.notices ∧
        (composer.performLive commission).handed.map Prod.snd = whole.actions) ∧
    (∀ fault, (composer.perform commission).outcome = .error fault →
      (composer.performLive commission).outcome = .error fault ∧
          (composer.performLive commission).handed = [] ∨
        ∃ production, (composer.performLive commission).outcome = .ok production ∧
          production.actions ≠ [] ∧
          (composer.performLive commission).handed.map Prod.snd = production.actions ∧
          (∃ lines : String, ∃ program state, (lines ++ "\n").toList <+: text.toList ∧
            Script.parse (lines ++ "\n") = .ok program ∧
            Script.execute .daw commission.snapshot program = .ok state ∧
            state.actions = production.actions) ∧
          ∃ reason, production.diagnostics.notices =
            [.truncated production.actions.length reason]) := by
  obtain ⟨time, live, htext, hlive, hconclude⟩ := performLive_of_pieces hcancellation hstream
  rw [hpieces] at htext
  rw [perform_outcome hcancellation hreply]
  cases hinterpret : composer.interpret (Production.scriptOf text) commission.snapshot with
  | ok interpretation =>
      obtain ⟨whole, hwhole, hactions, hnotices⟩ :=
        ofReply_of_interpretation hcapability ⟨model, text, usage⟩ hinterpret
      obtain ⟨handed, production, hend, hhanded, hproduction, hsame⟩ :=
        conclude_of_interpretation hcapability hlive htext hinterpret time streamUsage
      rw [← hconclude] at hend
      obtain ⟨rfl, houtcome⟩ := Prod.mk.inj hend
      rw [hwhole]
      refine ⟨fun _ h => ?_, fun _ h => by simp at h⟩
      obtain rfl := Except.ok.inj h
      exact ⟨production, houtcome, hproduction.trans hactions.symm, hsame.trans hnotices.symm,
        hhanded.trans hactions.symm⟩
  | error fault =>
      rw [ofReply_of_fault ⟨model, text, usage⟩ hinterpret]
      refine ⟨fun _ h => by simp at h, ?_⟩
      intro _ h
      obtain rfl := Except.error.inj h
      -- Either nothing was handed on, or what was handed on is kept.
      rcases conclude_of_fault hcapability hinterpret time streamUsage with
          ⟨-, hend⟩ | ⟨hsent, production, hend, hactions, hnotices⟩
      · rw [← hconclude] at hend
        exact .inl (Prod.mk.inj hend).symm
      · rw [← hconclude] at hend
        obtain ⟨hhanded, houtcome⟩ := Prod.mk.inj hend
        obtain ⟨lines, program, state, hlines, hparse, hrun, hyields⟩ := hlive.script hsent
        rw [htext] at hlines
        rw [hcapability] at hrun
        obtain ⟨reason, hnotices⟩ := hnotices
        have hlength : live.sent.length = production.actions.length := by
          rw [hactions, List.length_map]
        refine .inr ⟨production, houtcome, ?_, ?_,
          ⟨lines, program, state, hlines, hparse, hrun, hyields.trans hactions.symm⟩, reason, ?_⟩
        · rw [hactions]
          intro h
          exact hsent (List.map_eq_nil_iff.1 h)
        · rw [hhanded, hactions]
        · rw [hnotices, hlength]

/-- A structural composer whose provider always gives the same text, at once or in pieces. -/
def reciting (text : String) (pieces : List String) : Composer where
  capability := .daw
  model := "reciting"
  provider := {
    name := "reciting"
    reply := fun _ => .now (.ok ⟨"reciting", text, none⟩)
    stream := fun _ => .now (.ok
      (Provider.pieceEvents (pieces.map .now) ++ [.now (.ok (.completed text none))])) }

/-- A chain that goes on behind a line end is heard in two parts. -/
theorem performLive_agrees_chain :
    let composer := reciting "track(name=\"Bass\")\n.add_midi()" ["track(na", "me=\"Bass\")\n.a",
      "dd_midi()"]
    let commission : Commission := { request := "Add a bass", snapshot := {} }
    ∃ whole production, (composer.perform commission).outcome = .ok whole ∧
      (composer.performLive commission).outcome = .ok production ∧
      production.actions = whole.actions ∧
      production.diagnostics.notices = whole.diagnostics.notices ∧
      (composer.performLive commission).handed.map Prod.snd = whole.actions := by
  intro composer commission
  have hparse : Script.parse (Production.scriptOf "track(name=\"Bass\")\n.add_midi()") =
      .ok [⟨⟨"track", [⟨some "name", .string "Bass"⟩]⟩, [⟨"add_midi", []⟩]⟩] := by
    cbv
  obtain ⟨interpretation, hinterpret⟩ : ∃ interpretation,
      composer.interpret (Production.scriptOf "track(name=\"Bass\")\n.add_midi()") {} =
        .ok interpretation := by
    simp only [interpret, Script.interpret, hparse]
    exact ⟨_, rfl⟩
  obtain ⟨whole, hwhole, -⟩ := ofReply_of_interpretation rfl
    ⟨"reciting", "track(name=\"Bass\")\n.add_midi()", none⟩ hinterpret
  replace hwhole : (composer.perform commission).outcome = .ok whole :=
    (perform_outcome rfl rfl).trans hwhole
  let pieces : List (Delayed String) :=
    [.now "track(na", .now "me=\"Bass\")\n.a", .now "dd_midi()"]
  have hpieces : pieces.flatMap (·.value.toList) = "track(name=\"Bass\")\n.add_midi()".toList := by
    decide
  obtain ⟨production, hlive⟩ :=
    (performLive_agrees composer commission rfl rfl rfl rfl hpieces).1 whole hwhole
  exact ⟨whole, production, hwhole, hlive⟩

end Composer

end Studio
