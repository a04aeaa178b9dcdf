import Mathlib.Data.List.Induction
import Studio.Proofs.Production.Streaming
import Studio.Provider.EventStream

/-!
# Streams that complete another text

A stream completes a text of its own, which need not be that of its pieces. What was handed on by
then is the most that the pieces so far amount to (`Live.Received`), and it is not taken back. So
the actions of a production are those that were handed on exactly if the completed script begins
with all that was received of the pieces (`performLive_handed_iff`).
-/

namespace Studio

open Script (interpretReceived)
open Session (Snapshot)

namespace Provider

/-- The pieces with which a stream begins. -/
def pieces : Stream → List (Delayed String)
  | ⟨wait, .ok (.delta piece)⟩ :: rest => ⟨wait, piece⟩ :: pieces rest
  | _ => []

/-- The text that a stream completes behind its pieces, unless it fails or ends there. -/
def completion? : Stream → Option String
  | ⟨_, .ok (.delta _)⟩ :: rest => completion? rest
  | ⟨_, .ok (.completed text _)⟩ :: _ => some text
  | _ => none

/-- The text of pieces. -/
def pieceText (pieces : List (Delayed String)) : String :=
  String.ofList (pieces.flatMap (·.value.toList))

/-- The text of pieces is theirs one behind the other. -/
theorem toList_pieceText (pieces : List (Delayed String)) :
    (pieceText pieces).toList = pieces.flatMap (·.value.toList) := by
  simp [pieceText]

/-- The text of the first pieces begins the text of all. -/
theorem toList_pieceText_prefix {front pieces : List (Delayed String)} (h : front <+: pieces) :
    (pieceText front).toList <+: (pieceText pieces).toList := by
  obtain ⟨rest, rfl⟩ := h
  rw [toList_pieceText, toList_pieceText, List.flatMap_append]
  exact List.prefix_append _ _

end Provider

open Provider (pieceText)

namespace Production

/-- The text that an ending completes. -/
def Ending.text? : Ending → Option String
  | .completed text _ => some text
  | _ => none

namespace Live

variable {capability : Capability} {snapshot : Snapshot}

/-- What was handed on is the most that any of the pieces so far amount to. -/
structure Received (capability : Capability) (snapshot : Snapshot)
    (pieces : List (Delayed String)) (live : Live) : Prop where
  text : live.text = pieceText pieces
  attained : live.sent = [] ∨ ∃ front, front <+: pieces ∧
    interpretReceived capability snapshot (pieceText front) = some (live.sent.map Prod.snd)
  most : ∀ front actions, front <+: pieces →
    interpretReceived capability snapshot (pieceText front) = some actions →
      actions <+: live.sent.map Prod.snd

/-- Before any piece, nothing was received. -/
theorem received_start (capability : Capability) (snapshot : Snapshot) :
    Received capability snapshot [] {} where
  text := rfl
  attained := .inl rfl
  most := by
    intro front actions hfront hreceived
    -- Without a piece there is no line end.
    obtain rfl := List.prefix_nil.1 hfront
    cases hreceived

/-- One more piece leads to more, or it is only kept for later. -/
theorem Received.hear {pieces : List (Delayed String)} {live : Live}
    (h : live.Received capability snapshot pieces) (time : Nat) (piece : Delayed String) :
    (live.hear capability snapshot time piece.value).Received capability snapshot
      (pieces ++ [piece]) := by
  have htext : live.text ++ piece.value = pieceText (pieces ++ [piece]) := by
    rw [h.text, ← String.toList_inj]
    simp [Provider.toList_pieceText]
  have hgrown {front : List (Delayed String)} (hfront : front <+: pieces) :
      (pieceText front).toList <+: (pieceText (pieces ++ [piece])).toList :=
    Provider.toList_pieceText_prefix (hfront.trans (List.prefix_append _ _))
  cases hreceived : interpretReceived capability snapshot (live.text ++ piece.value) with
  | none =>
      have hhear : live.hear capability snapshot time piece.value =
          { live with text := live.text ++ piece.value } := by
        simp only [Live.hear, hreceived]
      rw [hhear]
      refine ⟨htext, ?_, ?_⟩
      · rcases h.attained with hnone | ⟨front, hfront, hsent⟩
        · exact .inl hnone
        · exact .inr ⟨front, hfront.trans (List.prefix_append _ _), hsent⟩
      · intro front actions hfront hactions
        rcases List.prefix_concat_iff.1 hfront with rfl | hfront
        · rw [← htext, hreceived] at hactions
          cases hactions
        · exact h.most front actions hfront hactions
  | some actions =>
      have hsent : live.sent.map Prod.snd <+: actions := by
        rcases h.attained with hnone | ⟨front, hfront, hsent⟩
        · rw [hnone]
          exact List.nil_prefix
        · rw [htext] at hreceived
          exact Script.prefix_of_interpretReceived (hgrown hfront) hsent hreceived
      have hall := map_snd_append_drop time hsent
      simp only [Live.hear, hreceived]
      refine ⟨htext, .inr ⟨pieces ++ [piece], List.prefix_refl _, ?_⟩, ?_⟩
      · rw [← htext, hreceived, hall]
      · intro front other hfront hother
        rw [hall]
        rcases List.prefix_concat_iff.1 hfront with rfl | hfront
        · rw [← htext, hreceived] at hother
          obtain rfl := Option.some.inj hother
          exact List.prefix_refl _
        · exact (h.most front other hfront hother).trans hsent

/-- All pieces are received once they have been heard. -/
theorem received_hearAll (capability : Capability) (snapshot : Snapshot) (time : Nat)
    (pieces : List (Delayed String)) :
    (Live.hearAll capability snapshot time {} pieces).2.Received capability snapshot pieces := by
  induction pieces using List.reverseRecOn with
  | nil => exact received_start capability snapshot
  | append_singleton pieces piece ih =>
      rw [hearAll_append]
      exact ih.hear _ piece

variable (capability snapshot) in
/-- Listening without a cancellation hears the pieces of a stream and ends as the stream does. -/
theorem listen_never (time : Nat) (live : Live) (events : Provider.Stream) : ∃ stop ending,
    listen capability snapshot .never time live events =
        ((live.hearAll capability snapshot time (Provider.pieces events)).2, stop, ending) ∧
      ending.text? = Provider.completion? events := by
  induction events generalizing time live with
  | nil => exact ⟨time, .silent, by simp [listen, Provider.pieces, hearAll], rfl⟩
  | cons event rest ih =>
      obtain ⟨wait, outcome⟩ := event
      cases outcome with
      | error fault =>
          exact ⟨time + wait, .failed fault, by simp [listen, Provider.pieces, hearAll], rfl⟩
      | ok event =>
          cases event with
          | delta piece =>
              obtain ⟨stop, ending, hlisten, hending⟩ :=
                ih (time + wait) (live.hear capability snapshot (time + wait) piece)
              refine ⟨stop, ending, ?_, hending⟩
              rw [Provider.pieces, hearAll, ← hlisten]
              simp [listen]
          | completed text usage =>
              exact ⟨time + wait, .completed text usage,
                by simp [listen, Provider.pieces, hearAll], rfl⟩

/-- Handing on the actions behind as many as were handed on completes these only if they are in
front. -/
theorem map_snd_append_drop_iff (time : Nat) (sent : List (Nat × Action)) (actions : List Action) :
    (sent ++ (actions.drop sent.length).map fun action => (time, action)).map Prod.snd = actions ↔
      sent.map Prod.snd <+: actions := by
  refine ⟨fun h => ?_, map_snd_append_drop time⟩
  rw [List.map_append] at h
  exact ⟨_, h⟩

end Live

end Production

namespace Composer

open Production (Live Ending Receipt)

variable {composer : Composer} {commission : Commission} {production : Production}

/-- What is kept of a live performance are the actions that were handed on. -/
theorem actions_of_keepSent {live : Live} {receipt : Receipt} {notices : List Script.Notice}
    (h : composer.keepSent live receipt notices = .ok production) :
    production.actions = live.sent.map Prod.snd := by
  unfold keepSent at h
  split at h
  · cases h
  · exact (finish_actions h).1

/-- What was handed on in the end is the production, unless a completed script that can be carried
out does not begin with what was handed on while listening. -/
theorem conclude_handed_iff {snapshot : Snapshot} {live : Live} {time : Nat} {ending : Ending}
    {handed : List (Nat × Action)}
    (h : composer.conclude snapshot live time ending = (handed, .ok production)) :
    handed.map Prod.snd = production.actions ↔ ∀ text interpretation, ending.text? = some text →
      composer.interpret (Production.scriptOf text) snapshot = .ok interpretation →
        live.sent.map Prod.snd <+: interpretation.actions := by
  have hkept {receipt : Receipt} {notices : List Script.Notice}
      (h : (live.sent, composer.keepSent live receipt notices) = (handed, .ok production)) :
      handed.map Prod.snd = production.actions := by
    obtain ⟨rfl, hkeep⟩ := Prod.mk.inj h
    exact (actions_of_keepSent hkeep).symm
  cases ending with
  | cancelled | silent => exact iff_of_true (hkept h) nofun
  | failed fault =>
      refine iff_of_true ?_ nofun
      simp only [conclude] at h
      split at h
      · cases h
      · exact hkept h
  | completed text usage =>
      simp only [conclude] at h
      split at h
      · next fault hinterpret =>
        refine iff_of_true ?_ ?_
        · split at h
          · cases h
          · exact hkept h
        · intro other interpretation htext hother
          obtain rfl := Option.some.inj htext
          cases hinterpret.symm.trans hother
      · next interpretation hinterpret =>
        obtain ⟨rfl, hfinish⟩ := Prod.mk.inj h
        rw [(finish_actions hfinish).1, Live.map_snd_append_drop_iff]
        constructor
        · intro hsent other found htext hfound
          obtain rfl := Option.some.inj htext
          obtain rfl := Except.ok.inj (hinterpret.symm.trans hfound)
          exact hsent
        · exact fun hall => hall text interpretation rfl hinterpret

/-- Without a cancellation, the pieces of a stream and its completion decide how a live performance
ends. -/
theorem performLive_of_stream (hcancellation : commission.cancellation = .never)
    {events : Provider.Stream}
    (hstream : (composer.provider.stream
      (composer.call commission.request commission.snapshot)).value = .ok events) :
    ∃ live time ending,
      live.Received composer.capability commission.snapshot (Provider.pieces events) ∧
      ending.text? = Provider.completion? events ∧
      ((composer.performLive commission).handed, (composer.performLive commission).outcome) =
        composer.conclude commission.snapshot live time ending := by
  obtain ⟨request, snapshot, start, cancellation⟩ := commission
  obtain rfl : cancellation = .never := hcancellation
  dsimp only at hstream ⊢
  let opened := start + (composer.provider.stream (composer.call request snapshot)).wait
  obtain ⟨stop, ending, hlisten, hending⟩ :=
    Live.listen_never composer.capability snapshot opened {} events
  refine ⟨_, stop, ending, Live.received_hearAll composer.capability snapshot opened _, hending, ?_⟩
  simp [performLive, hstream, hlisten, opened]

/-- When the completed text can be carried out, its actions behind as many as were handed on are
handed on. -/
theorem performLive_of_interpretation (composer : Composer) (commission : Commission)
    (hcapability : composer.capability = .daw)
    (hcancellation : commission.cancellation = .never) {pieces : List (Delayed String)}
    {text : String} {usage : Option Provider.Usage} {wait : Nat} {later : Provider.Stream}
    (hstream : (composer.provider.stream
      (composer.call commission.request commission.snapshot)).value =
        .ok (Provider.pieceEvents pieces ++ ⟨wait, .ok (.completed text usage)⟩ :: later))
    {interpretation : Script.Interpretation}
    (hinterpret : composer.interpret (Production.scriptOf text) commission.snapshot =
      .ok interpretation) :
    let opened := commission.start + (composer.provider.stream
      (composer.call commission.request commission.snapshot)).wait
    let sent := (Live.hearAll composer.capability commission.snapshot opened {} pieces).2.sent
    ∃ production, (composer.performLive commission).outcome = .ok production ∧
      production.actions = interpretation.actions ∧
      (composer.performLive commission).handed.map Prod.snd =
        sent.map Prod.snd ++ interpretation.actions.drop sent.length := by
  intro opened sent
  have hconclude := performLive_eq_conclude composer commission hcancellation hstream
  obtain ⟨production, hfinish, hactions, -⟩ := finish_of_structural hcapability
    { script := Production.scriptOf text, usage, streamed := true } interpretation
  simp only [conclude, hinterpret, hfinish] at hconclude
  obtain ⟨hhanded, houtcome⟩ := Prod.mk.inj hconclude
  refine ⟨production, houtcome, hactions, ?_⟩
  rw [hhanded]
  simp [sent, opened, Function.comp_def]

/-- Without a cancellation, what is handed on is the production exactly if no text is completed that
can be carried out, or its script begins with whatever was received of the pieces. It does whenever
the text goes on where the pieces stop, in particular when it is theirs. -/
theorem performLive_handed_iff (composer : Composer) (commission : Commission)
    {events : Provider.Stream} (hcancellation : commission.cancellation = .never)
    (hstream : (composer.provider.stream
      (composer.call commission.request commission.snapshot)).value = .ok events)
    (hproduction : (composer.performLive commission).outcome = .ok production) :
    ((composer.performLive commission).handed.map Prod.snd = production.actions ↔
      ∀ text interpretation, Provider.completion? events = some text →
        Script.interpret composer.capability commission.snapshot (Production.scriptOf text) =
          .ok interpretation →
        ∀ front actions, front <+: Provider.pieces events →
          interpretReceived composer.capability commission.snapshot (pieceText front) =
            some actions → actions <+: interpretation.actions) ∧
    ∀ text, Provider.completion? events = some text →
      (pieceText (Provider.pieces events)).toList <+: text.toList →
        (composer.performLive commission).handed.map Prod.snd = production.actions := by
  obtain ⟨live, time, ending, hlive, hending, hconclude⟩ :=
    performLive_of_stream hcancellation hstream
  rw [hproduction] at hconclude
  have hhanded := conclude_handed_iff hconclude.symm
  rw [hending] at hhanded
  have hsent (actions : List Action) : live.sent.map Prod.snd <+: actions ↔
      ∀ front received, front <+: Provider.pieces events →
        interpretReceived composer.capability commission.snapshot (pieceText front) =
          some received → received <+: actions := by
    refine ⟨fun h front received hfront hreceived =>
      (hlive.most front received hfront hreceived).trans h, fun h => ?_⟩
    rcases hlive.attained with hnone | ⟨front, hfront, hreceived⟩
    · rw [hnone]
      exact List.nil_prefix
    · exact h front _ hfront hreceived
  simp only [interpret_eq_ok, hsent] at hhanded
  refine ⟨hhanded, fun text htext hgrows => hhanded.2 ?_⟩
  intro other interpretation hother hinterpret front actions hfront hreceived
  obtain rfl := Option.some.inj (htext.symm.trans hother)
  obtain ⟨lines, hlines, hyields, -⟩ := Script.yields_of_interpretReceived hreceived
  exact Production.prefix_of_interpret
    (hlines.trans ((Provider.toList_pieceText_prefix hfront).trans hgrows)) hyields hinterpret

/-- A text that goes on where the only piece stops. -/
theorem performLive_handed_iff_clip :
    let composer := reciting "track(name=\"Bass\")\n.add_midi()" ["track(name=\"Bass\")\n"]
    let commission : Commission := { request := "Add a bass", snapshot := {} }
    ∃ production, (composer.performLive commission).outcome = .ok production ∧
      production.actions.length = 2 ∧
      (composer.performLive commission).handed.map Prod.snd = production.actions := by
  intro composer commission
  have hparse : Script.parse (Production.scriptOf "track(name=\"Bass\")\n.add_midi()") =
      .ok [⟨⟨"track", [⟨some "name", .string "Bass"⟩]⟩, [⟨"add_midi", []⟩]⟩] := by
    cbv
  obtain ⟨interpretation, hinterpret, hlength⟩ : ∃ interpretation,
      composer.interpret (Production.scriptOf "track(name=\"Bass\")\n.add_midi()") {} =
        .ok interpretation ∧ interpretation.actions.length = 2 := by
    simp only [interpret, Script.interpret, hparse]
    exact ⟨_, rfl, rfl⟩
  obtain ⟨production, hproduction, hactions, -⟩ :=
    performLive_of_interpretation composer commission rfl rfl rfl hinterpret
  refine ⟨production, hproduction, by rw [hactions, hlength], ?_⟩
  exact (performLive_handed_iff composer commission rfl rfl hproduction).2 _ rfl (by decide)

/-- A service that sends both a message and the input of a tool completes the input alone. What was
received of the message was handed on by then, and what comes of the input is not. -/
theorem handed_differs :
    let message : Json := .object [("delta", .string "track(name=\"Draft\")\n"),
      ("type", .string "response.output_text.delta")]
    let input : Json := .object [("delta", .string "track(name=\"Bass\")"),
      ("type", .string "response.custom_tool_call_input.delta")]
    let said : Json := .object [("content", .array [.object [
      ("text", .string "track(name=\"Draft\")\n"), ("type", .string "output_text")]]),
      ("type", .string "message")]
    let called : Json := .object [("input", .string "track(name=\"Bass\")"),
      ("type", .string "custom_tool_call")]
    let done : Json := .object [("response", .object [("output", .array [said, called])]),
      ("type", .string "response.completed")]
    let composer := reciting "track(name=\"Bass\")"
      ["track(name=\"Draft\")\n", "track(name=\"Bass\")"]
    let commission : Commission := { request := "Add a bass", snapshot := {} }
    let draft : Action := ⟨Action.Kind.createTrack, [("index", .nat 0), ("name", .string "Draft")]⟩
    let bass : Action := ⟨Action.Kind.createTrack, [("index", .nat 0), ("name", .string "Bass")]⟩
    (∃ first second third : Provider.Heard,
      Provider.Heard.event {} message = (first, .ok (some (.delta "track(name=\"Draft\")\n"))) ∧
      first.event input = (second, .ok (some (.delta "track(name=\"Bass\")"))) ∧
      second.event done = (third, .ok (some (.completed "track(name=\"Bass\")" none)))) ∧
    ∃ production, (composer.performLive commission).outcome = .ok production ∧
      production.actions = [bass] ∧
      (composer.performLive commission).handed.map Prod.snd = [draft] ∧
      (composer.performLive commission).handed.map Prod.snd ≠ production.actions := by
  intro message input said called done composer commission draft bass
  refine ⟨⟨_, _, _, rfl, rfl, rfl⟩, ?_⟩
  have hparse : Script.parse "track(name=\"Draft\")" =
      .ok [⟨⟨"track", [⟨some "name", .string "Draft"⟩]⟩, []⟩] := by
    cbv
  have hfirst : interpretReceived .daw {} "track(name=\"Draft\")\n" = some [draft] := by
    have hlines : Script.receivedLines? "track(name=\"Draft\")\n" =
        some "track(name=\"Draft\")" := rfl
    simp only [interpretReceived, hlines, hparse]
    rfl
  have hsecond : interpretReceived .daw {} "track(name=\"Draft\")\ntrack(name=\"Bass\")" =
      some [draft] := by
    have hlines : Script.receivedLines? "track(name=\"Draft\")\ntrack(name=\"Bass\")" =
        some "track(name=\"Draft\")" := rfl
    simp only [interpretReceived, hlines, hparse]
    rfl
  have hinterpret : composer.interpret (Production.scriptOf "track(name=\"Bass\")") {} =
      .ok ⟨[bass], []⟩ := by
    have hwhole : Script.parse (Production.scriptOf "track(name=\"Bass\")") =
        .ok [⟨⟨"track", [⟨some "name", .string "Bass"⟩]⟩, []⟩] := by
      cbv
    simp only [interpret, Script.interpret, hwhole]
    rfl
  obtain ⟨production, hproduction, hactions, hhanded⟩ :=
    performLive_of_interpretation composer commission rfl rfl rfl hinterpret
  have hheard : (Live.hearAll .daw {} 0 {} [.now "track(name=\"Draft\")\n",
      .now "track(name=\"Bass\")"]).2.sent = [(0, draft)] := by
    simp [Live.hearAll, Live.hear, Delayed.now, hfirst, hsecond]
  replace hhanded : (composer.performLive commission).handed.map Prod.snd = [draft] :=
    hhanded.trans (congrArg (fun sent => sent.map Prod.snd ++ [bass].drop sent.length) hheard)
  refine ⟨production, hproduction, hactions, hhanded, ?_⟩
  rw [hhanded, hactions]
  simp [draft, bass]

end Composer

end Studio
