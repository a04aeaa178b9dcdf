import Studio.Proofs.Production.Completion

/-!
# Performances that are cancelled

A cancellation ends listening between two pieces, or in front of the first: what was handed on by
then is kept, and is what the performance without it hands on first (`performLive_cancelled`).
-/

namespace Studio

open Provider (Usage)
open Session (Snapshot)

namespace Production.Live

variable {capability : Capability} {snapshot : Snapshot}

/-- Hearing pieces takes back nothing that was handed on. -/
theorem sent_prefix_hearAll (time : Nat) (live : Live) (pieces : List (Delayed String)) :
    live.sent <+: (live.hearAll capability snapshot time pieces).2.sent := by
  induction pieces generalizing time live with
  | nil => exact List.prefix_refl _
  | cons piece rest ih =>
      exact (hear_sent capability snapshot (time + piece.wait) live piece.value).trans (ih _ _)

/-- More pieces only add to what is handed on. -/
theorem sent_hearAll_prefix (time : Nat) (live : Live) {front pieces : List (Delayed String)}
    (h : front <+: pieces) : (live.hearAll capability snapshot time front).2.sent <+:
      (live.hearAll capability snapshot time pieces).2.sent := by
  obtain ⟨rest, rfl⟩ := h
  rw [hearAll_append]
  exact sent_prefix_hearAll _ _ rest

/-- Nothing is heard that is cut off. -/
theorem listen_of_cuts {cancellation : Cancellation} {time : Nat} {live : Live}
    {event : Delayed (Except Provider.Fault Provider.StreamEvent)}
    (h : cancellation.cuts (time + event.wait) live.sent.length = true) (rest : Provider.Stream) :
    listen capability snapshot cancellation time live (event :: rest) =
      (live, cancellation.moment time live.sent.length, .cancelled) := by
  rw [listen, if_pos h]

/-- A cancellation that comes before what is behind the pieces is due ends listening behind some of
them. -/
theorem exists_listen_cancelled {cancellation : Cancellation} {time : Nat} {live : Live}
    {pieces : List (Delayed String)} {event : Delayed (Except Provider.Fault Provider.StreamEvent)}
    (hcut : cancellation.cuts ((live.hearAll capability snapshot time pieces).1 + event.wait)
      (live.hearAll capability snapshot time pieces).2.sent.length = true)
    (later : Provider.Stream) : ∃ front stop, front <+: pieces ∧
      listen capability snapshot cancellation time live
          (Provider.pieceEvents pieces ++ event :: later) =
        ((live.hearAll capability snapshot time front).2, stop, .cancelled) := by
  induction pieces generalizing time live with
  | nil => exact ⟨[], _, List.nil_prefix, listen_of_cuts hcut later⟩
  | cons piece rest ih =>
      cases hpiece : cancellation.cuts (time + piece.wait) live.sent.length with
      | true => exact ⟨[], _, List.nil_prefix, listen_of_cuts hpiece _⟩
      | false =>
          -- The piece is heard, so the cancellation comes behind it.
          obtain ⟨front, stop, hfront, hlisten⟩ := ih hcut
          refine ⟨piece :: front, stop, List.cons_prefix_cons.2 ⟨rfl, hfront⟩, ?_⟩
          rw [listen_piece hpiece, hlisten, hearAll]

end Production.Live

namespace Composer

open Production (Live Ending Receipt)

variable {composer : Composer} {commission : Commission}

/-- What is finished is reported as cancelled if it was cut off. -/
theorem cancelled_of_finish {receipt : Receipt} {interpretation : Script.Interpretation}
    {production : Production} (h : composer.finish receipt interpretation = .ok production) :
    production.diagnostics.cancelled = receipt.cancelled := by
  unfold finish at h
  split at h
  · cases h
  · obtain rfl := Except.ok.inj h
    rfl

/-- A structural composer that is cancelled keeps what was handed on, if there is any. -/
theorem conclude_cancelled (hcapability : composer.capability = .daw) (snapshot : Snapshot)
    (live : Live) (time : Nat) :
    live.sent = [] ∧
        composer.conclude snapshot live time .cancelled = ([], .error .cancelled) ∨
      live.sent ≠ [] ∧ ∃ production,
        composer.conclude snapshot live time .cancelled = (live.sent, .ok production) ∧
        production.diagnostics.cancelled = true ∧
        production.actions = live.sent.map Prod.snd ∧
        production.diagnostics.notices = [] := by
  by_cases hsent : live.sent = []
  · exact .inl ⟨hsent, by simp [conclude, keepSent, hsent]⟩
  · obtain ⟨production, hfinish, hactions, hnotices⟩ := finish_of_structural hcapability
      { script := Production.scriptOf live.text, streamed := true, cancelled := true }
      ⟨live.sent.map Prod.snd, []⟩
    refine .inr ⟨hsent, production, ?_, cancelled_of_finish hfinish, hactions, hnotices⟩
    simp [conclude, keepSent, hsent, hfinish]

/-- A live performance that is cancelled before its text is completed concludes with what some of
the pieces amount to, or it ends before the stream is there. -/
theorem performLive_cut {pieces : List (Delayed String)}
    {event : Delayed (Except Provider.Fault Provider.StreamEvent)} {later : Provider.Stream}
    (hstream : (composer.provider.stream
      (composer.call commission.request commission.snapshot)).value =
        .ok (Provider.pieceEvents pieces ++ event :: later))
    (hcut : let opened := commission.start + (composer.provider.stream
        (composer.call commission.request commission.snapshot)).wait
      let heard := Live.hearAll composer.capability commission.snapshot opened {} pieces
      commission.cancellation.fired commission.start 0 = true ∨
        commission.cancellation.cuts (heard.1 + event.wait) heard.2.sent.length = true) :
    let opened := commission.start + (composer.provider.stream
      (composer.call commission.request commission.snapshot)).wait
    let run := composer.performLive commission
    (run.handed, run.outcome) = ([], .error .cancelled) ∨
      ∃ front stop, front <+: pieces ∧ (run.handed, run.outcome) =
        composer.conclude commission.snapshot
          (Live.hearAll composer.capability commission.snapshot opened {} front).2 stop
          .cancelled := by
  obtain ⟨request, snapshot, start, cancellation⟩ := commission
  dsimp only at hstream hcut ⊢
  cases hfired : cancellation.fired start 0 with
  | true => exact .inl (by simp [performLive, hfired])
  | false =>
      cases hopened : cancellation.cuts
          (start + (composer.provider.stream (composer.call request snapshot)).wait) 0 with
      | true => exact .inl (by simp [performLive, hfired, hopened])
      | false =>
          obtain ⟨front, stop, hfront, hlisten⟩ :=
            Live.exists_listen_cancelled (hcut.resolve_left (by simp [hfired])) later
          refine .inr ⟨front, stop, hfront, ?_⟩
          simp [performLive, hfired, hopened, hstream, hlisten]

/-- A cancellation that comes in front of a live performance, while its stream opens, between two
pieces or in front of the completion keeps exactly what was handed on by then: without any there is
no production, and otherwise the production has just these actions and no notice that they are cut
short. Without the cancellation they are handed on first. -/
theorem performLive_cancelled (composer : Composer) (commission : Commission)
    {pieces : List (Delayed String)} {text : String} {usage : Option Usage} {wait : Nat}
    {later : Provider.Stream} (hcapability : composer.capability = .daw)
    (hstream : (composer.provider.stream
      (composer.call commission.request commission.snapshot)).value =
        .ok (Provider.pieceEvents pieces ++ ⟨wait, .ok (.completed text usage)⟩ :: later))
    (hcut : let opened := commission.start + (composer.provider.stream
        (composer.call commission.request commission.snapshot)).wait
      let heard := Live.hearAll composer.capability commission.snapshot opened {} pieces
      commission.cancellation.fired commission.start 0 = true ∨
        commission.cancellation.cuts (heard.1 + wait) heard.2.sent.length = true) :
    let run := composer.performLive commission
    let whole := composer.performLive { commission with cancellation := .never }
    (run.outcome = .error .cancelled ↔ run.handed = []) ∧
      (run.handed ≠ [] → ∃ production, run.outcome = .ok production ∧
        production.diagnostics.cancelled = true ∧
        production.actions = run.handed.map Prod.snd ∧
        production.diagnostics.notices = []) ∧
      run.handed <+: whole.handed := by
  intro run whole
  have hnothing (h : (run.handed, run.outcome) = ([], .error .cancelled)) :
      (run.outcome = .error .cancelled ↔ run.handed = []) ∧
        (run.handed ≠ [] → ∃ production, run.outcome = .ok production ∧
          production.diagnostics.cancelled = true ∧
          production.actions = run.handed.map Prod.snd ∧
          production.diagnostics.notices = []) ∧
        run.handed <+: whole.handed := by
    obtain ⟨hhanded, houtcome⟩ := Prod.mk.inj h
    rw [hhanded, houtcome]
    exact ⟨by simp, by simp, List.nil_prefix⟩
  rcases performLive_cut hstream hcut with hnone | ⟨front, stop, hfront, hconclude⟩
  · exact hnothing hnone
  rcases conclude_cancelled hcapability commission.snapshot _ stop with
    ⟨-, hend⟩ | ⟨hsent, production, hend, hcancelled, hactions, hnotices⟩
  · exact hnothing (hconclude.trans hend)
  · obtain ⟨hhanded, houtcome⟩ := Prod.mk.inj (hconclude.trans hend)
    have hwhole : whole.handed = (composer.conclude _ _ _ (.completed text usage)).1 :=
      congrArg Prod.fst (performLive_eq_conclude composer
        { commission with cancellation := .never } rfl hstream)
    rw [houtcome, hhanded]
    refine ⟨by simp [hsent], fun _ => ⟨production, rfl, hcancelled, hactions, hnotices⟩, ?_⟩
    rw [hwhole]
    exact (Live.sent_hearAll_prefix _ _ hfront).trans
      (ending_handed composer commission.snapshot _ _ _)

/-- A cancellation between two lines keeps the track of the first one. -/
theorem performLive_cancelled_line :
    let pieces : List (Delayed String) :=
      [⟨1, "track(name=\"Bass\")\n"⟩, ⟨1, ".add_midi()\n"⟩]
    let provider : Provider := {
      name := "slow"
      reply := fun _ => .now (.error .missingKey)
      stream := fun _ => .now (.ok (Provider.pieceEvents pieces ++
        [⟨1, .ok (.completed "track(name=\"Bass\")\n.add_midi()\n" none)⟩])) }
    let composer : Composer := ⟨.daw, provider, "slow"⟩
    let commission : Commission :=
      { request := "Add a bass", snapshot := {}, cancellation := { time := some 1 } }
    let bass : Action := ⟨Action.Kind.createTrack, [("index", .nat 0), ("name", .string "Bass")]⟩
    let whole := composer.performLive { commission with cancellation := .never }
    ∃ production, (composer.performLive commission).outcome = .ok production ∧
      production.diagnostics.cancelled = true ∧ production.diagnostics.notices = [] ∧
      production.actions = [bass] ∧ [(1, bass)] <+: whole.handed := by
  intro pieces provider composer commission bass whole
  have hfirst : Script.interpretReceived .daw {} "track(name=\"Bass\")\n" = some [bass] := by
    have hlines : Script.receivedLines? "track(name=\"Bass\")\n" = some "track(name=\"Bass\")" :=
      rfl
    have hparse : Script.parse "track(name=\"Bass\")" =
        .ok [⟨⟨"track", [⟨some "name", .string "Bass"⟩]⟩, []⟩] := by
      cbv
    simp only [Script.interpretReceived, hlines, hparse]
    rfl
  have hhanded : (composer.performLive commission).handed = [(1, bass)] := by
    have hheard : Live.hear .daw {} 1 {} "track(name=\"Bass\")\n" =
        ⟨"track(name=\"Bass\")\n", [(1, bass)]⟩ := by
      simp [Live.hear, hfirst]
    simp [composer, provider, commission, pieces, performLive, Delayed.now, Cancellation.fired,
      Cancellation.cuts, Cancellation.reached, Provider.pieceEvents, Delayed.map, Live.listen,
      hheard, conclude]
  obtain ⟨-, hkept, hprefix⟩ := performLive_cancelled composer commission rfl rfl (.inr rfl)
  rw [hhanded] at hkept hprefix
  obtain ⟨production, houtcome, hcancelled, hactions, hnotices⟩ := hkept (by simp)
  exact ⟨production, houtcome, hcancelled, hnotices, hactions, hprefix⟩

end Composer

end Studio
