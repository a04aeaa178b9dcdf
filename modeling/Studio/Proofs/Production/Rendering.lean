import Studio.Proofs.Methods.Rendering
import Studio.Proofs.Production.Streaming
import Studio.Proofs.Script.Sentences

/-!
# Notes of accepted scripts

The actions of a script of music have notes, with one exception: a length that is infinite passes
every check, but an action has no number for it. Each method makes actions whose notes can be laid
out but for that (`Describes`); so all actions of a script are of that kind, and `accepted_renders`
says when there are notes, and what the fault is when there are none. A composer comes to such a
fault only through a script that was accepted. `accepted_not_rendered` shows that it can.
-/

namespace Studio

open Session (Snapshot)

variable {capability : Capability} {snapshot : Snapshot}

/-! ### What scripts of music describe -/

namespace Script

/-- An action is what a capability describes its notes with. Structural actions describe none. -/
def Describes (capability : Capability) (action : Action) : Prop :=
  match capability with
  | .daw => True
  | .arranger => Payload.Harmonic action
  | .drummer => Payload.Percussive action

/-- A state that describes content still does with more descriptions. -/
theorem describes_emitAll {actions : List Action}
    (hactions : ∀ action ∈ actions, Describes capability action) {state : State}
    (hstate : ∀ action ∈ state.actions, Describes capability action) :
    ∀ action ∈ (state.emitAll actions).actions, Describes capability action :=
  List.forall_mem_append.2 ⟨hstate, hactions⟩

/-- What describes content still does behind a method. -/
theorem describes_of_method {call : Call} {state next : State}
    (hstate : ∀ action ∈ state.actions, Describes capability action)
    (h : Methods.apply capability snapshot call state = .ok next) :
    ∀ action ∈ next.actions, Describes capability action := by
  cases capability with
  | daw => exact fun _ _ => trivial
  | arranger =>
      obtain ⟨actions, rfl, hactions⟩ := Methods.Chords.harmonic_of_apply h
      exact describes_emitAll hactions hstate
  | drummer =>
      obtain ⟨actions, rfl, hactions⟩ := Methods.Drums.percussive_of_apply h
      exact describes_emitAll hactions hstate

/-- Only methods add actions, so what all of them make, a script makes. -/
theorem kept_describes (capability : Capability) (snapshot : Snapshot) :
    Kept capability snapshot (fun state => ∀ action ∈ state.actions, Describes capability action)
      fun _ => True where
  entities _ _ _ _ := trivial
  project _ _ _ := trivial
  store _ _ _ h _ := h
  setFiltered h _ := h
  dropFiltered h := h
  visit _ _ _ h _ := h
  leave h := h
  unbind h := h
  method _ h happly := describes_of_method h happly

/-- A text is interpreted just when it is parsed, runs and leaves actions. -/
theorem interpret_eq_ok {source : String} {interpretation : Interpretation} :
    interpret capability snapshot source = .ok interpretation ↔
      ∃ program state, parse source = .ok program ∧
        execute capability snapshot program = .ok state ∧ state.actions ≠ [] ∧
        interpretation = ⟨state.actions, state.notices⟩ := by
  constructor
  · intro h
    obtain ⟨program, hparse, h⟩ := bind_eq_ok.1 h
    obtain ⟨state, hrun, h⟩ := bind_eq_ok.1 h
    split at h
    · simp at h
    · next hactions =>
      exact ⟨program, state, hparse, hrun, mt List.isEmpty_iff.2 hactions,
        (Except.ok.inj h).symm⟩
  · rintro ⟨program, state, hparse, hrun, hactions, rfl⟩
    refine bind_eq_ok.2 ⟨program, hparse, bind_eq_ok.2 ⟨state, hrun, ?_⟩⟩
    rw [if_neg (mt List.isEmpty_iff.1 hactions)]
    rfl

/-- The actions of a text that is interpreted describe content. -/
theorem describes_of_interpret {source : String} {interpretation : Interpretation}
    (h : interpret capability snapshot source = .ok interpretation) :
    ∀ action ∈ interpretation.actions, Describes capability action := by
  obtain ⟨program, state, -, hrun, -, rfl⟩ := interpret_eq_ok.1 h
  exact (kept_describes capability snapshot).runStatements (by simp [State.start])
    (execute_eq_ok.1 hrun).2

end Script

/-! ### Faults of composers -/

namespace Production.Live

/-- Listening keeps what was handed on the actions of some lines, whatever the stream brings. -/
theorem Faithful.listen (stream : Provider.Stream) (cancellation : Cancellation) (time : Nat)
    {live : Live} (h : live.Faithful capability snapshot) :
    (listen capability snapshot cancellation time live stream).1.Faithful capability snapshot := by
  induction stream generalizing time live with
  | nil =>
      rw [Live.listen]
      split <;> exact h
  | cons event rest ih =>
      rw [Live.listen]
      split
      · exact h
      · split
        · exact h
        · exact h
        · exact ih _ (h.hear _ _)

/-- What was handed on is what a text amounts to that is accepted. -/
theorem Faithful.accepted {live : Live} (h : live.Faithful capability snapshot)
    (hsent : live.sent ≠ []) : ∃ source notices,
      Script.interpret capability snapshot source = .ok ⟨live.sent.map Prod.snd, notices⟩ := by
  obtain ⟨lines, program, state, -, hparse, hrun, hactions⟩ := h.script hsent
  refine ⟨lines ++ "\n", state.notices, Script.interpret_eq_ok.2
    ⟨program, state, hparse, hrun, ?_, by rw [hactions]⟩⟩
  rw [hactions]
  exact mt List.map_eq_nil_iff.1 hsent

end Production.Live

namespace Composer

open Production (Live Ending Receipt)

variable {composer : Composer} {commission : Commission} {fault : Music.Fault}

/-- There is a text that is accepted, and its actions lead to a fault instead of notes. -/
def Unrendered (capability : Capability) (snapshot : Snapshot) (fault : Music.Fault) : Prop :=
  ∃ source interpretation, Script.interpret capability snapshot source = .ok interpretation ∧
    payload capability interpretation.actions = .error fault

/-- Finishing fails with a fault of notes only where the payload does. -/
theorem payload_of_finish {receipt : Receipt} {interpretation : Script.Interpretation}
    (h : composer.finish receipt interpretation = .error (.notes fault)) :
    payload composer.capability interpretation.actions = .error fault := by
  unfold finish at h
  split at h
  · next found hpayload =>
    cases h
    exact hpayload
  · cases h

/-- Interpreting alone never leads to a fault about notes. -/
theorem ne_notes_of_interpret {text : String} {other : Production.Fault}
    (h : composer.interpret text snapshot = .error other) : other ≠ .notes fault := by
  rintro rfl
  unfold interpret at h
  cases hscript : Script.interpret composer.capability snapshot text with
  | error e => simp [hscript, Except.mapError] at h
  | ok interpretation => simp [hscript, Except.mapError] at h

/-- Where finishing fails with a fault of notes, a text was accepted and not rendered. -/
theorem unrendered_of_finish {text : String} {receipt : Receipt}
    {interpretation : Script.Interpretation}
    (hinterpret : composer.interpret text snapshot = .ok interpretation)
    (h : composer.finish receipt interpretation = .error (.notes fault)) :
    Unrendered composer.capability snapshot fault :=
  ⟨text, interpretation, interpret_eq_ok.1 hinterpret, payload_of_finish h⟩

/-- Where a reply fails with a fault of notes, a text was accepted and not rendered. -/
theorem unrendered_of_ofReply {reply : Provider.Reply}
    (h : composer.ofReply snapshot reply = .error (.notes fault)) :
    Unrendered composer.capability snapshot fault := by
  cases hinterpret : composer.interpret (Production.scriptOf reply.text) snapshot with
  | error other =>
      rw [ofReply_of_fault reply hinterpret] at h
      exact absurd (Except.error.inj h) (ne_notes_of_interpret hinterpret)
  | ok interpretation =>
      simp only [ofReply, hinterpret] at h
      exact unrendered_of_finish hinterpret h

/-- Where a performance fails with a fault of notes, a text was accepted and not rendered. -/
theorem unrendered_of_perform
    (h : (composer.perform commission).outcome = .error (.notes fault)) :
    Unrendered composer.capability commission.snapshot fault := by
  simp only [perform] at h
  split at h
  · cases h
  · split at h
    · cases h
    · split at h
      · cases h
      · exact unrendered_of_ofReply h

/-- Where keeping what was handed on fails with a fault of notes, a text was accepted and not
rendered. -/
theorem unrendered_of_keepSent {live : Live} {receipt : Receipt} {notices : List Script.Notice}
    (hlive : live.Faithful composer.capability snapshot)
    (h : composer.keepSent live receipt notices = .error (.notes fault)) :
    Unrendered composer.capability snapshot fault := by
  unfold keepSent at h
  split at h
  · cases h
  · next hsent =>
    obtain ⟨source, others, hsource⟩ := hlive.accepted (mt List.isEmpty_iff.2 hsent)
    have hpayload := payload_of_finish h
    exact ⟨source, _, hsource, hpayload⟩

/-- However a live performance ends, a fault of notes is that of a text that was accepted. -/
theorem unrendered_of_conclude {live : Live} {time : Nat} {ending : Ending}
    (hlive : live.Faithful composer.capability snapshot)
    (h : (composer.conclude snapshot live time ending).2 = .error (.notes fault)) :
    Unrendered composer.capability snapshot fault := by
  cases ending with
  | cancelled | silent => exact unrendered_of_keepSent hlive h
  | failed other =>
      simp only [conclude] at h
      split at h
      · cases h
      · exact unrendered_of_keepSent hlive h
  | completed text usage =>
      simp only [conclude] at h
      split at h
      · next hinterpret =>
        split at h
        · exact absurd (Except.error.inj h) (ne_notes_of_interpret hinterpret)
        · exact unrendered_of_keepSent hlive h
      · next hinterpret => exact unrendered_of_finish hinterpret h

/-- Where a live performance fails with a fault of notes, a text was accepted and not rendered. -/
theorem unrendered_of_performLive
    (h : (composer.performLive commission).outcome = .error (.notes fault)) :
    Unrendered composer.capability commission.snapshot fault := by
  simp only [performLive] at h
  split at h
  · cases h
  · split at h
    · cases h
    · split at h
      · cases h
      · next events _ => exact unrendered_of_conclude (.listen events _ _ (.inl rfl)) h

end Composer

/-! ### When there are notes -/

section

variable {actions : List Action}
  (hactions : ∀ action ∈ actions, Script.Describes capability action)
include hactions

/-- What a script describes has notes, unless it is harmonic and a length is null. -/
theorem payload_eq_ok : (∃ notes, payload capability actions = .ok notes) ↔
    (capability = .arranger → ∀ action ∈ actions, action.get? "length" ≠ some .null) := by
  cases capability with
  | daw => exact iff_of_true ⟨[], rfl⟩ nofun
  | arranger => exact (Payload.harmonyFrom_eq_ok hactions 0).trans ⟨fun h _ => h, fun h => h rfl⟩
  | drummer => exact iff_of_true (Payload.exists_percussion hactions) nofun

/-- The only fault is a length that no action can hold. -/
theorem payload_eq_error {fault : Music.Fault} (h : payload capability actions = .error fault) :
    capability = .arranger ∧ ∃ action ∈ actions, ∃ length : Float,
      ¬ length ≤ 0 ∧ length.isFinite = false ∧
      action.get? "length" = some (.ofNumber length) ∧
      fault = .invalidDescription action.kind (.missing "length") := by
  cases capability with
  | daw => cases h
  | arranger =>
      refine ⟨rfl, ?_⟩
      obtain ⟨action, hmem, hnull, hfault⟩ := Payload.harmonyFrom_eq_error hactions h
      obtain ⟨length, hpositive, hlength⟩ := (hactions action hmem).length
      have hinfinite := Json.ofNumber_eq_null.1 (Option.some.inj (hlength.symm.trans hnull))
      exact ⟨action, hmem, length, hpositive, hinfinite, hlength, hfault⟩
  | drummer =>
      obtain ⟨notes, hnotes⟩ := Payload.exists_percussion hactions
      cases hnotes.symm.trans h

end

/-! ### A length beyond all doubles -/

namespace Script

open Methods.Chords (Common chord checkSymbol common defaultLength setSymbol)

/-- A call to a chord of a length. -/
def chordCall (length : Float) : Call :=
  ⟨"chord", [⟨none, .string "C"⟩, ⟨some "length", .number length⟩]⟩

/-- What a chord of a length is described with. -/
def chordAction (length : Float) : Action :=
  ((⟨length, 1, 100, 4⟩ : Common).setFields (setSymbol "C" ⟨Action.Kind.chord, []⟩)).set
    "inversion" (.nat 0)

/-- The text of a chord, with the text of its length. -/
def chordText (number : List Char) : List Char :=
  "chord(\"C\", length=".toList ++ (number ++ [')'])

/-- The call for a chord makes its action, if its length is not too short. -/
theorem chord_chordCall {length : Float} (h : ¬ length ≤ 0) :
    chord (chordCall length) = .ok (chordAction length) := by
  have hcommon : common (chordCall length) defaultLength = .ok ⟨length, 1, 100, 4⟩ := by
    have hlength : (chordCall length).number? "length" = .ok (some length) := rfl
    rw [common, hlength]
    simp only [bind, Except.bind, Option.getD_some, if_neg h]
    rfl
  have hcheck : checkSymbol (chordCall length) "symbol" "C" 4 = .ok () := by
    have hresolve : Music.Chord.resolve "C" (4 : Nat) = .ok [48, 52, 55] := by cbv
    rw [checkSymbol, hresolve]
  refine bind_eq_ok.2 ⟨_, hcommon, bind_eq_ok.2 ⟨"C", rfl, ?_⟩⟩
  exact bind_eq_ok.2 ⟨(), hcheck, rfl⟩

/-- The text for a chord is its call. -/
theorem isCall_chordText {number : List Char} {length : Float}
    (hnumber : Spells readLiteral number (.number length)) :
    IsCall (chordText number) (chordCall length) := by
  have hsymbol : Spells readArgument ['"', 'C', '"'] ⟨none, .string "C"⟩ :=
    spells_unnamed (@spells_string ['C'] ['C'] rfl (by simp)).value
      fun more _ => unlabelled_of_cons rfl _
  have hlength : Spells readArgument ("length".toList ++ '=' :: number)
      ⟨some "length", .number length⟩ :=
    spells_named rfl hnumber.value
  have hblank : ∀ c ∈ [' '], isBlank c = true := by simp [isBlank]
  have hname : isName "chord".toList = true := rfl
  exact isCall_listed hname (.cons hsymbol hblank (.one hlength))

/-- A number of 401 digits is read as infinity. -/
theorem spells_infinite : Spells readLiteral (List.replicate 401 '9')
    (.number (Float.ofBits 0x7FF0000000000000)) := by
  have hinfinite : ofDecimal false (List.replicate 401 '9') [] = Float.ofBits 0x7FF0000000000000 :=
    Number.toDouble_of_le (by decide +kernel)
  rw [← hinfinite]
  refine spells_digits (List.cons_ne_nil '9' (List.replicate 400 '9')) ?_
  intro c hc
  rw [List.eq_of_mem_replicate hc]
  rfl

/-- A chord with a positive length is accepted. -/
theorem interpret_chordText {number : List Char} {length : Float}
    (hnumber : Spells readLiteral number (.number length)) (hlength : ¬ length ≤ 0)
    (snapshot : Snapshot) :
    interpret .arranger snapshot (String.ofList (chordText number)) =
      .ok ⟨[chordAction length], []⟩ := by
  have hstatement : IsStatement (chordText number) ⟨chordCall length, []⟩ :=
    ⟨_, [], (List.append_nil _).symm, isCall_chordText hnumber, .nil⟩
  have hparse : parse (String.ofList (chordText number)) = .ok [⟨chordCall length, []⟩] := by
    rw [parse_eq_ok, String.toList_ofList]
    exact (IsScript.one hstatement).reads
  have hdispatch : dispatch .arranger snapshot (chordCall length) (State.start snapshot) =
      .ok ((State.start snapshot).emitAll [chordAction length]) := by
    show ((chord (chordCall length)).map ([·])).map (State.start snapshot).emitAll = _
    rw [chord_chordCall hlength]
    rfl
  have hrun : execute .arranger snapshot [⟨chordCall length, []⟩] =
      .ok ((State.start snapshot).emitAll [chordAction length]).endStatement := by
    refine execute_eq_ok.2 ⟨by simp, runStatements_cons_eq_ok.2 ⟨_, ?_, rfl⟩⟩
    rw [Statement.calls, runCalls, hdispatch]
    rfl
  exact interpret_eq_ok.2 ⟨_, _, hparse, hrun, List.cons_ne_nil _ _, rfl⟩

/-- A chord of infinite length has no notes. -/
theorem payload_chordAction {length : Float} (hpositive : ¬ length ≤ 0)
    (hinfinite : length.isFinite = false) : payload .arranger [chordAction length] =
      .error (.invalidDescription Action.Kind.chord (.missing "length")) := by
  have hharmonic : Payload.Harmonic (chordAction length) :=
    Methods.Chords.harmonic_of_chord (chord_chordCall hpositive)
  have hnull : (chordAction length).get? "length" = some .null := by
    have hlength : (chordAction length).get? "length" = some (.ofNumber length) := rfl
    rw [hlength, Json.ofNumber_eq_null.2 hinfinite]
  show Payload.harmonyFrom 0 [chordAction length] = _
  rw [Payload.harmonyFrom, hharmonic.faulty hnull 0]
  rfl

/-- There is nothing around the text of a chord that is no part of the script. -/
theorem scriptOf_chordText (number : List Char) :
    Production.scriptOf (String.ofList (chordText number)) = String.ofList (chordText number) := by
  have htext : chordText number = ("chord(\"C\", length=".toList ++ number) ++ [')'] :=
    (List.append_assoc _ _ _).symm
  have htrim : Text.trimList (chordText number) = chordText number := by
    rw [htext, Text.trimList_append_cons rfl]
    rfl
  have hfence : Text.dropStart? Production.fence (chordText number) = none := rfl
  simp only [Production.scriptOf, String.toList_ofList, htrim, hfence]

end Script

/-- A reply that is the text of a chord of infinite length leads to a fault about notes. -/
theorem Composer.ofReply_chordText {composer : Composer}
    (hcapability : composer.capability = .arranger) {number : List Char} {length : Float}
    (hnumber : Script.Spells Script.readLiteral number (.number length)) (hpositive : ¬ length ≤ 0)
    (hinfinite : length.isFinite = false) (model : String) (usage : Option Provider.Usage) :
    composer.ofReply snapshot ⟨model, String.ofList (Script.chordText number), usage⟩ =
      .error (.notes (.invalidDescription Action.Kind.chord (.missing "length"))) := by
  have hinterpret : composer.interpret (String.ofList (Script.chordText number)) snapshot =
      .ok ⟨[Script.chordAction length], []⟩ := by
    rw [interpret_eq_ok, hcapability]
    exact Script.interpret_chordText hnumber hpositive snapshot
  have hpayload := Script.payload_chordAction hpositive hinfinite
  simp only [ofReply, Script.scriptOf_chordText, hinterpret, bind, Except.bind, finish, hcapability,
    hpayload]

/-! ### Accepted scripts -/

/-- The actions of an accepted script have notes, but for one case: a harmonic description with a
length that is not finite. A composer comes to a fault about notes only through such a script, so
none for structure or percussion does. -/
theorem accepted_renders (capability : Capability) (snapshot : Snapshot) :
    (∀ source interpretation,
      Script.interpret capability snapshot source = .ok interpretation →
      ((∃ notes, payload capability interpretation.actions = .ok notes) ↔
        (capability = .arranger →
          ∀ action ∈ interpretation.actions, action.get? "length" ≠ some .null)) ∧
      ∀ fault, payload capability interpretation.actions = .error fault →
        ∃ action ∈ interpretation.actions, ∃ length : Float,
          ¬ length ≤ 0 ∧ length.isFinite = false ∧
          action.get? "length" = some (.ofNumber length) ∧
          fault = .invalidDescription action.kind (.missing "length")) ∧
    ∀ (composer : Composer) (commission : Commission) (fault : Music.Fault),
      composer.capability = capability → commission.snapshot = snapshot →
      (composer.perform commission).outcome = .error (.notes fault) ∨
        (composer.performLive commission).outcome = .error (.notes fault) →
      capability = .arranger ∧ ∃ source interpretation,
        Script.interpret capability snapshot source = .ok interpretation ∧
        payload capability interpretation.actions = .error fault := by
  constructor
  · intro source interpretation h
    have hactions := Script.describes_of_interpret h
    exact ⟨payload_eq_ok hactions, fun fault hfault => (payload_eq_error hactions hfault).2⟩
  · rintro composer commission fault rfl rfl h
    obtain ⟨source, interpretation, hinterpret, hfault⟩ :
        Composer.Unrendered composer.capability commission.snapshot fault :=
      h.elim Composer.unrendered_of_perform Composer.unrendered_of_performLive
    exact ⟨(payload_eq_error (Script.describes_of_interpret hinterpret) hfault).1, source,
      interpretation, hinterpret, hfault⟩

/-- A chord of two beats has notes; one of a length beyond all doubles leads to a fault. -/
theorem accepted_renders_chords :
    let endless := String.ofList (Script.chordText (List.replicate 401 '9'))
    let composer : Composer := { Composer.reciting endless [] with capability := .arranger }
    let commission : Commission := { request := "Play a chord", snapshot := {} }
    (∃ interpretation,
      Script.interpret .arranger {} "chord(\"C\", length=2)" = .ok interpretation ∧
      ∃ notes, payload .arranger interpretation.actions = .ok notes) ∧
    ∃ fault, (composer.perform commission).outcome = .error (.notes fault) ∧
      ∃ source interpretation, Script.interpret .arranger {} source = .ok interpretation ∧
        payload .arranger interpretation.actions = .error fault := by
  intro endless composer commission
  constructor
  · have htwo : Script.ofDecimal false ['2'] [] = Float.ofNat 2 :=
      Number.toDouble_natural (by decide) false
    have hnumber : Script.Spells Script.readLiteral ['2'] (.number (Float.ofNat 2)) := by
      rw [← htwo]
      exact Script.spells_digits (List.cons_ne_nil _ _) (List.forall_mem_singleton.2 rfl)
    have hinterpret := Script.interpret_chordText hnumber (by decide) {}
    refine ⟨_, hinterpret, ((accepted_renders .arranger {}).1 _ _ hinterpret).1.2 ?_⟩
    intro _ action haction hnull
    obtain rfl := List.mem_singleton.1 haction
    have hinfinite := Json.ofNumber_eq_null.1 (Option.some.inj hnull)
    cases hinfinite
  · have houtcome : (composer.perform commission).outcome = _ :=
      (Composer.perform_outcome rfl rfl).trans
        (Composer.ofReply_chordText rfl Script.spells_infinite (by decide) rfl _ _)
    exact ⟨_, houtcome, ((accepted_renders .arranger {}).2 composer commission _ rfl rfl
      (.inl houtcome)).2⟩

/-- A length of 401 digits is beyond all doubles, so a chord of that length is accepted and has no
notes. -/
theorem accepted_not_rendered :
    let source := String.ofList
      ("chord(\"C\", length=".toList ++ (List.replicate 401 '9' ++ [')']))
    let fault : Music.Fault := .invalidDescription Action.Kind.chord (.missing "length")
    let composer : Composer := { Composer.reciting source [] with capability := .arranger }
    (∃ interpretation, Script.interpret .arranger {} source = .ok interpretation ∧
      payload .arranger interpretation.actions = .error fault) ∧
    (composer.perform { request := "Play a chord", snapshot := {} }).outcome =
      .error (.notes fault) := by
  intro source fault composer
  have hpositive : ¬ Float.ofBits 0x7FF0000000000000 ≤ 0 := by decide
  refine ⟨⟨_, Script.interpret_chordText Script.spells_infinite hpositive {},
    Script.payload_chordAction hpositive rfl⟩, ?_⟩
  exact (Composer.perform_outcome rfl rfl).trans
    (Composer.ofReply_chordText rfl Script.spells_infinite hpositive rfl _ _)

end Studio
