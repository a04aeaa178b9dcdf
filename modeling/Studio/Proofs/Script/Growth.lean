import Studio.Proofs.Script.Invariants
import Studio.Proofs.Script.Programs

/-!
# Scripts that grow

A script that goes on where another stopped makes the actions of the other first
(`actions_of_execute`). `Yields` says what the text of a script amounts to; a longer text that
amounts to something has the actions of the shorter one in front (`prefix_of_yields`). The lines
that were received in full amount to what `interpretReceived` returns, and no line end is behind
them (`yields_of_interpretReceived`), so what was received begins all that comes of the script later
(`interpretReceived_prefix`).
-/

namespace Studio.Script

open Studio.Session (Snapshot)

variable {capability : Capability} {snapshot : Snapshot}

/-- A chain that goes on makes the actions of its first calls first. -/
theorem actions_of_longer_chain {calls longer : List Call} (hcalls : calls <+: longer)
    {state first second : State} (hfirst : runCalls capability snapshot calls state = .ok first)
    (hsecond : runCalls capability snapshot longer state = .ok second) :
    first.actions <+: second.actions := by
  obtain ⟨more, rfl⟩ := hcalls
  rw [runCalls_append, hfirst] at hsecond
  exact actions_of_runCalls hsecond

/-- A script that opens another makes the actions that the other begins with. -/
theorem actions_of_opens {first second : Program} (hopens : Opens first second)
    {state firstEnd secondEnd : State}
    (hfirst : runStatements capability snapshot first state = .ok firstEnd)
    (hsecond : runStatements capability snapshot second state = .ok secondEnd) :
    firstEnd.actions <+: secondEnd.actions := by
  induction hopens generalizing state with
  | nil program =>
      obtain rfl := Except.ok.inj hfirst
      exact actions_of_runStatements hsecond
  | last rest hcalls =>
      obtain ⟨after, hafter, hend⟩ := runStatements_cons_eq_ok.1 hfirst
      obtain ⟨longer, hlonger, hrest⟩ := runStatements_cons_eq_ok.1 hsecond
      obtain rfl := Except.ok.inj hend
      -- Ending a statement leaves the actions as they are; the rest of the script adds to them.
      have hmore : longer.endStatement.actions <+: _ := actions_of_runStatements hrest
      exact (actions_of_longer_chain hcalls hafter hlonger).trans hmore
  | cons statement _ ih =>
      obtain ⟨after, hafter, hfirst⟩ := runStatements_cons_eq_ok.1 hfirst
      obtain ⟨_, hsame, hsecond⟩ := runStatements_cons_eq_ok.1 hsecond
      obtain rfl := Except.ok.inj (hafter.symm.trans hsame)
      exact ih hfirst hsecond

/-- A script makes the actions of any script that opens it first. -/
theorem actions_of_execute {first second : Program} (hopens : Opens first second)
    {firstEnd secondEnd : State} (hfirst : execute capability snapshot first = .ok firstEnd)
    (hsecond : execute capability snapshot second = .ok secondEnd) :
    firstEnd.actions <+: secondEnd.actions :=
  actions_of_opens hopens (execute_eq_ok.1 hfirst).2 (execute_eq_ok.1 hsecond).2

/-! ### Texts -/

/-- A text is that of a script that makes certain actions. -/
def Yields (capability : Capability) (snapshot : Snapshot) (text : List Char)
    (actions : List Action) : Prop :=
  ∃ program state, readProgram text = .ok program ∧
    execute capability snapshot program = .ok state ∧ state.actions = actions

/-- A text that goes on makes the actions of its front part first. -/
theorem prefix_of_yields {part text : List Char} (hpart : part <+: text)
    {first second : List Action} (hfirst : Yields capability snapshot part first)
    (hsecond : Yields capability snapshot text second) : first <+: second := by
  obtain ⟨more, rfl⟩ := hpart
  obtain ⟨_, _, hread, hrun, rfl⟩ := hfirst
  obtain ⟨_, _, hread', hrun', rfl⟩ := hsecond
  exact actions_of_execute (opens_of_readProgram_append hread hread') hrun hrun'

/-- The text of an interpretation yields its actions. -/
theorem yields_of_interpret {source : String} {interpretation : Interpretation}
    (h : interpret capability snapshot source = .ok interpretation) :
    Yields capability snapshot source.toList interpretation.actions := by
  obtain ⟨program, hparse, h⟩ := bind_eq_ok.1 h
  obtain ⟨state, hrun, h⟩ := bind_eq_ok.1 h
  refine ⟨program, state, parse_eq_ok.1 hparse, hrun, ?_⟩
  split at h
  · simp at h
  · obtain rfl := Except.ok.inj h
    rfl

/-! ### Lines -/

/-- The lines that were received in full are what is in front of the last line end. -/
theorem receivedLines?_eq_some {source lines : String} (h : receivedLines? source = some lines) :
    ∃ behind, source.toList = lines.toList ++ '\n' :: behind ∧ '\n' ∉ behind := by
  unfold receivedLines? at h
  split at h
  · next behind before hsplit =>
    obtain rfl := Option.some.inj h
    refine ⟨behind.reverse, ?_, ?_⟩
    · have hsource := congrArg List.reverse (Text.join_splitOnce hsplit)
      rw [List.reverse_reverse] at hsource
      simpa using hsource
    · rw [List.mem_reverse]
      exact Text.not_mem_of_splitOnce hsplit
  · simp at h

/-- Whatever ends at a line end is in front of the last one. -/
theorem prefix_of_not_mem {lines behind part : List Char} (hbehind : '\n' ∉ behind)
    (hpart : part ++ ['\n'] <+: lines ++ '\n' :: behind) :
    part ++ ['\n'] <+: lines ++ ['\n'] := by
  obtain ⟨rest, hrest⟩ := hpart
  rw [List.append_assoc, List.singleton_append] at hrest
  rcases List.append_eq_append_iff.1 hrest with ⟨between, rfl, hbetween⟩ | ⟨between, rfl, hbetween⟩
  · cases between with
    | nil => simp
    | cons c between =>
        obtain ⟨rfl, -⟩ := List.cons.inj hbetween
        exact ⟨between ++ ['\n'], by simp⟩
  · cases between with
    | nil => simp
    | cons c between =>
        -- A part that goes beyond the last line end would have another one behind it.
        obtain ⟨-, rfl⟩ := List.cons.inj hbetween
        exact absurd (by simp) hbehind

/-- What was received in full amounts to the actions of some lines, the last one with its end; no
line end of the text is behind these lines. -/
theorem yields_of_interpretReceived {source : String} {actions : List Action}
    (h : interpretReceived capability snapshot source = some actions) :
    ∃ lines, lines ++ ['\n'] <+: source.toList ∧
      Yields capability snapshot (lines ++ ['\n']) actions ∧
      ∀ part, part ++ ['\n'] <+: source.toList → part ++ ['\n'] <+: lines ++ ['\n'] := by
  unfold interpretReceived at h
  split at h
  · simp at h
  · next lines hlines =>
    obtain ⟨behind, hsource, hbehind⟩ := receivedLines?_eq_some hlines
    rw [hsource]
    split at h
    · simp at h
    · next program hparse =>
      split at h
      · simp at h
      · next state hrun =>
        refine ⟨lines.toList, ⟨behind, by simp⟩, ?_, fun part hpart =>
          prefix_of_not_mem hbehind hpart⟩
        exact ⟨program, state, readProgram_append_lineEnd (parse_eq_ok.1 hparse), hrun,
          Option.some.inj h⟩

/-- The lines of a text that goes on begin with the lines of its front part. -/
theorem prefix_of_interpretReceived {first second : String}
    (hgrows : first.toList <+: second.toList) {actions more : List Action}
    (hfirst : interpretReceived capability snapshot first = some actions)
    (hsecond : interpretReceived capability snapshot second = some more) : actions <+: more := by
  obtain ⟨lines, hlines, hyields, -⟩ := yields_of_interpretReceived hfirst
  obtain ⟨later, -, hlater, hlast⟩ := yields_of_interpretReceived hsecond
  exact prefix_of_yields (hlast lines (hlines.trans hgrows)) hyields hlater

/-- What was received of a script begins what the longer script amounts to. -/
theorem prefix_of_interpret_received {first second : String}
    (hgrows : first.toList <+: second.toList) {actions : List Action}
    (hfirst : interpretReceived capability snapshot first = some actions)
    {interpretation : Interpretation}
    (hsecond : interpret capability snapshot second = .ok interpretation) :
    actions <+: interpretation.actions := by
  obtain ⟨lines, hlines, hyields, -⟩ := yields_of_interpretReceived hfirst
  exact prefix_of_yields (hlines.trans hgrows) hyields (yields_of_interpret hsecond)

/-- Whatever was received of a script begins what is received of it later, and what all of it
amounts to, wherever it is cut. -/
theorem interpretReceived_prefix (capability : Capability) (snapshot : Snapshot)
    {first second : String} (hgrows : first.toList <+: second.toList) {actions : List Action}
    (hfirst : interpretReceived capability snapshot first = some actions) :
    (∀ more, interpretReceived capability snapshot second = some more → actions <+: more) ∧
      ∀ interpretation, interpret capability snapshot second = .ok interpretation →
        actions <+: interpretation.actions :=
  ⟨fun _ => prefix_of_interpretReceived hgrows hfirst,
    fun _ => prefix_of_interpret_received hgrows hfirst⟩

/-- A chain goes on behind the line end up to which it was received first. -/
theorem interpretReceived_prefix_chain :
    let first := "track(name=\"Bass\")\n.ad"
    let second := "track(name=\"Bass\")\n.add_midi()\ntrack()"
    let bass : Action := ⟨Action.Kind.createTrack, [("index", .nat 0), ("name", .string "Bass")]⟩
    let clip : Action := ⟨Action.Kind.addMidi, [("notes", .array []), ("track", .nat 0)]⟩
    let last : Action := ⟨Action.Kind.createTrack, [("index", .nat 1)]⟩
    (first.toList <+: second.toList ∧
      interpretReceived .daw {} first = some [bass] ∧
      interpretReceived .daw {} second = some [bass, clip] ∧
      interpret .daw {} second = .ok ⟨[bass, clip, last], []⟩) ∧
      [bass] <+: [bass, clip] ∧ [bass] <+: [bass, clip, last] := by
  intro first second bass clip last
  have hgrows : first.toList <+: second.toList := by decide
  have hfirst : interpretReceived .daw {} first = some [bass] := by
    have hlines : receivedLines? first = some "track(name=\"Bass\")" := by decide
    have hparse : parse "track(name=\"Bass\")" =
        .ok [⟨⟨"track", [⟨some "name", .string "Bass"⟩]⟩, []⟩] := by
      cbv
    simp only [interpretReceived, hlines, hparse]
    rfl
  have hmore : interpretReceived .daw {} second = some [bass, clip] := by
    have hlines : receivedLines? second = some "track(name=\"Bass\")\n.add_midi()" := by decide
    have hparse : parse "track(name=\"Bass\")\n.add_midi()" =
        .ok [⟨⟨"track", [⟨some "name", .string "Bass"⟩]⟩, [⟨"add_midi", []⟩]⟩] := by
      cbv
    simp only [interpretReceived, hlines, hparse]
    rfl
  have hwhole : interpret .daw {} second = .ok ⟨[bass, clip, last], []⟩ := by
    have hparse : parse "track(name=\"Bass\")\n.add_midi()\ntrack()" =
        .ok [⟨⟨"track", [⟨some "name", .string "Bass"⟩]⟩, [⟨"add_midi", []⟩]⟩,
          ⟨⟨"track", []⟩, []⟩] := by
      cbv
    simp only [interpret, second, hparse]
    rfl
  obtain ⟨hlater, hend⟩ := interpretReceived_prefix .daw {} hgrows hfirst
  exact ⟨⟨hgrows, hfirst, hmore, hwhole⟩, hlater _ hmore, hend _ hwhole⟩

end Studio.Script
