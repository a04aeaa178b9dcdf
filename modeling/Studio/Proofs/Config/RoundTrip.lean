import Studio.Config.Overrides
import Studio.Proofs.Json.Yielding

/-!
# Configurations that are saved and loaded

However a configuration was obtained, its counts and times fit into the numbers they are read as
(`Obtained.bounded`). So it is loaded again from the file that it was saved to, but for the key and
for a temperature that is not finite (`load_save`): such a temperature can be obtained, and no file
keeps it (`load_save_infinite`).
-/

namespace Studio

open Files (Disk)
open Json (Yields Accepts AcceptsMember ReadsBack Spaced readRecord readText)

namespace Provider.Settings

/-- Counts and times fit into the numbers they are read as. -/
structure Bounded (settings : Settings) : Prop where
  tokens : ∀ n, settings.maxOutputTokens = some n → n < 0x100000000
  timeout : settings.timeoutSeconds < Number.indexBound

/-- The default settings are bounded. -/
theorem bounded_default : ({} : Settings).Bounded where
  tokens _ h := nomatch h
  timeout := by decide

/-- Settings that were read are bounded. -/
theorem yields_record : Yields (readRecord record) Bounded := by
  refine Json.yields_readRecord bounded_default fun field hfield => ?_
  simp only [record, List.mem_cons, List.not_mem_nil, or_false] at hfield
  rcases hfield with rfl | rfl | rfl | rfl | rfl | rfl | rfl | rfl
  -- The count of tokens, then the time; the other fields have nothing to do with the bounds.
  case inr.inr.inr.inr.inr.inl =>
    exact (Json.yields_readOpt (Json.yields_readNat "u32" _)).map fun _ h _ hsettings =>
      ⟨h, hsettings.timeout⟩
  case inr.inr.inr.inr.inr.inr.inr =>
    exact (Json.yields_readNat "u64" _).map fun _ h _ hsettings => ⟨hsettings.tokens, h⟩
  all_goals
    exact (Json.yields_true _).map fun _ _ _ hsettings => ⟨hsettings.tokens, hsettings.timeout⟩

/-- What a file keeps of settings: all but the key, and but a temperature that is not finite. -/
def stored (settings : Settings) : Settings :=
  { settings with
    apiKey := none
    temperature := settings.temperature.filter Float32.isFinite }

/-- The temperature of a file is read back, but for one that is not finite. -/
theorem accepts_temperature {temperature : Option Float32}
    (h : ∀ x, temperature = some x → x.isFinite = true → ReadsBack x) :
    Accepts (Json.readOpt Json.readSingle) 0 (Json.opt Json.ofSingle temperature)
      (temperature.filter Float32.isFinite) := by
  cases temperature with
  | none => exact Json.accepts_none _
  | some x =>
      rw [Option.filter_some, Json.opt, Json.ofSingle]
      split
      · next hfinite =>
        have hx := h x rfl hfinite
        exact Json.accepts_some (Json.accepts_single hx) fun _ => Json.single_head hx
      · exact Json.accepts_none _

/-- Bounded settings are read from what is written for them. -/
theorem Bounded.accepts_toJson {settings : Settings} (h : settings.Bounded)
    (hreads : ∀ x, settings.temperature = some x → x.isFinite = true → ReadsBack x) :
    Accepts (readRecord record) 1 settings.toJson settings.stored := by
  have htokens : Accepts (Json.readOpt (Json.readNat "u32" 0x100000000)) 0
      (Json.opt Json.nat settings.maxOutputTokens) settings.maxOutputTokens :=
    Json.accepts_opt (fun n hn => Json.accepts_nat "u32" (h.tokens n hn) (by decide))
      fun _ _ => Json.nat_head
  have heffort : Accepts (Json.readOpt (Json.readTextAs "a string")) 0
      (Json.opt Json.string settings.reasoningEffort) settings.reasoningEffort :=
    Json.accepts_opt (fun text _ => Json.accepts_text "a string" text) fun _ _ => Json.string_head
  have htimeout := Json.accepts_nat "u64" h.timeout (by decide)
  have hmembers : List.Forall₂ (AcceptsMember record 0)
      [("endpoint", .string settings.endpoint), ("model", .string settings.model),
        ("classifier_model", .string settings.classifierModel),
        ("temperature", Json.opt Json.ofSingle settings.temperature),
        ("max_output_tokens", Json.opt Json.nat settings.maxOutputTokens),
        ("reasoning_effort", Json.opt Json.string settings.reasoningEffort),
        ("timeout_secs", .nat settings.timeoutSeconds)] _ :=
    .cons ⟨_, rfl, (Json.accepts_text "a string" settings.endpoint).map _⟩ <|
    .cons ⟨_, rfl, (Json.accepts_text "a string" settings.model).map _⟩ <|
    .cons ⟨_, rfl, (Json.accepts_text "a string" settings.classifierModel).map _⟩ <|
    .cons ⟨_, rfl, (accepts_temperature hreads).map _⟩ <|
    .cons ⟨_, rfl, htokens.map _⟩ <|
    .cons ⟨_, rfl, heffort.map _⟩ <|
    .cons ⟨_, rfl, htimeout.map _⟩ .nil
  exact Json.accepts_record hmembers (by simp) (by simp [record])

end Provider.Settings

namespace Config

/-- Counts and times fit into the numbers they are read as. -/
structure Bounded (config : Config) : Prop where
  provider : config.provider.Bounded
  timeout : ∀ n, config.requestTimeoutSeconds = some n → n < Number.indexBound

/-- The default configuration is bounded. -/
theorem bounded_default : ({} : Config).Bounded where
  provider := Provider.Settings.bounded_default
  timeout n h := by
    obtain rfl := Option.some.inj h
    decide

/-- A configuration that was read is bounded. -/
theorem yields_record : Yields (readRecord record) Bounded := by
  refine Json.yields_readRecord bounded_default fun field hfield => ?_
  simp only [record, List.mem_cons, List.not_mem_nil, or_false] at hfield
  rcases hfield with rfl | rfl | rfl | rfl
  · exact Provider.Settings.yields_record.map fun _ h _ hconfig => ⟨h, hconfig.timeout⟩
  · exact (Json.yields_true _).map fun _ _ _ hconfig => ⟨hconfig.provider, hconfig.timeout⟩
  · exact (Json.yields_readOpt (Json.yields_readNat "u64" _)).map fun _ h _ hconfig =>
      ⟨hconfig.provider, h⟩
  · exact (Json.yields_true _).map fun _ _ _ hconfig => ⟨hconfig.provider, hconfig.timeout⟩

/-- A configuration that was parsed is bounded. -/
theorem bounded_of_parse {path source : String} {config : Config}
    (h : parse path source = .ok config) : config.Bounded := by
  rw [parse] at h
  cases hread : readText (readRecord record) source.toList with
  | error fault =>
      rw [hread] at h
      cases h
  | ok read =>
      rw [hread] at h
      obtain rfl := Except.ok.inj h
      exact yields_record.readText hread

/-! ### Overrides -/

/-- Digits that are read below a bound make a number below it. -/
theorem readDigitsBelow_lt {bound n m : Nat} {digits : List Char} (hn : n < bound)
    (h : Number.readDigitsBelow bound n digits = .ok m) : m < bound := by
  induction digits generalizing n with
  | nil => exact Except.ok.inj h ▸ hn
  | cons c digits ih =>
      rw [Number.readDigitsBelow] at h
      split at h
      · cases h
      · split at h
        · next hlt => exact ih hlt h
        · cases h

/-- A count that is read below a bound is below it. -/
theorem readCount_lt {bound n : Nat} {text : List Char} (hbound : 0 < bound)
    (h : readCount bound text = .ok n) : n < bound := by
  rw [readCount] at h
  cases hread : Number.readNatural bound text with
  | error fault =>
      rw [hread] at h
      cases h
  | ok m =>
      rw [hread] at h
      obtain rfl := Except.ok.inj h
      obtain ⟨digits, hdigits⟩ : ∃ digits : List Char, (if digits.isEmpty then
          .error .notADigit else Number.readDigitsBelow bound 0 digits) = Except.ok m := ⟨_, hread⟩
      split at hdigits
      · cases hdigits
      · exact readDigitsBelow_lt hbound hdigits

/-- An override keeps a property of configurations. -/
def Keeps (override : Override) (P : Config → Prop) : Prop :=
  ∀ ⦃name value : String⦄ ⦃config changed : Config⦄, P config →
    override.apply name value config = .ok changed → P changed

section

variable {P : Config → Prop}

/-- An override with a text keeps what its change does. -/
theorem keeps_override {names : List String} {change : String → Config → Config}
    (h : ∀ value config, P config → P (change value config)) :
    Keeps (override names change) P := by
  intro name value config changed hconfig happly
  obtain rfl := Except.ok.inj happly
  exact h _ config hconfig

/-- An override with a number keeps what its change does for every number that is read. -/
theorem keeps_numberOverride {α : Type} {names : List String}
    {read : List Char → Except ValueFault α} {change : α → Config → Config}
    (h : ∀ text number config, read text = .ok number → P config → P (change number config)) :
    Keeps (numberOverride names read change) P := by
  intro name value config changed hconfig happly
  unfold numberOverride at happly
  dsimp only at happly
  split at happly
  · next number hread =>
    obtain rfl := Except.ok.inj happly
    exact h _ number config hread hconfig
  · cases happly

/-- What every override keeps is kept by all of them. -/
theorem applyAll_elim {environment : Environment} {list : List Override}
    (hlist : ∀ override ∈ list, Keeps override P) {config : Config} (hconfig : P config) :
    P (applyAll environment list config).1 := by
  induction list generalizing config with
  | nil => exact hconfig
  | cons override rest ih =>
      obtain ⟨hoverride, hrest⟩ := List.forall_mem_cons.1 hlist
      rw [applyAll]
      split
      · exact ih hrest hconfig
      · split
        · next happly => exact ih hrest (hoverride hconfig happly)
        · exact hconfig

/-- What all overrides keep holds of the overridden configuration, if it does of the first. -/
theorem overridden_elim {environment : Environment} {start config : Config}
    (hkeeps : ∀ override ∈ overrides, Keeps override P) (hstart : P start)
    (h : overridden environment start = .ok config) : P config := by
  have hall : P (applyAll environment overrides start).1 := applyAll_elim hkeeps hstart
  unfold overridden at h
  split at h
  · next changed happly =>
    obtain rfl := Except.ok.inj h
    rwa [happly] at hall
  · cases h

end

/-- Overrides by numbers read no more than fits. -/
theorem keeps_bounded : ∀ override ∈ overrides, Keeps override Bounded := by
  have hsettings {config : Config} (h : config.Bounded) {settings : Provider.Settings}
      (hprovider : settings.Bounded) : Bounded { config with provider := settings } :=
    ⟨hprovider, h.timeout⟩
  intro override hmem
  simp only [overrides, List.mem_cons, List.not_mem_nil, or_false] at hmem
  rcases hmem with rfl | rfl | rfl | rfl | rfl | rfl | rfl | rfl
  case inr.inr.inr.inr.inr.inl =>
    refine keeps_numberOverride fun text number config hread h =>
      hsettings h ⟨fun n hn => ?_, h.provider.timeout⟩
    obtain rfl := Option.some.inj hn
    exact readCount_lt (by decide) hread
  case inr.inr.inr.inr.inr.inr.inl =>
    exact keeps_numberOverride fun text number config hread h =>
      hsettings h ⟨h.provider.tokens, readCount_lt (by decide) hread⟩
  case inr.inr.inr.inr.inl =>
    exact keeps_numberOverride fun _ _ config _ h =>
      hsettings h ⟨h.provider.tokens, h.provider.timeout⟩
  case inr.inr.inr.inr.inr.inr.inr =>
    exact keeps_override fun _ config h => ⟨h.provider, h.timeout⟩
  all_goals
    exact keeps_override fun _ config h => hsettings h ⟨h.provider.tokens, h.provider.timeout⟩

/-- A configuration that is the default one or was read from a text, with any overrides. -/
inductive Obtained : Config → Prop
  | default : Obtained {}
  | read {path source : String} {config : Config} (h : parse path source = .ok config) :
      Obtained config
  | overridden {environment : Environment} {start config : Config} (hstart : Obtained start)
      (h : overridden environment start = .ok config) : Obtained config

/-- However a configuration was obtained, it is bounded. -/
theorem Obtained.bounded {config : Config} (h : Obtained config) : config.Bounded := by
  induction h with
  | default => exact bounded_default
  | read h => exact bounded_of_parse h
  | overridden _ h ih => exact overridden_elim keeps_bounded ih h

/-! ### Files -/

/-- What a file keeps of a configuration. -/
def stored (config : Config) : Config :=
  { config with provider := config.provider.stored }

/-- A bounded configuration is read from what is written for it. -/
theorem Bounded.accepts_toJson {config : Config} (h : config.Bounded)
    (hreads : ∀ x, config.provider.temperature = some x → x.isFinite = true → ReadsBack x) :
    Accepts (readRecord record) 2 config.toJson config.stored := by
  have hpath : Accepts (Json.readOpt (Json.readTextAs "path string")) 0
      (Json.opt Json.string config.keywordsPath) config.keywordsPath :=
    Json.accepts_opt (fun text _ => Json.accepts_text "path string" text)
      fun _ _ => Json.string_head
  have htimeout : Accepts (Json.readOpt (Json.readNat "u64" Number.indexBound)) 0
      (Json.opt Json.nat config.requestTimeoutSeconds) config.requestTimeoutSeconds :=
    Json.accepts_opt (fun n hn => Json.accepts_nat "u64" (h.timeout n hn) (by decide))
      fun _ _ => Json.nat_head
  have hmembers : List.Forall₂ (AcceptsMember record 1)
      [("provider", config.provider.toJson),
        ("keywords_path", Json.opt Json.string config.keywordsPath),
        ("request_timeout_secs", Json.opt Json.nat config.requestTimeoutSeconds),
        ("streaming", .bool config.streaming)] _ :=
    .cons ⟨_, rfl, (h.provider.accepts_toJson hreads).map _⟩ <|
    .cons ⟨_, rfl, (hpath.mono (Nat.zero_le 1)).map _⟩ <|
    .cons ⟨_, rfl, (htimeout.mono (Nat.zero_le 1)).map _⟩ <|
    .cons ⟨_, rfl, ((Json.accepts_bool config.streaming).mono (Nat.zero_le 1)).map _⟩ .nil
  exact Json.accepts_record hmembers (by simp) (by simp [record])

/-- A bounded configuration is parsed from its own text, up to what a file keeps. -/
theorem Bounded.parse_stored {config : Config} (h : config.Bounded)
    (hreads : ∀ x, config.provider.temperature = some x → x.isFinite = true → ReadsBack x)
    (path : String) : parse path config.text = .ok config.stored := by
  have hspaced : Spaced config.toJson config.text.toList := by
    rw [text, Json.prettyText, String.toList_ofList]
    exact Json.spaced_writeAt _ 0
  rw [parse, (h.accepts_toJson hreads).readText (by decide) hspaced]
  rfl

/-- To save a configuration replaces the file by its text. -/
theorem run_save (config : Config) (path : String) (disk : Disk) :
    (config.save path).run disk =
      (((FileTask.replaceFile (draftPath path) path config.text).run disk).1.mapError (.file path),
        ((FileTask.replaceFile (draftPath path) path config.text).run disk).2) := by
  rw [save, FileTask.run_bind]
  rfl

/-- To load a configuration parses what the file holds. -/
theorem run_load_of_read {disk : Disk} {path source : String} (h : disk.read path = .ok source) :
    ((load path).run disk).1 = parse path source := by
  rw [load, FileTask.run_bind]
  simp only [FileTask.readFile, FileTask.run, h]
  rfl

/-- What is loaded from the file that a configuration was saved to is read from its text. -/
theorem run_load_save {config : Config} {path : String} {disk : Disk}
    (h : ((config.save path).run disk).1 = .ok ()) :
    ((load path).run ((config.save path).run disk).2).1 = parse path config.text := by
  rw [run_save] at h ⊢
  refine run_load_of_read (FileTask.read_replaceFile ?_)
  dsimp only at h
  cases hreplace : ((FileTask.replaceFile (draftPath path) path config.text).run disk).1 with
  | ok => rfl
  | error fault =>
      rw [hreplace] at h
      cases h

/-- Without any variable set nothing is overridden. -/
theorem overridden_of_unset {environment : Environment}
    (h : ∀ name ∈ variableNames, environment name = none) (config : Config) :
    overridden environment config = .ok config := by
  have hall (list : List Override) (hlist : ∀ override ∈ list, ∀ name ∈ override.names,
      environment name = none) : applyAll environment list config = (config, none) := by
    induction list with
    | nil => rfl
    | cons override rest ih =>
        obtain ⟨hoverride, hrest⟩ := List.forall_mem_cons.1 hlist
        have hnone : firstValue environment override.names = none :=
          List.findSome?_eq_none_iff.2 fun name hname => by rw [hoverride name hname]; rfl
        rw [applyAll, hnone]
        exact ih hrest
  rw [overridden, hall overrides fun override hmem name hname =>
    h name (List.mem_flatMap.2 ⟨override, hmem, hname⟩)]

/-- A file keeps all of a configuration but the key just when the temperature is finite. -/
theorem stored_eq_iff (config : Config) :
    config.stored = { config with provider.apiKey := none } ↔
      ∀ x, config.provider.temperature = some x → x.isFinite = true := by
  constructor
  · intro h x hx
    have hkept : config.provider.temperature.filter Float32.isFinite =
        config.provider.temperature := congrArg (fun config => config.provider.temperature) h
    rw [hx, Option.filter_eq_some_iff] at hkept
    exact hkept.2
  · intro h
    have hkept : config.provider.temperature.filter Float32.isFinite =
        config.provider.temperature := by
      cases htemperature : config.provider.temperature with
      | none => rfl
      | some x => exact Option.filter_eq_some_iff.2 ⟨rfl, h x htemperature⟩
    rw [stored, Provider.Settings.stored, hkept]

/-- A configuration that was saved and is loaded again, with no variable set, is the same but for
the key and for a temperature that is not finite. -/
theorem load_save {config : Config} (hobtained : Obtained config)
    (hreads : ∀ x, config.provider.temperature = some x → x.isFinite = true → ReadsBack x)
    {path : String} {disk : Disk} (hsaved : ((config.save path).run disk).1 = .ok ())
    {environment : Environment} (hunset : ∀ name ∈ variableNames, environment name = none) :
    ((load path).run ((config.save path).run disk).2).1.bind (overridden environment) =
        .ok { config with
          provider := { config.provider with
            apiKey := none
            temperature := config.provider.temperature.filter Float32.isFinite } } ∧
      (((load path).run ((config.save path).run disk).2).1.bind (overridden environment) =
          .ok { config with provider.apiKey := none } ↔
        ∀ x, config.provider.temperature = some x → x.isFinite = true) := by
  have hloaded : ((load path).run ((config.save path).run disk).2).1.bind (overridden environment) =
      .ok config.stored := by
    rw [run_load_save hsaved, hobtained.bounded.parse_stored hreads]
    exact overridden_of_unset hunset config.stored
  refine ⟨hloaded, ?_⟩
  rw [hloaded, Except.ok.injEq]
  exact stored_eq_iff config

/-- An environment that sets the temperature alone. -/
def temperatureOnly (value : String) : Environment := fun name =>
  if name = "CADENZA_TEMPERATURE" then some value else none

/-- The default configuration with a temperature. -/
def withTemperature (bits : UInt32) : Config :=
  { provider := { temperature := some (Float32.ofBits bits) } }

/-- With 0.7 as the temperature. -/
theorem obtained_warm : Obtained (withTemperature 0x3F333333) := by
  have h : overridden (temperatureOnly "0.7") {} = .ok (withTemperature 0x3F333333) := rfl
  exact .overridden .default h

/-- With an infinite temperature, which an override may name. -/
theorem obtained_infinite : Obtained (withTemperature 0x7F800000) := by
  have h : overridden (temperatureOnly "inf") {} = .ok (withTemperature 0x7F800000) := rfl
  exact .overridden .default h

/-- The temperature of the witness is read back from its written form. -/
theorem readsBack_warm : ReadsBack (Float32.ofBits 0x3F333333) :=
  ⟨by decide +kernel, rfl⟩

/-- In an empty folder every configuration can be saved. -/
theorem saved_here (config : Config) : ((config.save "config.json").run {}).1 = .ok () :=
  rfl

/-- A temperature of 0.7 is kept by a file. -/
theorem load_save_warm :
    ((load "config.json").run (((withTemperature 0x3F333333).save "config.json").run {}).2).1.bind
      (overridden fun _ => none) = .ok (withTemperature 0x3F333333) := by
  have hreads : ∀ x, (withTemperature 0x3F333333).provider.temperature = some x →
      x.isFinite = true → ReadsBack x := by
    rintro x ⟨⟩ -
    exact readsBack_warm
  have hunset : ∀ name ∈ variableNames, (fun _ => none : Environment) name = none := fun _ _ => rfl
  refine (load_save obtained_warm hreads (saved_here _) hunset).2.2 ?_
  rintro x ⟨⟩
  decide

/-- An infinite temperature is written as the absence of one, and so it is read. -/
theorem load_save_infinite :
    Obtained (withTemperature 0x7F800000) ∧
      (((withTemperature 0x7F800000).save "config.json").run {}).1 = .ok () ∧
      ((load "config.json").run
          (((withTemperature 0x7F800000).save "config.json").run {}).2).1.bind
        (overridden fun _ => none) = .ok {} ∧
      ({} : Config) ≠ { withTemperature 0x7F800000 with provider.apiKey := none } := by
  have hsaved := saved_here (withTemperature 0x7F800000)
  refine ⟨obtained_infinite, hsaved, ?_, fun h => ?_⟩
  · -- Nothing has to be read back, since the temperature is not finite.
    have hreads : ∀ x, (withTemperature 0x7F800000).provider.temperature = some x →
        x.isFinite = true → ReadsBack x := by
      rintro x ⟨⟩ hfinite
      cases hfinite
    rw [run_load_save hsaved, obtained_infinite.bounded.parse_stored hreads]
    exact overridden_of_unset (fun _ _ => rfl) _
  · cases congrArg (fun config => config.provider.temperature) h

end Config

end Studio
