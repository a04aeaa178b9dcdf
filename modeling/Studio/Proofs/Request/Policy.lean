import Mathlib.Data.Set.Subsingleton
import Studio.Proofs.Text.Cutting
import Studio.Request.Classification

/-!
# How keywords and a provider decide a request

The capabilities of a table that a request has a term of are a set (`Mentions`), and so are those
that a provider's reply names (`Answers`). Keywords that are `Certain` decide alone; otherwise one
reply does, together with them (`classify_policy`).
-/

namespace Studio.Request

open Json (readText readRecord)

namespace KeywordTable

/-- A term of the chosen list for the capability occurs in the request, in lowercase. -/
def Mentions (table : KeywordTable) (list : KeywordSet → List String) (request : String)
    (capability : Capability) : Prop :=
  ∃ set, table.set? capability = some set ∧
    ∃ term ∈ list set, term.toList <:+: (Text.lower request).toList

variable {table : KeywordTable} {list : KeywordSet → List String} {request : String}
  {capability : Capability}

/-- A term occurs in a text just when its characters are in a row there. -/
theorem anyOccurs_iff {terms : List String} {text : String} :
    anyOccurs terms text = true ↔ ∃ term ∈ terms, term.toList <:+: text.toList := by
  simp only [anyOccurs, List.any_eq_true, Text.contains_iff]

/-- The capabilities that are selected are those that the request mentions. -/
theorem mem_selected : capability ∈ table.selected list request ↔
    table.Mentions list request capability := by
  rw [selected, List.mem_filter, and_iff_right (Capability.mem_all capability), Mentions,
    Option.any_eq_true]
  simp only [anyOccurs_iff]

/-- No capability is selected twice. -/
theorem nodup_selected : (table.selected list request).Nodup := by
  have hall : Capability.all.Nodup := by decide
  exact List.Pairwise.filter _ hall

end KeywordTable

/-- The keywords decide alone: they select several capabilities, or one and no hint speaks for
another. -/
def Certain (keywords hints : Set Capability) : Prop :=
  keywords.Nontrivial ∨ ∃ capability, keywords = {capability} ∧ hints ⊆ {capability}

/-- What a call for an answer leads to: the capabilities that a valid answer names, the fault of a
reply that is no valid answer, or the fault of the call. -/
inductive Answers : Except Provider.Fault Provider.Reply →
    Except Provider.Fault (Set Capability) → Prop
  | named {reply : Provider.Reply} {answer : Capability → Bool}
      (h : readText (readRecord answerRecord) (Text.trim reply.text).toList = .ok answer) :
      Answers (.ok reply) (.ok {capability | answer capability = true})
  | invalid {reply : Provider.Reply} {fault : Json.Fault}
      (h : readText (readRecord answerRecord) (Text.trim reply.text).toList = .error fault) :
      Answers (.ok reply) (.error (.json (Text.trim reply.text) fault))
  | failed (fault : Provider.Fault) : Answers (.error fault) (.error fault)

/-- The capabilities of a classification, as a set. -/
def Classification.set (classification : Classification) : Set Capability :=
  {capability | capability ∈ classification.capabilities}

/-- The keywords are not enough and are taken together with the answer. -/
inductive Settled (keywords : Set Capability) :
    Except Provider.Fault (Set Capability) → Except Fault Classification → Prop
  | fallback {named : Set Capability} {classification : Classification}
      (hset : classification.set = keywords ∪ named) (hsome : (keywords ∪ named).Nonempty)
      (htier : classification.tier = .fallback) : Settled keywords (.ok named) (.ok classification)
  | outOfScope {named : Set Capability} (hnone : keywords ∪ named = ∅) :
      Settled keywords (.ok named) (.error .outOfScope)
  | kept {fault : Provider.Fault} {classification : Classification}
      (hset : classification.set = keywords) (hsome : keywords.Nonempty)
      (htier : classification.tier = .keywordsAfterFault) :
      Settled keywords (.error fault) (.ok classification)
  | failed {fault : Provider.Fault} (hnone : keywords = ∅) :
      Settled keywords (.error fault) (.error (.classification fault))

/-! ### What the keywords decide -/

/-- Lists that hold what the sets hold tell whether the keywords are certain. -/
theorem certain_iff (keywords hints : List Capability) : keywords.Nodup →
    (Certain {capability | capability ∈ keywords} {capability | capability ∈ hints} ↔
      (match keywords with
        | [] => true
        | [only] => hints.any (· ≠ only)
        | _ => false) = false) := by
  intro hnodup
  match keywords with
  | [] =>
      refine iff_of_false ?_ Bool.noConfusion
      rintro (hseveral | ⟨capability, hone, -⟩)
      · obtain ⟨capability, hmem, -⟩ := hseveral
        exact List.not_mem_nil hmem
      · exact List.not_mem_nil (hone.superset rfl)
  | [only] =>
      have hkeywords : {capability | capability ∈ [only]} = ({only} : Set Capability) := by
        ext capability
        exact List.mem_singleton
      rw [hkeywords]
      constructor
      · rintro (hseveral | ⟨capability, hone, hhints⟩)
        · exact absurd Set.subsingleton_singleton (Set.not_subsingleton_iff.2 hseveral)
        · obtain rfl := Set.singleton_eq_singleton_iff.1 hone
          refine List.any_eq_false.2 fun hint hmem => ?_
          simpa using hhints hmem
      · intro hnone
        refine .inr ⟨only, rfl, fun hint hmem => ?_⟩
        simpa using List.any_eq_false.1 hnone hint hmem
  | first :: second :: rest =>
      refine iff_of_true (.inl ⟨first, ?_, second, ?_, ?_⟩) rfl
      · exact List.mem_cons_self
      · exact List.mem_cons_of_mem _ List.mem_cons_self
      · rintro rfl
        exact (List.nodup_cons.1 hnodup).1 List.mem_cons_self

namespace Classifier

variable (classifier : Classifier) (request : String)

/-- The capabilities that the request has a keyword of. -/
def keywords : Set Capability :=
  {capability | classifier.table.Mentions KeywordSet.keywords request capability}

/-- The capabilities that the request has a hint of. -/
def hints : Set Capability :=
  {capability | classifier.table.Mentions KeywordSet.hints request capability}

/-- The keywords of a request are the capabilities that it was detected to be about. -/
theorem keywords_eq : classifier.keywords request =
    {capability | capability ∈ (classifier.detect request).capabilities} := by
  ext capability
  exact KeywordTable.mem_selected.symm

/-- The hints of a request are the capabilities that were detected beside these. -/
theorem hints_eq : classifier.hints request =
    {capability | capability ∈ (classifier.detect request).hints} := by
  ext capability
  exact KeywordTable.mem_selected.symm

/-- A request is certain just when it was detected to be. -/
theorem certain_iff : Certain (classifier.keywords request) (classifier.hints request) ↔
    (classifier.detect request).uncertain = false := by
  rw [keywords_eq, hints_eq]
  exact Request.certain_iff _ _ KeywordTable.nodup_selected

/-- The provider is not called just when the request is certain. -/
theorem calls_eq_nil : classifier.calls request = [] ↔
    Certain (classifier.keywords request) (classifier.hints request) := by
  rw [certain_iff, calls]
  cases (classifier.detect request).uncertain <;> simp

end Classifier

/-! ### What the answer decides -/

/-- What is read of the outcome of a call is what the call leads to. -/
theorem answers_readAnswer (outcome : Except Provider.Fault Provider.Reply) :
    Answers outcome
      ((outcome.bind readAnswer).map fun named => {capability | capability ∈ named}) := by
  cases outcome with
  | error fault => exact .failed fault
  | ok reply =>
      rw [Except.bind, readAnswer]
      cases hread : readText (readRecord answerRecord) (Text.trim reply.text).toList with
      | error fault => exact .invalid hread
      | ok answer =>
          have hnamed : {capability | capability ∈ Capability.all.filter answer} =
              {capability | answer capability = true} := by
            ext capability
            simp [Capability.mem_all]
          have hanswers := Answers.named hread
          rwa [← hnamed] at hanswers

/-- A call leads to one thing only. -/
theorem Answers.unique {outcome : Except Provider.Fault Provider.Reply}
    {answer other : Except Provider.Fault (Set Capability)} (h : Answers outcome answer)
    (hother : Answers outcome other) : answer = other := by
  cases h with
  | named h =>
      cases hother with
      | named hother => rw [Except.ok.inj (h.symm.trans hother)]
      | invalid hother => cases h.symm.trans hother
  | invalid h =>
      cases hother with
      | named hother => cases h.symm.trans hother
      | invalid hother => rw [Except.error.inj (h.symm.trans hother)]
  | failed fault =>
      cases hother with
      | failed => rfl

/-- The keywords are taken together with what the call led to. -/
theorem settled_settle (detection : Detection) (answer : Except Provider.Fault (List Capability)) :
    Settled {capability | capability ∈ detection.capabilities}
      (answer.map fun named => {capability | capability ∈ named}) (detection.settle answer) := by
  cases answer with
  | error fault =>
      rw [Detection.settle]
      cases hkeywords : detection.capabilities with
      | nil => exact .failed (Set.eq_empty_of_forall_notMem fun _ => List.not_mem_nil)
      | cons first rest => exact .kept rfl ⟨first, List.mem_cons_self⟩ rfl
  | ok named =>
      have hall : {capability | capability ∈ Capability.all.filter fun capability =>
            detection.capabilities.contains capability || named.contains capability} =
          {capability | capability ∈ detection.capabilities} ∪
            {capability | capability ∈ named} := by
        ext capability
        simp [Capability.mem_all]
      rw [Detection.settle]
      split
      · next hempty =>
        rw [List.isEmpty_iff.1 hempty] at hall
        exact .outOfScope
          (hall.symm.trans (Set.eq_empty_of_forall_notMem fun _ => List.not_mem_nil))
      · next hempty =>
        obtain ⟨capability, hmem⟩ := List.exists_mem_of_ne_nil _ (mt List.isEmpty_iff.2 hempty)
        exact .fallback hall ⟨capability, hall.subset hmem⟩ rfl

/-- A classification that settles a request is not empty, and keeps its keywords. -/
theorem Settled.nonempty {keywords : Set Capability}
    {answer : Except Provider.Fault (Set Capability)} {classification : Classification}
    (h : Settled keywords answer (.ok classification)) :
    classification.set.Nonempty ∧ keywords ⊆ classification.set := by
  cases h with
  | fallback hset hsome _ => exact ⟨hset ▸ hsome, hset ▸ Set.subset_union_left⟩
  | kept hset hsome _ => exact ⟨hset ▸ hsome, hset.superset⟩

/-- A request that is certain has a keyword. -/
theorem Certain.nonempty {keywords hints : Set Capability} (h : Certain keywords hints) :
    keywords.Nonempty := by
  rcases h with hseveral | ⟨capability, rfl, -⟩
  · exact hseveral.nonempty
  · exact Set.singleton_nonempty capability

namespace Classifier

variable {classifier : Classifier} {request : String}

/-- A request that is certain is classified by its keywords. -/
theorem classify_of_certain
    (h : Certain (classifier.keywords request) (classifier.hints request)) :
    (classifier.classify request).value =
      .ok ⟨(classifier.detect request).capabilities, .keywords⟩ := by
  rw [certain_iff] at h
  rw [classify, if_neg (Bool.eq_false_iff.1 h)]
  rfl

/-- A request that is not certain is classified by what the provider answers. -/
theorem settled_classify
    (h : ¬ Certain (classifier.keywords request) (classifier.hints request))
    {answer : Except Provider.Fault (Set Capability)}
    (hanswer : Answers (classifier.provider.reply (classifier.call request)).value answer) :
    Settled (classifier.keywords request) answer (classifier.classify request).value := by
  rw [certain_iff, Bool.not_eq_false] at h
  rw [hanswer.unique (answers_readAnswer _), keywords_eq, classify,
    if_pos h]
  exact settled_settle (classifier.detect request) _

/-- Certain keywords decide alone, and exactly then no call is made. Otherwise there is one call,
and the request is settled by what that leads to; nothing else that the provider would say matters.
What is selected is never nothing, and never lacks a capability with a keyword. -/
theorem classify_policy (classifier : Classifier) (request : String) :
    (classifier.calls request).length ≤ 1 ∧
    (classifier.calls request = [] ↔
      Certain (classifier.keywords request) (classifier.hints request)) ∧
    (Certain (classifier.keywords request) (classifier.hints request) →
      ∃ classification, (classifier.classify request).value = .ok classification ∧
        classification.set = classifier.keywords request ∧ classification.tier = .keywords) ∧
    (¬ Certain (classifier.keywords request) (classifier.hints request) →
      (∃ answer, Answers (classifier.provider.reply (classifier.call request)).value answer) ∧
      ∀ answer, Answers (classifier.provider.reply (classifier.call request)).value answer →
        Settled (classifier.keywords request) answer (classifier.classify request).value) ∧
    (∀ classification, (classifier.classify request).value = .ok classification →
      classification.set.Nonempty ∧ classifier.keywords request ⊆ classification.set) ∧
    ∀ provider : Provider,
      (∀ call ∈ classifier.calls request, provider.reply call = classifier.provider.reply call) →
      Classifier.classify { classifier with provider } request = classifier.classify request := by
  refine ⟨classifier.length_calls_le request, calls_eq_nil classifier request, fun hcertain =>
    ⟨_, classify_of_certain hcertain, (keywords_eq classifier request).symm, rfl⟩,
    fun hcertain => ⟨⟨_, answers_readAnswer _⟩, fun _ => settled_classify hcertain⟩,
    fun classification hok => ?_, fun provider hreply => ?_⟩
  · by_cases hcertain : Certain (classifier.keywords request) (classifier.hints request)
    · obtain rfl := Except.ok.inj ((classify_of_certain hcertain).symm.trans hok)
      have hset := keywords_eq classifier request
      exact ⟨hcertain.nonempty.mono hset.subset, hset.subset⟩
    · have hsettled := settled_classify hcertain (answers_readAnswer _)
      rw [hok] at hsettled
      exact hsettled.nonempty
  · have hdetect : Classifier.detect { classifier with provider } request =
        classifier.detect request := rfl
    have hcall : Classifier.call { classifier with provider } request =
        classifier.call request := rfl
    unfold classify
    dsimp only
    rw [hdetect, hcall]
    split
    · next huncertain =>
      -- The one call that is made is the one that the providers agree on.
      have hmem : classifier.call request ∈ classifier.calls request := by
        rw [calls, if_pos huncertain]
        exact List.mem_singleton_self _
      rw [hreply _ hmem]
    · rfl

end Classifier

end Studio.Request
