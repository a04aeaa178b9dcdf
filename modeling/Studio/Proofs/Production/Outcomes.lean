import Studio.Proofs.Production.Streaming

/-!
# What comes of a performance

A composer performs in many ways, but a performance either comes to nothing, or it finishes an
interpretation; live, nothing was handed on in the first case (`performLive_cases`). A structural
composer finishes every interpretation, so when it fails it has handed on nothing
(`handed_of_fault`).
-/

namespace Studio.Composer

open Production (Fault Live Ending Receipt)
open Script (Interpretation)
open Session (Snapshot)

variable {composer : Composer} {commission : Commission} {production : Production} {fault : Fault}

/-- A performance at once comes to nothing or finishes an interpretation. -/
theorem perform_cases (composer : Composer) (commission : Commission) :
    (∃ fault, (composer.perform commission).outcome = .error fault) ∨
      ∃ receipt interpretation,
        (composer.perform commission).outcome = composer.finish receipt interpretation := by
  simp only [perform]
  split
  · exact .inl ⟨_, rfl⟩
  · split
    · exact .inl ⟨_, rfl⟩
    · split
      · exact .inl ⟨_, rfl⟩
      · next reply hreply =>
        cases hinterpret : composer.interpret (Production.scriptOf reply.text)
            commission.snapshot with
        | error fault => exact .inl ⟨fault, ofReply_of_fault reply hinterpret⟩
        | ok interpretation =>
            refine .inr ⟨{ script := Production.scriptOf reply.text, usage := reply.usage },
              interpretation, ?_⟩
            simp only [ofReply, hinterpret]
            rfl

/-- Keeping what was handed on finishes an interpretation, unless that is nothing. -/
theorem keepSent_cases (composer : Composer) (live : Live) (receipt : Receipt)
    (notices : List Script.Notice) :
    live.sent = [] ∧ composer.keepSent live receipt notices = .error .cancelled ∨
      ∃ interpretation, composer.keepSent live receipt notices =
        composer.finish receipt interpretation := by
  unfold keepSent
  split
  · next hsent => exact .inl ⟨List.isEmpty_iff.1 hsent, rfl⟩
  · exact .inr ⟨_, rfl⟩

/-- Listening ends with nothing handed on and a fault, or with an interpretation that is
finished. -/
theorem conclude_cases (composer : Composer) (snapshot : Snapshot) (live : Live) (time : Nat)
    (ending : Ending) :
    (∃ fault, composer.conclude snapshot live time ending = ([], .error fault)) ∨
      ∃ receipt interpretation, (composer.conclude snapshot live time ending).2 =
        composer.finish receipt interpretation := by
  have hkept (receipt : Receipt) (notices : List Script.Notice) :
      (∃ fault, (live.sent, composer.keepSent live receipt notices) = ([], .error fault)) ∨
        ∃ used interpretation, (live.sent, composer.keepSent live receipt notices).2 =
          composer.finish used interpretation :=
    (keepSent_cases composer live receipt notices).imp
      (fun ⟨hsent, hkeep⟩ => ⟨.cancelled, by rw [hsent, hkeep]⟩)
      fun ⟨interpretation, hkeep⟩ => ⟨receipt, interpretation, hkeep⟩
  cases ending with
  | cancelled | silent => exact hkept _ _
  | failed fault =>
      simp only [conclude]
      split
      · exact .inl ⟨_, rfl⟩
      · exact hkept _ _
  | completed text usage =>
      simp only [conclude]
      split
      · split
        · exact .inl ⟨_, rfl⟩
        · exact hkept _ _
      · exact .inr ⟨_, _, rfl⟩

/-- A live performance comes to nothing, with nothing handed on, or finishes an interpretation. -/
theorem performLive_cases (composer : Composer) (commission : Commission) :
    (∃ fault, (composer.performLive commission).outcome = .error fault) ∧
        (composer.performLive commission).handed = [] ∨
      ∃ receipt interpretation,
        (composer.performLive commission).outcome = composer.finish receipt interpretation := by
  simp only [performLive]
  split
  · exact .inl ⟨⟨_, rfl⟩, rfl⟩
  · split
    · exact .inl ⟨⟨_, rfl⟩, rfl⟩
    · split
      · exact .inl ⟨⟨_, rfl⟩, rfl⟩
      · refine (conclude_cases composer _ _ _ _).imp ?_ id
        rintro ⟨fault, hconclude⟩
        exact ⟨⟨fault, congrArg Prod.snd hconclude⟩, congrArg Prod.fst hconclude⟩

/-- A production names the capability of its composer. -/
theorem capability_of_finish {receipt : Receipt} {interpretation : Interpretation}
    (h : composer.finish receipt interpretation = .ok production) :
    production.diagnostics.capability = composer.capability := by
  unfold finish at h
  split at h
  · cases h
  · obtain rfl := Except.ok.inj h
    rfl

/-- A production names the capability of its composer. -/
theorem capability_of_perform (h : (composer.perform commission).outcome = .ok production) :
    production.diagnostics.capability = composer.capability := by
  rcases perform_cases composer commission with ⟨fault, hfault⟩ | ⟨_, _, hfinish⟩
  · cases hfault.symm.trans h
  · exact capability_of_finish (hfinish.symm.trans h)

/-- A live production names the capability of its composer. -/
theorem capability_of_performLive (h : (composer.performLive commission).outcome = .ok production) :
    production.diagnostics.capability = composer.capability := by
  rcases performLive_cases composer commission with ⟨⟨fault, hfault⟩, -⟩ | ⟨_, _, hfinish⟩
  · cases hfault.symm.trans h
  · exact capability_of_finish (hfinish.symm.trans h)

/-- A structural composer that fails has handed on nothing: what was handed on is kept, and a
structural interpretation is always finished. -/
theorem handed_of_fault (hcapability : composer.capability = .daw)
    (h : (composer.performLive commission).outcome = .error fault) :
    (composer.performLive commission).handed = [] := by
  rcases performLive_cases composer commission with
    ⟨-, hhanded⟩ | ⟨receipt, interpretation, hfinish⟩
  · exact hhanded
  · obtain ⟨production, hproduction, -⟩ := finish_of_structural hcapability receipt interpretation
    cases (hfinish.trans hproduction).symm.trans h

end Studio.Composer
