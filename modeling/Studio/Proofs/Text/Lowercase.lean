import Studio.Proofs.Text.Cutting
import Studio.Text.Case

/-!
# Lowercase texts

No lowercase form has a lowercase form of its own: the runs of characters that have one avoid each
other (`runs_avoid`). So lowering twice is lowering once (`lower_lower`). Blanks have no lowercase
form and are none, so that lowering leaves a trimmed text trimmed (`trim_lower`).
-/

namespace Studio.Text

namespace CaseRun

/-- The characters of the run. -/
def covers (run : CaseRun) (n : Nat) : Bool :=
  run.first ≤ n && n ≤ run.last && (n - run.first) % run.step == 0

/-- The lowercase forms of the run lie before or behind a range. -/
def misses (run : CaseRun) (first last : Nat) : Bool :=
  Nat.blt (run.target + (run.last - run.first)) first || Nat.blt last run.target

/-- The lowercase forms of the run are apart from the characters of another run: they lie before or
behind these, or between them. -/
def avoids (run other : CaseRun) : Bool :=
  run.misses other.first other.last ||
    ((run.step == 2 || run.first == run.last) && other.step == 2 &&
      (run.target + other.first) % 2 == 1)

/-- The lowercase form of a character of a run is no character of a run that it avoids. -/
theorem covers_eq_false_of_avoids {run other : CaseRun} (h : run.avoids other = true) {n : Nat}
    (hn : run.covers n = true) : other.covers (run.target + (n - run.first)) = false := by
  simp only [covers, Bool.and_eq_true, decide_eq_true_eq, beq_iff_eq] at hn
  obtain ⟨⟨hfirst, hlast⟩, hstep⟩ := hn
  simp only [avoids, misses, Nat.blt_eq, Bool.or_eq_true, Bool.and_eq_true, beq_iff_eq] at h
  rw [Bool.eq_false_iff]
  simp only [covers, ne_eq, Bool.and_eq_true, decide_eq_true_eq, beq_iff_eq]
  rintro ⟨⟨hfirst', hlast'⟩, hstep'⟩
  rcases h with (h | h) | ⟨⟨h, htwo⟩, hparity⟩
  · omega
  · omega
  · rw [htwo] at hstep'
    rcases h with h | h
    · rw [h] at hstep
      omega
    · omega

end CaseRun

/-- The dotted capital I, which is the one character with a lowercase form of two characters. -/
def dottedRun : CaseRun := ⟨0x130, 0x130, 1, 0x69⟩

/-- No lowercase form is a character of a run. -/
theorem runs_avoid : lowercaseRuns.all (fun run =>
    (dottedRun :: lowercaseRuns).all fun other => run.avoids other) = true := by
  decide +kernel

/-- The character is no capital letter. -/
def Lowered (c : Char) : Prop :=
  ∀ run ∈ dottedRun :: lowercaseRuns, run.covers c.toNat = false

instance (c : Char) : Decidable (Lowered c) :=
  inferInstanceAs (Decidable (∀ _ ∈ _, _))

/-- The lowercase forms of the runs are characters. -/
theorem runs_valid : ∀ run ∈ lowercaseRuns,
    run.target + (run.last - run.first) < 0xD800 ∨
      0xDFFF < run.target ∧ run.target + (run.last - run.first) < 0x110000 := by
  decide +kernel

/-- The blank characters. -/
def blankRanges : List (Nat × Nat) :=
  [(9, 13), (0x20, 0x20), (0x85, 0x85), (0xA0, 0xA0), (0x1680, 0x1680), (0x2000, 0x200A),
    (0x2028, 0x2029), (0x202F, 0x202F), (0x205F, 0x205F), (0x3000, 0x3000)]

/-- A blank lies in one of the ranges of blanks. -/
theorem exists_blankRange {c : Char} (h : isBlank c = true) :
    ∃ range ∈ blankRanges, range.1 ≤ c.toNat ∧ c.toNat ≤ range.2 := by
  simp only [isBlank, Bool.or_eq_true, Bool.and_eq_true, decide_eq_true_eq, beq_iff_eq] at h
  simp only [blankRanges, List.mem_cons, List.not_mem_nil, or_false, exists_eq_or_imp,
    exists_eq_left]
  omega

/-- No lowercase form is blank. -/
theorem runs_miss_blanks : ∀ run ∈ lowercaseRuns, ∀ range ∈ blankRanges,
    run.misses range.1 range.2 = true := by
  decide +kernel

/-- Among the first characters the capital letters are those from A to Z. -/
theorem runs_ascii : ∀ run ∈ dottedRun :: lowercaseRuns,
    run.first = 0x41 ∧ run.last = 0x5A ∨ 0x80 ≤ run.first := by
  decide +kernel

/-- The characters of ASCII are lowered but for the capital letters. -/
theorem lowered_of_lt {c : Char} (h : c.toNat < 0x80) (hc : c.toNat < 0x41 ∨ 0x5A < c.toNat) :
    Lowered c := by
  intro run hrun
  have hfirst := runs_ascii run hrun
  rw [Bool.eq_false_iff]
  simp only [CaseRun.covers, ne_eq, Bool.and_eq_true, decide_eq_true_eq]
  omega

/-- Lowering a character of ASCII gives a lowered one of ASCII, and no blank but of a blank. -/
theorem toLower_ascii : ∀ n < 0x80, (Char.ofNat n).toLower.toNat < 0x80 ∧
    ((Char.ofNat n).toLower.toNat < 0x41 ∨ 0x5A < (Char.ofNat n).toLower.toNat) ∧
    (n < 0x41 ∨ 0x5A < n → (Char.ofNat n).toLower = Char.ofNat n) ∧
    (isBlank (Char.ofNat n) = false → isBlank (Char.ofNat n).toLower = false) := by
  decide +kernel

/-- Characters of ASCII are lowered by their own rule. -/
theorem lowerChar_of_lt {c : Char} (h : c.toNat < 0x80) : lowerChar c = c.toLower :=
  if_pos h

/-- All other characters are lowered by the first run that covers them. -/
theorem lowerChar_of_le {c : Char} (h : 0x80 ≤ c.toNat) : lowerChar c =
    match lowercaseRuns.find? fun run => run.covers c.toNat with
    | some run => Char.ofNat (run.target + (c.toNat - run.first))
    | none => c :=
  if_neg (Nat.not_lt.2 h)

/-- A character that is no capital letter stays as it is. -/
theorem Lowered.lowerChar_eq {c : Char} (h : Lowered c) : lowerChar c = c := by
  rcases Nat.lt_or_ge c.toNat 0x80 with hn | hn
  · have hascii := (toLower_ascii c.toNat hn).2.2.1
    have hcapital := h ⟨0x41, 0x5A, 1, 0x61⟩ (List.mem_cons_of_mem _ List.mem_cons_self)
    rw [Char.ofNat_toNat] at hascii
    rw [lowerChar_of_lt hn, hascii]
    simp only [CaseRun.covers, Nat.mod_one, Bool.and_eq_false_iff, decide_eq_false_iff_not,
      beq_self_eq_true, Bool.true_eq_false, or_false] at hcapital
    omega
  · have hnone : (lowercaseRuns.find? fun run => run.covers c.toNat) = none :=
      List.find?_eq_none.2 fun run hrun => by simp [h run (List.mem_cons_of_mem _ hrun)]
    rw [lowerChar_of_le hn, hnone]

/-- The lowercase forms of a run are characters. -/
theorem toNat_ofNat_target {run : CaseRun} (hrun : run ∈ lowercaseRuns) {k : Nat}
    (hk : k ≤ run.last - run.first) :
    (Char.ofNat (run.target + k)).toNat = run.target + k := by
  have hvalid := runs_valid run hrun
  rw [Char.ofNat, dif_pos (show Nat.isValidChar (run.target + k) by unfold Nat.isValidChar; omega)]
  rfl

/-- The lowercase form of a character is no capital letter, and no blank where the character is
none. -/
theorem lowered_lowerChar {c : Char} (hc : c ≠ 'İ') :
    Lowered (lowerChar c) ∧ (isBlank c = false → isBlank (lowerChar c) = false) := by
  rcases Nat.lt_or_ge c.toNat 0x80 with hn | hn
  · obtain ⟨hsmall, hlowered, -, hblank⟩ := toLower_ascii c.toNat hn
    rw [Char.ofNat_toNat] at hsmall hlowered hblank
    rw [lowerChar_of_lt hn]
    exact ⟨lowered_of_lt hsmall hlowered, hblank⟩
  · rw [lowerChar_of_le hn]
    cases hfind : lowercaseRuns.find? fun run => run.covers c.toNat with
    | none =>
        refine ⟨fun run hrun => ?_, id⟩
        rcases List.mem_cons.1 hrun with rfl | hrun
        · rw [Bool.eq_false_iff]
          intro hcovers
          simp only [CaseRun.covers, dottedRun, Bool.and_eq_true] at hcovers
          obtain ⟨⟨hleast, hmost⟩, -⟩ := hcovers
          exact hc (Char.toNat_inj.1 (Nat.le_antisymm (of_decide_eq_true hmost)
            (of_decide_eq_true hleast)))
        · simpa using List.find?_eq_none.1 hfind run hrun
    | some run =>
        have hrun := List.mem_of_find?_eq_some hfind
        have hcovers := List.find?_some hfind
        have hk : c.toNat - run.first ≤ run.last - run.first := by
          simp only [CaseRun.covers, Bool.and_eq_true, decide_eq_true_eq] at hcovers
          omega
        have htarget := toNat_ofNat_target hrun hk
        refine ⟨fun other hother => ?_, fun _ => ?_⟩
        · dsimp only
          rw [htarget]
          have havoid := List.all_eq_true.1 (List.all_eq_true.1 runs_avoid run hrun) other hother
          exact CaseRun.covers_eq_false_of_avoids havoid hcovers
        · rw [Bool.eq_false_iff]
          intro hblank
          obtain ⟨range, hrange, hleast, hmost⟩ := exists_blankRange hblank
          have hmisses := runs_miss_blanks run hrun range hrange
          simp only [CaseRun.misses, Nat.blt_eq, Bool.or_eq_true] at hmisses
          dsimp only at hleast hmost
          omega

/-! ### Characters in a text -/

/-- What a character becomes in a text: some characters that are no capital letters, and no blanks
if it is none. -/
structure Lowers (c : Char) (piece : List Char) : Prop where
  ne_nil : piece ≠ []
  lowered : ∀ d ∈ piece, Lowered d
  not_blank : isBlank c = false → ∀ d ∈ piece, isBlank d = false

/-- A lowered character, which is no blank but of a blank, is what a character may become. -/
theorem lowers_singleton {c d : Char} (h : Lowered d ∧ (isBlank c = false → isBlank d = false)) :
    Lowers c [d] where
  ne_nil := List.cons_ne_nil _ _
  lowered := List.forall_mem_singleton.2 h.1
  not_blank hc := List.forall_mem_singleton.2 (h.2 hc)

/-- Lowering a text lowers its first character to a piece, and then the rest. -/
theorem lowerFrom_cons (before rest : List Char) (c : Char) : ∃ piece, Lowers c piece ∧
    lowerFrom before (c :: rest) = piece ++ lowerFrom (c :: before) rest := by
  refine ⟨_, ?_, rfl⟩
  split
  · next hsigma =>
    subst hsigma
    split <;> exact lowers_singleton (by decide +kernel)
  · split
    · next hdotted =>
      subst hdotted
      have hlowered : Lowered 'i' ∧ Lowered '\u0307' := by decide +kernel
      have hblank : isBlank 'i' = false ∧ isBlank '\u0307' = false := by decide
      exact {
        ne_nil := List.cons_ne_nil _ _
        lowered := List.forall_mem_cons.2 ⟨hlowered.1, List.forall_mem_singleton.2 hlowered.2⟩
        not_blank := fun _ =>
          List.forall_mem_cons.2 ⟨hblank.1, List.forall_mem_singleton.2 hblank.2⟩ }
    · next hdotted => exact lowers_singleton (lowered_lowerChar hdotted)

/-- Lowering a text ends with the piece of its last character. -/
theorem lowerFrom_concat (before front : List Char) (c : Char) : ∃ lead piece, Lowers c piece ∧
    lowerFrom before (front ++ [c]) = lead ++ piece := by
  induction front generalizing before with
  | nil =>
      obtain ⟨piece, hpiece, heq⟩ := lowerFrom_cons before [] c
      exact ⟨[], piece, hpiece, heq.trans (List.append_nil piece)⟩
  | cons d front ih =>
      obtain ⟨first, -, heq⟩ := lowerFrom_cons before (front ++ [c]) d
      obtain ⟨lead, piece, hpiece, hrest⟩ := ih (d :: before)
      refine ⟨first ++ lead, piece, hpiece, ?_⟩
      rw [List.cons_append, heq, hrest, List.append_assoc]

/-- A text that was lowered has lowered characters only. -/
theorem lowered_lowerFrom (before s : List Char) : ∀ c ∈ lowerFrom before s, Lowered c := by
  induction s generalizing before with
  | nil => simp [lowerFrom]
  | cons c rest ih =>
      obtain ⟨piece, hpiece, heq⟩ := lowerFrom_cons before rest c
      rw [heq]
      exact List.forall_mem_append.2 ⟨hpiece.lowered, ih (c :: before)⟩

/-- A lowered character is neither the capital sigma nor the dotted capital I. -/
theorem Lowered.ne {c : Char} (h : Lowered c) : c ≠ 'Σ' ∧ c ≠ 'İ' := by
  constructor <;> rintro rfl <;> exact absurd h (by decide +kernel)

/-- Lowering changes nothing in a text of lowered characters. -/
theorem lowerFrom_of_lowered {s : List Char} (h : ∀ c ∈ s, Lowered c) (before : List Char) :
    lowerFrom before s = s := by
  induction s generalizing before with
  | nil => rfl
  | cons c rest ih =>
      obtain ⟨hc, hrest⟩ := List.forall_mem_cons.1 h
      rw [lowerFrom, if_neg hc.ne.1, if_neg hc.ne.2, hc.lowerChar_eq, ih hrest]
      rfl

/-- Lowering twice is lowering once. -/
theorem lower_lower (text : String) : lower (lower text) = lower text := by
  rw [lower, lower, String.toList_ofList, lowerFrom_of_lowered (lowered_lowerFrom [] _)]

/-! ### Trimmed texts -/

/-- The text neither begins nor ends with a blank. -/
def Trimmed (s : List Char) : Prop :=
  (∀ c ∈ s.head?, isBlank c = false) ∧ ∀ c ∈ s.getLast?, isBlank c = false

/-- Where blanks were dropped, the first character is none. -/
theorem isBlank_head?_dropBlank {s : List Char} {c : Char} (h : c ∈ (dropBlank s).head?) :
    isBlank c = false := by
  have hhead := List.head?_dropWhile_not isBlank s
  rw [show (s.dropWhile isBlank).head? = some c from h] at hhead
  exact hhead

/-- A text that was trimmed is trimmed. -/
theorem trimmed_trimList (s : List Char) : Trimmed (trimList s) := by
  constructor
  · intro c hc
    obtain ⟨rest, hrest⟩ := List.head?_eq_some_iff.1 hc
    -- What is left of the trailing blanks begins as the text does.
    have hprefix : trimList s <+: dropBlank s :=
      List.reverse_suffix.1 (by simpa [trimList, dropBlankEnd] using dropBlank_suffix _)
    obtain ⟨back, hback⟩ := hprefix
    rw [hrest, List.cons_append] at hback
    exact isBlank_head?_dropBlank (s := s) (by rw [← hback]; rfl)
  · intro c hc
    rw [trimList, dropBlankEnd, List.getLast?_reverse] at hc
    exact isBlank_head?_dropBlank hc

/-- Where the first character is no blank, dropping blanks changes nothing. -/
theorem dropBlank_of_head? {s : List Char} (h : ∀ c ∈ s.head?, isBlank c = false) :
    dropBlank s = s := by
  cases s with
  | nil => rfl
  | cons c rest => exact List.dropWhile_cons_of_neg (by simp [h c rfl])

/-- Trimming changes nothing in a trimmed text. -/
theorem Trimmed.trimList_eq {s : List Char} (h : Trimmed s) : trimList s = s := by
  rw [trimList, dropBlank_of_head? h.1, dropBlankEnd,
    dropBlank_of_head? (by rw [List.head?_reverse]; exact h.2), List.reverse_reverse]

/-- Lowering keeps a text trimmed. -/
theorem trimmed_lowerFrom {s : List Char} (h : Trimmed s) (before : List Char) :
    Trimmed (lowerFrom before s) := by
  constructor
  · cases s with
    | nil => exact h.1
    | cons c rest =>
        obtain ⟨piece, hpiece, heq⟩ := lowerFrom_cons before rest c
        obtain ⟨d, more, rfl⟩ := List.exists_cons_of_ne_nil hpiece.ne_nil
        rw [heq]
        rintro e he
        obtain rfl := Option.some.inj he
        exact hpiece.not_blank (h.1 c rfl) d List.mem_cons_self
  · rcases List.eq_nil_or_concat' s with rfl | ⟨front, c, rfl⟩
    · exact h.2
    · obtain ⟨lead, piece, hpiece, heq⟩ := lowerFrom_concat before front c
      have hc : isBlank c = false := h.2 c (by simp)
      rw [heq, List.getLast?_append_of_ne_nil _ hpiece.ne_nil]
      exact fun d hd => hpiece.not_blank hc d (List.mem_of_getLast? hd)

/-- A trimmed text is trimmed in lowercase as well. -/
theorem trim_lower (text : String) : trim (lower (trim text)) = lower (trim text) := by
  rw [lower, trim, trim, String.toList_ofList, String.toList_ofList,
    (trimmed_lowerFrom (trimmed_trimList _) []).trimList_eq]

end Studio.Text
