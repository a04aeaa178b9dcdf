import Studio.Proofs.Json.Scanning

/-!
# Numbers in front of more text

A number that is read alone is read in front of more text as well, as long as that text shows where
a value ends (`reads_readNumeral_append`): the digits that are taken stay the same, and neither a
point nor an exponent begins there. A natural number of at most 64 bits is read as it was written
(`reads_readNumeral`).
-/

namespace Studio.Json

open Studio.Number (isDigit digitValue natChars)
open Studio.Text (Rest Tail)

variable {negative : Bool} {digits : Nat} {e : Int} {s rest more : List Char} {value : Numeral}

/-! ### Digits -/

/-- Digits are taken alike with a text behind that begins with none. -/
theorem takeDigits_append (bound n : Nat) (s : List Char) (hmore : digitAhead more = false) :
    (takeDigits bound n (s ++ more)).1 = (takeDigits bound n s).1 ∧
      (takeDigits bound n (s ++ more)).2.val = (takeDigits bound n s).2.val ++ more := by
  induction s generalizing n with
  | nil =>
      cases more with
      | nil => exact ⟨rfl, rfl⟩
      | cons c more =>
          have hc : isDigit c = false := hmore
          simp [takeDigits, hc, Tail.whole]
  | cons c s ih =>
      rw [List.cons_append, takeDigits, takeDigits]
      split
      · exact ih _
      · exact ⟨rfl, rfl⟩

/-- Digits are dropped alike with a text behind that begins with none. -/
theorem dropDigits_append (s : List Char) (hmore : digitAhead more = false) :
    (s ++ more).dropWhile isDigit = s.dropWhile isDigit ++ more := by
  have hstop : more.dropWhile isDigit = more := by
    cases more with
    | nil => rfl
    | cons c more => exact List.dropWhile_cons_of_neg (Bool.eq_false_iff.1 hmore)
  induction s with
  | nil => exact hstop
  | cons c s ih =>
      rw [List.cons_append, List.dropWhile_cons, List.dropWhile_cons]
      split
      · exact ih
      · rfl

/-- Whether a digit comes next does not depend on a text behind that begins with none. -/
theorem digitAhead_append (s : List Char) (hmore : digitAhead more = false) :
    digitAhead (s ++ more) = digitAhead s := by
  cases s with
  | nil => exact hmore
  | cons c s => rfl

/-- Behind a number that ends, there is no digit. -/
theorem Ends.digitAhead (h : Ends more) : digitAhead more = false := by
  cases more with
  | nil => rfl
  | cons c more => exact (noNumeral_of_endsValue (h c rfl)).digit

/-- Behind a number that ends, there is no point. -/
theorem Ends.noPoint (h : Ends more) : ∀ c ∈ more.head?, c ≠ '.' := by
  intro c hc
  exact (noNumeral_of_endsValue (h c hc)).point

/-- Behind a number that ends, there is no exponent. -/
theorem Ends.noExponent (h : Ends more) : ∀ c ∈ more.head?, ¬ (c = 'e' ∨ c = 'E') := by
  intro c hc
  obtain ⟨-, -, hsmall, hlarge⟩ := noNumeral_of_endsValue (h c hc)
  exact not_or_intro hsmall hlarge

/-- A double is read as what its significand and exponent make. -/
theorem reads_floatStep {r : Rest s} : Reads (floatStep negative digits e r) value rest ↔
    ∃ x, assemble negative digits e = some x ∧ value = .float x ∧ rest = r.val := by
  unfold floatStep
  cases assemble negative digits e <;> simp

/-! ### Exponents -/

/-- How the digits of an exponent are read behind its sign: those that fit count, and where more of
them follow, the number is zero. -/
inductive ReadsExponent (negative : Bool) (digits : Nat) (e : Int) (down : Bool) (c : Char)
    (behind : List Char) : Numeral → List Char → Prop
  | zero (hc : isDigit c = true)
      (hlong : digitAhead (takeDigits 0x80000000 (digitValue c) behind).2.val = true)
      (hsmall : digits = 0 ∨ down = true) :
      ReadsExponent negative digits e down c behind
        (.float (if negative then -(Float.ofBits 0) else Float.ofBits 0))
        ((takeDigits 0x80000000 (digitValue c) behind).2.val.dropWhile isDigit)
  | scaled {x : Float} (hc : isDigit c = true)
      (hshort : digitAhead (takeDigits 0x80000000 (digitValue c) behind).2.val = false)
      (hx : assemble negative digits
        (if down then e - (takeDigits 0x80000000 (digitValue c) behind).1
          else e + (takeDigits 0x80000000 (digitValue c) behind).1) = some x) :
      ReadsExponent negative digits e down c behind (.float x)
        (takeDigits 0x80000000 (digitValue c) behind).2.val

/-- The steps in which the digits of an exponent are read. -/
theorem reads_exponent {down : Bool} {c : Char} {behind : List Char} {zero scaled : Rest s}
    {tooLarge noDigit : Fault}
    (hzero : zero.val = (takeDigits 0x80000000 (digitValue c) behind).2.val.dropWhile isDigit)
    (hscaled : scaled.val = (takeDigits 0x80000000 (digitValue c) behind).2.val) :
    Reads (if isDigit c then
        if digitAhead (takeDigits 0x80000000 (digitValue c) behind).2.val then
          if digits != 0 && !down then .error tooLarge
          else .ok (.float (if negative then -(Float.ofBits 0) else Float.ofBits 0), zero)
        else floatStep negative digits
          (if down then e - (takeDigits 0x80000000 (digitValue c) behind).1
            else e + (takeDigits 0x80000000 (digitValue c) behind).1) scaled
      else .error noDigit) value rest ↔
      ReadsExponent negative digits e down c behind value rest := by
  constructor
  · intro h
    by_cases hc : isDigit c = true
    · rw [if_pos hc] at h
      by_cases hlong : digitAhead (takeDigits 0x80000000 (digitValue c) behind).2.val = true
      · rw [if_pos hlong] at h
        by_cases hout : (digits != 0 && !down) = true
        · rw [if_pos hout] at h
          exact absurd h not_reads_error
        · rw [if_neg hout] at h
          obtain ⟨rfl, rfl⟩ := reads_ok.1 h
          rw [hzero]
          exact .zero hc hlong (by simpa [or_iff_not_imp_left] using hout)
      · rw [if_neg hlong] at h
        obtain ⟨x, hx, rfl, rfl⟩ := reads_floatStep.1 h
        rw [hscaled]
        exact .scaled hc (Bool.eq_false_iff.2 hlong) hx
    · rw [if_neg hc] at h
      exact absurd h not_reads_error
  · intro h
    cases h with
    | zero hc hlong hsmall =>
        have hin : ¬ (digits != 0 && !down) = true := by
          rcases hsmall with rfl | rfl <;> simp
        rw [if_pos hc, if_pos hlong, if_neg hin]
        exact reads_ok.2 ⟨rfl, hzero.symm⟩
    | scaled hc hshort hx =>
        rw [if_pos hc, if_neg (Bool.eq_false_iff.1 hshort)]
        exact reads_floatStep.2 ⟨_, hx, rfl, hscaled.symm⟩

/-- Behind a plus, an exponent is read as one that goes up. -/
theorem reads_readExponent_plus {c : Char} {behind : List Char} :
    Reads (readExponent negative digits e ('+' :: c :: behind)) value rest ↔
      ReadsExponent negative digits e false c behind value rest :=
  reads_exponent rfl rfl

/-- Behind a minus, an exponent is read as one that goes down. -/
theorem reads_readExponent_minus {c : Char} {behind : List Char} :
    Reads (readExponent negative digits e ('-' :: c :: behind)) value rest ↔
      ReadsExponent negative digits e true c behind value rest :=
  reads_exponent rfl rfl

/-- Without a sign, an exponent is read as one that goes up. -/
theorem reads_readExponent_unsigned {c : Char} {behind : List Char} (hplus : c ≠ '+')
    (hminus : c ≠ '-') (hs : s = c :: behind) :
    Reads (readExponent negative digits e s) value rest ↔
      ReadsExponent negative digits e false c behind value rest := by
  unfold readExponent
  split
  next down signed hsigned =>
  split at hsigned
  · exact absurd (List.cons.inj hs).1.symm hplus
  · exact absurd (List.cons.inj hs).1.symm hminus
  · cases hsigned
    subst hs
    exact reads_exponent rfl rfl

/-- An exponent has a digit. -/
theorem not_reads_readExponent (h : s = [] ∨ s = ['+'] ∨ s = ['-']) :
    ¬ Reads (readExponent negative digits e s) value rest := by
  rcases h with rfl | rfl | rfl <;> exact not_reads_error

/-- The digits of an exponent are read alike with a text behind that begins with none. -/
theorem ReadsExponent.append {down : Bool} {c : Char} {behind : List Char}
    (h : ReadsExponent negative digits e down c behind value rest)
    (hmore : digitAhead more = false) :
    ReadsExponent negative digits e down c (behind ++ more) value (rest ++ more) := by
  obtain ⟨hnumber, hleft⟩ := takeDigits_append 0x80000000 (digitValue c) behind hmore
  cases h with
  | zero hc hlong hsmall =>
      rw [← dropDigits_append _ hmore, ← hleft]
      exact .zero hc (by rw [hleft, digitAhead_append _ hmore, hlong]) hsmall
  | scaled hc hshort hx =>
      rw [← hleft]
      exact .scaled hc (by rw [hleft, digitAhead_append _ hmore, hshort]) (by rw [hnumber, hx])

/-- An exponent is read alike with a text behind that begins with no digit. -/
theorem reads_readExponent_append (h : Reads (readExponent negative digits e s) value rest)
    (hmore : digitAhead more = false) :
    Reads (readExponent negative digits e (s ++ more)) value (rest ++ more) := by
  cases s with
  | nil => exact absurd h (not_reads_readExponent (.inl rfl))
  | cons c s =>
      by_cases hplus : c = '+'
      · subst hplus
        cases s with
        | nil => exact absurd h (not_reads_readExponent (.inr (.inl rfl)))
        | cons c s => exact reads_readExponent_plus.2 ((reads_readExponent_plus.1 h).append hmore)
      by_cases hminus : c = '-'
      · subst hminus
        cases s with
        | nil => exact absurd h (not_reads_readExponent (.inr (.inr rfl)))
        | cons c s => exact reads_readExponent_minus.2 ((reads_readExponent_minus.1 h).append hmore)
      · exact (reads_readExponent_unsigned hplus hminus rfl).2
          (((reads_readExponent_unsigned hplus hminus rfl).1 h).append hmore)

/-! ### Fractions -/

/-- How the exponent is read that may stand behind the digits, or the number without one. -/
inductive ReadsScaled (negative : Bool) (digits : Nat) (e : Int) :
    List Char → Numeral → List Char → Prop
  | exponent {c : Char} {s rest : List Char} {value : Numeral} (hc : c = 'e' ∨ c = 'E')
      (h : Reads (readExponent negative digits e s) value rest) :
      ReadsScaled negative digits e (c :: s) value rest
  | plain {s : List Char} {x : Float} (hs : ∀ c ∈ s.head?, ¬ (c = 'e' ∨ c = 'E'))
      (h : assemble negative digits e = some x) : ReadsScaled negative digits e s (.float x) s

/-- What stands behind the digits is read alike before any end of a number. -/
theorem ReadsScaled.append (h : ReadsScaled negative digits e s value rest) (hmore : Ends more) :
    ReadsScaled negative digits e (s ++ more) value (rest ++ more) := by
  cases h with
  | exponent hc h => exact .exponent hc (reads_readExponent_append h hmore.digitAhead)
  | plain hs h =>
      refine .plain (fun c hc => ?_) h
      cases s with
      | nil => exact hmore.noExponent c hc
      | cons d s => exact hs c hc

/-- Behind an `e`, small or large, an exponent is read. -/
theorem readsScaled_exponent {c : Char} (hc : c = 'e' ∨ c = 'E') :
    ReadsScaled negative digits e (c :: s) value rest ↔
      Reads (readExponent negative digits e s) value rest := by
  constructor
  · intro h
    cases h with
    | exponent _ h => exact h
    | plain hs _ => exact absurd hc (hs c rfl)
  · exact .exponent hc

/-- Without an `e`, the number is made of what was read. -/
theorem readsScaled_plain (hs : ∀ c ∈ s.head?, ¬ (c = 'e' ∨ c = 'E')) :
    ReadsScaled negative digits e s value rest ↔
      ∃ x, assemble negative digits e = some x ∧ value = .float x ∧ rest = s := by
  constructor
  · intro h
    cases h with
    | exponent hc _ => exact absurd hc (hs _ rfl)
    | plain _ h => exact ⟨_, h, rfl, rfl⟩
  · rintro ⟨x, hx, rfl, rfl⟩
    exact .plain hs hx

/-- A text begins with no exponent if neither letter begins it. -/
theorem noExponent_of_ne (hsmall : ∀ more, s = 'e' :: more → False)
    (hlarge : ∀ more, s = 'E' :: more → False) : ∀ c ∈ s.head?, ¬ (c = 'e' ∨ c = 'E') := by
  intro c hc
  obtain ⟨more, rfl⟩ := List.head?_eq_some_iff.1 hc
  rintro (rfl | rfl)
  · exact hsmall more rfl
  · exact hlarge more rfl

/-- A fraction has a digit, and its digits move the exponent down. -/
theorem reads_readFraction {c : Char} {behind : List Char} :
    Reads (readFraction negative digits e (c :: behind)) value rest ↔
      isDigit c = true ∧
        let taken := takeDigits 0x10000000000000000 digits (c :: behind)
        ReadsScaled negative taken.1 (e - ((c :: behind).length - taken.2.val.length : Nat))
          (behind.dropWhile isDigit) value rest := by
  have hstop : (skipDigits behind).val = behind.dropWhile isDigit := rfl
  unfold readFraction
  by_cases hc : isDigit c = true
  · simp only [hc, if_true, true_and]
    split
    · next hs => rw [reads_widen, ← hstop, hs, readsScaled_exponent (.inl rfl)]
    · next hs => rw [reads_widen, ← hstop, hs, readsScaled_exponent (.inr rfl)]
    · next hsmall hlarge =>
      rw [reads_floatStep, ← hstop, readsScaled_plain (noExponent_of_ne hsmall hlarge)]
  · simp [hc]

/-- A fraction is read alike before any end of a number. -/
theorem reads_readFraction_append (h : Reads (readFraction negative digits e s) value rest)
    (hmore : Ends more) :
    Reads (readFraction negative digits e (s ++ more)) value (rest ++ more) := by
  cases s with
  | nil => exact absurd h not_reads_error
  | cons c s =>
      obtain ⟨hc, h⟩ := reads_readFraction.1 h
      obtain ⟨hnumber, hleft⟩ :=
        takeDigits_append 0x10000000000000000 digits (c :: s) hmore.digitAhead
      have hcount (n k : Nat) : n + more.length - (k + more.length) = n - k := by omega
      rw [List.cons_append, reads_readFraction]
      refine ⟨hc, ?_⟩
      dsimp only
      rw [← List.cons_append, hnumber, hleft, List.length_append, List.length_append, hcount,
        dropDigits_append _ hmore.digitAhead]
      exact h.append hmore

/-! ### Whole numbers -/

/-- The number without a fraction and an exponent. -/
def wholeNumeral (negative : Bool) (digits : Nat) : Numeral :=
  if !negative then .integer digits
  else if digits != 0 && digits ≤ 0x8000000000000000 then .integer (-digits)
  else .float (-(Float.ofNat digits))

/-- How a number is read whose digits that fit have the text `behind` behind them, where `stop` is
behind all its digits. -/
inductive ReadsTail (negative : Bool) (digits : Nat) (behind stop : List Char) :
    Numeral → List Char → Prop
  | fraction {s rest : List Char} {value : Numeral} (hs : stop = '.' :: s)
      (h : Reads (readFraction negative digits (behind.length - stop.length : Nat) s) value rest) :
      ReadsTail negative digits behind stop value rest
  | scaled {rest : List Char} {value : Numeral} (hpoint : ∀ c ∈ stop.head?, c ≠ '.')
      (hscaled : digitAhead behind = true ∨ ∃ c ∈ stop.head?, c = 'e' ∨ c = 'E')
      (h : ReadsScaled negative digits (behind.length - stop.length : Nat) stop value rest) :
      ReadsTail negative digits behind stop value rest
  | whole (hpoint : ∀ c ∈ stop.head?, c ≠ '.')
      (hplain : ∀ c ∈ stop.head?, ¬ (c = 'e' ∨ c = 'E')) (hshort : digitAhead behind = false) :
      ReadsTail negative digits behind stop (wholeNumeral negative digits) behind

section

variable {behind stop : List Char}

/-- Behind a point, a fraction is read. -/
theorem readsTail_point {s : List Char} :
    ReadsTail negative digits behind ('.' :: s) value rest ↔
      Reads (readFraction negative digits (behind.length - ('.' :: s).length : Nat) s) value
        rest := by
  constructor
  · intro h
    cases h with
    | fraction hs h =>
        obtain ⟨-, rfl⟩ := List.cons.inj hs
        exact h
    | scaled hpoint _ _ => exact absurd rfl (hpoint '.' rfl)
    | whole hpoint _ _ => exact absurd rfl (hpoint '.' rfl)
  · exact .fraction rfl

/-- Where digits are left over or an exponent stands, the number is scaled. -/
theorem readsTail_scaled (hpoint : ∀ c ∈ stop.head?, c ≠ '.')
    (hscaled : digitAhead behind = true ∨ ∃ c ∈ stop.head?, c = 'e' ∨ c = 'E') :
    ReadsTail negative digits behind stop value rest ↔
      ReadsScaled negative digits (behind.length - stop.length : Nat) stop value rest := by
  constructor
  · intro h
    cases h with
    | fraction hs _ => exact absurd rfl (hpoint '.' (by rw [hs]; rfl))
    | scaled _ _ h => exact h
    | whole _ hplain hshort =>
        rcases hscaled with hlong | ⟨c, hc, hletter⟩
        · exact absurd hlong (Bool.eq_false_iff.1 hshort)
        · exact absurd hletter (hplain c hc)
  · exact .scaled hpoint hscaled

/-- Without a point, an exponent and digits left over, the number is whole. -/
theorem readsTail_whole (hpoint : ∀ c ∈ stop.head?, c ≠ '.')
    (hplain : ∀ c ∈ stop.head?, ¬ (c = 'e' ∨ c = 'E')) (hshort : digitAhead behind = false) :
    ReadsTail negative digits behind stop value rest ↔
      value = wholeNumeral negative digits ∧ rest = behind := by
  constructor
  · intro h
    cases h with
    | fraction hs _ => exact absurd rfl (hpoint '.' (by rw [hs]; rfl))
    | scaled _ hscaled _ =>
        rcases hscaled with hlong | ⟨c, hc, hletter⟩
        · exact absurd hlong (Bool.eq_false_iff.1 hshort)
        · exact absurd hletter (hplain c hc)
    | whole _ _ _ => exact ⟨rfl, rfl⟩
  · rintro ⟨rfl, rfl⟩
    exact .whole hpoint hplain hshort

end

/-- A text begins with no point if none begins it. -/
theorem noPoint_of_ne (h : ∀ more, s = '.' :: more → False) : ∀ c ∈ s.head?, c ≠ '.' := by
  intro c hc
  obtain ⟨more, rfl⟩ := List.head?_eq_some_iff.1 hc
  rintro rfl
  exact h more rfl

/-- What follows the digits that fit is read by what stands behind all of them. -/
theorem reads_readTail {whole : Rest s} : Reads (readTail negative digits s whole) value rest ↔
    ReadsTail negative digits whole.val (whole.val.dropWhile isDigit) value rest := by
  have hstop : (skipDigits whole.val).val = whole.val.dropWhile isDigit := rfl
  unfold readTail
  dsimp only
  split
  · next hs => rw [reads_widen, ← hstop, hs, readsTail_point]
  · next hs =>
    rw [reads_widen, ← hstop, hs, readsTail_scaled (by simp) (.inr ⟨'e', rfl, .inl rfl⟩),
      readsScaled_exponent (.inl rfl)]
  · next hs =>
    rw [reads_widen, ← hstop, hs, readsTail_scaled (by simp) (.inr ⟨'E', rfl, .inr rfl⟩),
      readsScaled_exponent (.inr rfl)]
  · next hpoint hsmall hlarge =>
    have hnone := noExponent_of_ne hsmall hlarge
    rw [← hstop]
    by_cases hlong : digitAhead whole.val = true
    · rw [if_pos hlong, reads_floatStep, readsTail_scaled (noPoint_of_ne hpoint) (.inl hlong),
        readsScaled_plain hnone]
    · rw [if_neg hlong,
        readsTail_whole (noPoint_of_ne hpoint) hnone (Bool.eq_false_iff.2 hlong), wholeNumeral]
      split_ifs <;> exact reads_ok

/-- What follows the digits is read alike before any end of a number. -/
theorem ReadsTail.append {behind : List Char}
    (h : ReadsTail negative digits behind (behind.dropWhile isDigit) value rest)
    (hmore : Ends more) :
    ReadsTail negative digits (behind ++ more) ((behind ++ more).dropWhile isDigit) value
      (rest ++ more) := by
  have hcount (n k : Nat) : n + more.length - (k + more.length) = n - k := by omega
  have hlength : (behind ++ more).length - (behind.dropWhile isDigit ++ more).length =
      behind.length - (behind.dropWhile isDigit).length := by
    rw [List.length_append, List.length_append, hcount]
  have hhead {P : Char → Prop} (hleft : ∀ c ∈ (behind.dropWhile isDigit).head?, P c)
      (hright : ∀ c ∈ more.head?, P c) :
      ∀ c ∈ (behind.dropWhile isDigit ++ more).head?, P c := by
    revert hleft
    cases behind.dropWhile isDigit with
    | nil => exact fun _ => hright
    | cons d t => exact id
  rw [dropDigits_append _ hmore.digitAhead]
  cases h with
  | fraction hs h =>
      refine .fraction (by rw [hs, List.cons_append]) ?_
      rw [hlength]
      exact reads_readFraction_append h hmore
  | scaled hpoint hscaled h =>
      refine .scaled (hhead hpoint hmore.noPoint) ?_ ?_
      · rw [digitAhead_append _ hmore.digitAhead]
        refine hscaled.imp_right ?_
        rintro ⟨c, hc, hletter⟩
        obtain ⟨t, ht⟩ := List.head?_eq_some_iff.1 hc
        exact ⟨c, by rw [ht]; rfl, hletter⟩
      · rw [hlength]
        exact h.append hmore
  | whole hpoint hplain hshort =>
      refine .whole (hhead hpoint hmore.noPoint) (hhead hplain hmore.noExponent) ?_
      rw [digitAhead_append _ hmore.digitAhead, hshort]

/-- A number is read alike before any end of it. -/
theorem reads_readNumeral_append (h : Reads (readNumeral negative s) value rest)
    (hmore : Ends more) : Reads (readNumeral negative (s ++ more)) value (rest ++ more) := by
  cases s with
  | nil => exact absurd h not_reads_error
  | cons c s =>
      unfold readNumeral at h ⊢
      dsimp only [List.cons_append] at h ⊢
      rw [digitAhead_append _ hmore.digitAhead]
      by_cases hzero : c = '0'
      · rw [if_pos hzero] at h ⊢
        by_cases hlong : digitAhead s = true
        · rw [if_pos hlong] at h
          exact absurd h not_reads_error
        · rw [if_neg hlong, reads_readTail] at h ⊢
          exact h.append hmore
      · rw [if_neg hzero] at h ⊢
        by_cases hc : isDigit c = true
        · rw [if_pos hc] at h ⊢
          obtain ⟨hnumber, hleft⟩ :=
            takeDigits_append 0x10000000000000000 (digitValue c) s hmore.digitAhead
          rw [reads_readTail] at h ⊢
          rw [hnumber, hleft]
          exact h.append hmore
        · rw [if_neg hc] at h
          exact absurd h not_reads_error

/-! ### Natural numbers -/

/-- The digits of a number are those of its tenth part and the last one. -/
theorem natChars_eq (n : Nat) : natChars n =
    if n < 10 then [Nat.digitChar n] else natChars (n / 10) ++ [Nat.digitChar (n % 10)] :=
  Nat.toDigits_eq_if (by decide)

/-- Only zero is written with a zero in front. -/
theorem eq_nil_of_natChars {n : Nat} {digits : List Char} (h : natChars n = '0' :: digits) :
    digits = [] ∧ n = 0 := by
  induction n using Nat.strongRecOn generalizing digits with
  | ind n ih =>
      rw [natChars_eq] at h
      split at h
      · next hn =>
        obtain ⟨hdigit, rfl⟩ := List.cons.inj h
        have hzero : ∀ k < 10, Nat.digitChar k = '0' → k = 0 := by decide
        exact ⟨rfl, hzero n hn hdigit⟩
      · next hn =>
        obtain ⟨c, front, hfront⟩ := List.exists_cons_of_ne_nil (Number.natChars_ne_nil (n / 10))
        rw [hfront, List.cons_append] at h
        obtain ⟨rfl, -⟩ := List.cons.inj h
        have := (ih (n / 10) (by omega) hfront).2
        omega

/-- Digits that are read behind a number only make it larger. -/
theorem le_foldl_digits (digits : List Char) (n : Nat) :
    n ≤ digits.foldl (fun n c => 10 * n + digitValue c) n := by
  induction digits generalizing n with
  | nil => exact Nat.le_refl n
  | cons c digits ih =>
      have hle := ih (10 * n + digitValue c)
      rw [List.foldl_cons]
      omega

/-- Digits of a number that fits are all taken. -/
theorem takeDigits_digits {bound n : Nat} {digits : List Char}
    (hdigits : ∀ c ∈ digits, isDigit c = true)
    (hbound : digits.foldl (fun n c => 10 * n + digitValue c) n < bound) :
    (takeDigits bound n digits).1 = digits.foldl (fun n c => 10 * n + digitValue c) n ∧
      (takeDigits bound n digits).2.val = [] := by
  induction digits generalizing n with
  | nil => exact ⟨rfl, rfl⟩
  | cons c digits ih =>
      obtain ⟨hc, hdigits⟩ := List.forall_mem_cons.1 hdigits
      have hfits : 10 * n + digitValue c < bound :=
        Nat.lt_of_le_of_lt (le_foldl_digits digits _) hbound
      rw [takeDigits, if_pos (by simp [hc, hfits])]
      exact ih hdigits hbound

/-- A natural number of at most 64 bits is read as it was written. -/
theorem reads_readNumeral {n : Nat} (h : n < 0x10000000000000000) (hmore : Ends more) :
    Reads (readNumeral false (natChars n ++ more)) (.integer n) more := by
  obtain ⟨c, digits, hn⟩ := List.exists_cons_of_ne_nil (Number.natChars_ne_nil n)
  -- What follows shows where the number ends, so it is enough to read the number alone.
  suffices halone : Reads (readNumeral false (natChars n)) (.integer n) [] by
    simpa using reads_readNumeral_append halone hmore
  have hdigits : ∀ d ∈ c :: digits, isDigit d = true := by
    rw [← hn]
    exact fun _ => Number.isDigit_of_mem_natChars
  have hvalue : digits.foldl (fun n c => 10 * n + digitValue c) (digitValue c) = n := by
    have hread := Number.ofDigits_natChars n
    rw [hn, Number.ofDigits, List.foldl_cons] at hread
    simpa using hread
  rw [hn]
  have htail : ReadsTail false n [] [] (.integer n) [] := .whole (by simp) (by simp) rfl
  unfold readNumeral
  dsimp only
  by_cases hzero : c = '0'
  · subst hzero
    obtain ⟨rfl, rfl⟩ := eq_nil_of_natChars hn
    rw [if_pos rfl, if_neg (by decide), reads_readTail]
    exact htail
  · have hfits : digits.foldl (fun n c => 10 * n + digitValue c) (digitValue c) <
        0x10000000000000000 := by rwa [hvalue]
    obtain ⟨hnumber, hleft⟩ := takeDigits_digits (List.forall_mem_cons.1 hdigits).2 hfits
    rw [if_neg hzero, if_pos (List.forall_mem_cons.1 hdigits).1, reads_readTail, hnumber, hleft,
      hvalue]
    exact htail

end Studio.Json
