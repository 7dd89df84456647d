import Mathlib.Data.List.TakeWhile
import RecordRing.Document.Scan

/-!
# Written numbers

A natural number is written with its decimal digits, the first of which is not a zero unless it is
the only one.  A numeral stands for a natural number exactly if it is written like this and the
number fits into a word (`scanNumeral_eq_natural_iff`): a numeral with a sign, a fraction, an
exponent or too many digits stands for none.
-/

namespace RecordRing.Document

variable {chars digits other rest left : List Char} {c : Char} {n d value : Nat}

/-- A numeral is complete where neither a digit nor a fraction nor an exponent follows. -/
def EndsNumeral (rest : List Char) : Prop :=
  ∀ c ∈ rest.head?, c.isDigit = false ∧ c ≠ '.' ∧ c ≠ 'e' ∧ c ≠ 'E'

/-! ## Digits -/

theorem isDigit_iff : c.isDigit = true ↔ '0' ≤ c ∧ c ≤ '9' := by
  simp only [Char.isDigit, Bool.and_eq_true, decide_eq_true_eq]
  exact Iff.rfl

theorem digit?_of_isDigit (digit : c.isDigit = true) : digit? c = some (c.toNat - '0'.toNat) := by
  rw [digit?, if_pos (isDigit_iff.1 digit)]

theorem digit?_of_not_isDigit (other : c.isDigit = false) : digit? c = none := by
  rw [digit?, if_neg]
  rw [← isDigit_iff, other]
  exact Bool.false_ne_true

theorem isSome_digit? (c : Char) : (digit? c).isSome = c.isDigit := by
  cases h : c.isDigit with
  | true => rw [digit?_of_isDigit h, Option.isSome_some]
  | false => rw [digit?_of_not_isDigit h, Option.isSome_none]

/-- A digit is the character of its value. -/
theorem digitChar_of_isDigit (digit : c.isDigit = true) :
    c.toNat - '0'.toNat < 10 ∧ (c.toNat - '0'.toNat).digitChar = c := by
  obtain ⟨hlow, hhigh⟩ := isDigit_iff.1 digit
  have hlow : 48 ≤ c.toNat := UInt32.le_iff_toNat_le.1 hlow
  have hhigh : c.toNat ≤ 57 := UInt32.le_iff_toNat_le.1 hhigh
  have hsmall : c.toNat - '0'.toNat < 10 := by
    show c.toNat - 48 < 10
    omega
  refine ⟨hsmall, Char.toNat_inj.1 ?_⟩
  rw [Nat.toNat_digitChar_of_lt_ten hsmall]
  show 48 + (c.toNat - 48) = c.toNat
  omega

theorem eq_zero_of_isDigit (digit : c.isDigit = true) (zero : c.toNat - '0'.toNat = 0) :
    c = '0' := by
  have hchar := (digitChar_of_isDigit digit).2
  rw [zero] at hchar
  exact hchar.symm

/-- Further digits of a number are written behind it. -/
theorem toDigits_append (some : 0 < n) (numeric : ∀ c ∈ digits, c.isDigit = true) :
    Nat.toDigits 10 n ++ digits = Nat.toDigits 10 (Nat.ofDigitChars 10 digits n) := by
  induction digits generalizing n with
  | nil => rw [List.append_nil, Nat.ofDigitChars_nil]
  | cons c digits ih =>
      obtain ⟨hsmall, hchar⟩ := digitChar_of_isDigit (numeric c (List.mem_cons_self ..))
      have hlonger : Nat.toDigits 10 n ++ [c] =
          Nat.toDigits 10 (10 * n + (c.toNat - '0'.toNat)) := by
        rw [← Nat.toDigits_append_toDigits (by decide) some hsmall,
          Nat.toDigits_of_lt_base hsmall, hchar]
      rw [List.append_cons, hlonger, Nat.ofDigitChars_cons]
      exact ih (by omega) fun c hc => numeric c (List.mem_cons_of_mem _ hc)

/-- The digits of a number other than zero do not begin with a zero. -/
theorem toDigits_eq_cons (some : 0 < n) :
    ∃ c digits, Nat.toDigits 10 n = c :: digits ∧ c ≠ '0' := by
  induction n using Nat.strongRecOn with
  | ind n ih =>
      rcases Nat.lt_or_ge n 10 with hsmall | hlarge
      · refine ⟨n.digitChar, [], Nat.toDigits_of_lt_base hsmall, fun hzero => ?_⟩
        exact Nat.ne_of_gt some (Nat.digitChar_eq_zero.1 hzero)
      · obtain ⟨c, digits, hdigits, hc⟩ := ih (n / 10) (by omega) (by omega)
        exact ⟨c, digits ++ [(n % 10).digitChar],
          by rw [Nat.toDigits_of_base_le (by decide) hlarge, hdigits, List.cons_append], hc⟩

theorem isDigit_of_mem_toDigits (mem : c ∈ Nat.toDigits 10 n) : c.isDigit = true :=
  Nat.isDigit_of_mem_toDigits (by decide) (by decide) mem

/-- The digits in front of what ends a numeral are determined. -/
theorem digits_append_inj (numeric : ∀ c ∈ digits, c.isDigit = true)
    (numeric' : ∀ c ∈ other, c.isDigit = true) (ends : EndsNumeral rest) (ends' : EndsNumeral left)
    (same : digits ++ rest = other ++ left) : digits = other ∧ rest = left := by
  have hstops (tail : List Char) (ends : EndsNumeral tail) : tail.takeWhile Char.isDigit = [] := by
    cases tail with
    | nil => rfl
    | cons c tail => exact List.takeWhile_cons_of_neg (by rw [(ends c rfl).1]; exact nofun)
  have hfront := congrArg (List.takeWhile Char.isDigit) same
  rw [List.takeWhile_append_of_pos numeric, List.takeWhile_append_of_pos numeric',
    hstops rest ends, hstops left ends', List.append_nil, List.append_nil] at hfront
  subst hfront
  exact ⟨rfl, List.append_cancel_left same⟩

/-- A written number in front of what ends a numeral is determined. -/
theorem toDigits_append_inj {m : Nat} (ends : EndsNumeral rest) (ends' : EndsNumeral left)
    (same : Nat.toDigits 10 n ++ rest = Nat.toDigits 10 m ++ left) : n = m ∧ rest = left := by
  obtain ⟨hdigits, hrest⟩ := digits_append_inj (fun _ => isDigit_of_mem_toDigits)
    (fun _ => isDigit_of_mem_toDigits) ends ends' same
  refine ⟨?_, hrest⟩
  rw [← Nat.ofDigitChars_ten_toDigits (n := n), hdigits, Nat.ofDigitChars_ten_toDigits]

/-! ## Numerals that stand for no natural number -/

/-- A scan has not come to a natural number. -/
def NoNatural (scan : Scan Numeral) : Prop := ∀ n left, scan ≠ .ok (.natural n, left)

theorem noNatural_error (flaw : Flaw) : NoNatural (.error flaw) := nofun

theorem noNatural_other (rest : List Char) : NoNatural (.ok (.other, rest)) := nofun

theorem noNatural_endNumeral (significand : Nat) (exponent : Int) (rest : List Char) :
    NoNatural (endNumeral significand exponent rest) := by
  rw [endNumeral.eq_def]
  split
  · split
    · exact noNatural_error _
    · exact noNatural_other _
  · exact noNatural_other _

theorem noNatural_scanExponentDigits (significand : Nat) (start : Int) (positive : Bool)
    (spelled : Nat) (chars : List Char) :
    NoNatural (scanExponentDigits significand start positive spelled chars) := by
  induction chars generalizing spelled with
  | nil => exact noNatural_endNumeral _ _ _
  | cons c rest ih =>
      rw [scanExponentDigits]
      split
      · exact noNatural_endNumeral _ _ _
      · split
        · split
          · exact noNatural_error _
          · exact noNatural_other _
        · exact ih _

theorem noNatural_scanExponent (significand : Nat) (start : Int) (chars : List Char) :
    NoNatural (scanExponent significand start chars) := by
  have hfirst (positive : Bool) (chars : List Char) :
      NoNatural (scanExponentDigit significand start positive chars) := by
    cases chars with
    | nil => exact noNatural_error _
    | cons c rest =>
        rw [scanExponentDigit]
        split
        · exact noNatural_error _
        · exact noNatural_scanExponentDigits _ _ _ _ _
  rw [scanExponent.eq_def]
  split
  · exact hfirst true _
  · exact hfirst false _
  · exact hfirst true _

theorem noNatural_afterFraction (significand : Nat) (exponent : Int) (chars : List Char) :
    NoNatural (afterFraction significand exponent chars) := by
  rw [afterFraction.eq_def]
  split
  · exact noNatural_scanExponent _ _ _
  · exact noNatural_scanExponent _ _ _
  · exact noNatural_endNumeral _ _ _

theorem noNatural_scanFraction (significand : Nat) (before : Int) (count : Nat)
    (chars : List Char) : NoNatural (scanFraction significand before count chars) := by
  induction chars generalizing significand count with
  | nil =>
      rw [scanFraction]
      split
      · exact noNatural_error _
      · exact noNatural_afterFraction _ _ _
  | cons c rest ih =>
      rw [scanFraction]
      split
      · split
        · exact noNatural_error _
        · exact noNatural_afterFraction _ _ _
      · split
        · exact ih _ _
        · exact noNatural_afterFraction _ _ _

theorem noNatural_scanLongNumber (significand exponent : Nat) (chars : List Char) :
    NoNatural (scanLongNumber significand exponent chars) := by
  induction chars generalizing exponent with
  | nil => exact noNatural_endNumeral _ _ _
  | cons c rest ih =>
      rw [scanLongNumber.eq_def]
      split
      · exact noNatural_scanFraction _ _ _ _
      · exact noNatural_scanExponent _ _ _
      · exact noNatural_scanExponent _ _ _
      · rename_i heq
        cases heq
      · rename_i heq
        cases heq
        split
        · exact ih _
        · exact noNatural_endNumeral _ _ _

/-! ## Numerals that stand for a natural number -/

/-- Behind the last digit of a natural number nothing of a numeral follows. -/
theorem afterDigits_eq_natural_iff (stops : ∀ c ∈ chars.head?, c.isDigit = false) :
    afterDigits false value chars = .ok (.natural n, left) ↔
      n = value ∧ left = chars ∧ EndsNumeral chars := by
  rw [afterDigits.eq_def]
  split
  · rename_i rest
    refine ⟨fun h => absurd h (noNatural_scanFraction value 0 0 rest _ _), fun h => ?_⟩
    exact absurd rfl (h.2.2 '.' rfl).2.1
  · rename_i rest
    refine ⟨fun h => absurd h (noNatural_scanExponent value 0 rest _ _), fun h => ?_⟩
    exact absurd rfl (h.2.2 'e' rfl).2.2.1
  · rename_i rest
    refine ⟨fun h => absurd h (noNatural_scanExponent value 0 rest _ _), fun h => ?_⟩
    exact absurd rfl (h.2.2 'E' rfl).2.2.2
  · rename_i hpoint hsmall hlarge
    have hends : EndsNumeral chars := fun c hc => by
      obtain ⟨rest, rfl⟩ : ∃ rest, chars = c :: rest := List.head?_eq_some_iff.1 hc
      refine ⟨stops c rfl, ?_, ?_, ?_⟩ <;> rintro rfl
      · exact hpoint rest rfl
      · exact hsmall rest rfl
      · exact hlarge rest rfl
    simp only [Bool.false_eq_true, if_false, Except.ok.injEq, Prod.mk.injEq, Numeral.natural.injEq]
    exact ⟨fun h => ⟨h.1.symm, h.2.symm, hends⟩, fun h => ⟨h.1.symm, h.2.1.symm⟩⟩

/-- The rest of a numeral: further digits, with which a number goes on to another one, and what
follows the numeral. -/
def Continues (value : Nat) (chars : List Char) (n : Nat) (left : List Char) : Prop :=
  ∃ digits, chars = digits ++ left ∧ (∀ c ∈ digits, c.isDigit = true) ∧ EndsNumeral left ∧
    n = Nat.ofDigitChars 10 digits value

theorem continues_iff_of_stops (stops : ∀ c ∈ chars.head?, c.isDigit = false) :
    Continues value chars n left ↔ n = value ∧ left = chars ∧ EndsNumeral chars := by
  constructor
  · rintro ⟨digits, rfl, hnumeric, hends, rfl⟩
    cases digits with
    | nil => exact ⟨rfl, rfl, hends⟩
    | cons c digits =>
        have hdigit := hnumeric c (List.mem_cons_self ..)
        rw [stops c rfl] at hdigit
        cases hdigit
  · rintro ⟨rfl, rfl, hends⟩
    exact ⟨[], rfl, nofun, hends, rfl⟩

theorem continues_cons_iff (digit : c.isDigit = true) :
    Continues value (c :: rest) n left ↔
      Continues (10 * value + (c.toNat - '0'.toNat)) rest n left := by
  constructor
  · rintro ⟨digits, hsplit, hnumeric, hends, rfl⟩
    cases digits with
    | nil =>
        rw [List.nil_append] at hsplit
        have hstops := (hends c (by rw [← hsplit]; rfl)).1
        rw [digit] at hstops
        cases hstops
    | cons first digits =>
        obtain ⟨rfl, rfl⟩ := List.cons.inj hsplit
        refine ⟨digits, rfl, fun x hx => hnumeric x (List.mem_cons_of_mem _ hx), hends, ?_⟩
        rw [Nat.ofDigitChars_cons]
  · rintro ⟨digits, rfl, hnumeric, hends, rfl⟩
    refine ⟨c :: digits, rfl, ?_, hends, ?_⟩
    · rintro x (_ | ⟨_, hx⟩)
      · exact digit
      · exact hnumeric x hx
    · rw [Nat.ofDigitChars_cons]

/-- Digits make a number greater. -/
theorem Continues.le (continues : Continues value chars n left) : value ≤ n := by
  obtain ⟨digits, -, -, -, rfl⟩ := continues
  induction digits generalizing value with
  | nil => exact Nat.le_refl _
  | cons c digits ih =>
      rw [Nat.ofDigitChars_cons]
      exact Nat.le_trans (by omega) ih

/-- The digits of a number are taken up to the end of the numeral, and the number has to fit into a
word. -/
theorem scanDigits_eq_natural_iff (fits : value < UInt64.size) :
    scanDigits false value chars = .ok (.natural n, left) ↔
      Continues value chars n left ∧ n < UInt64.size := by
  have hends (chars : List Char) (value : Nat) (fits : value < UInt64.size)
      (stops : ∀ c ∈ chars.head?, c.isDigit = false) :
      afterDigits false value chars = .ok (.natural n, left) ↔
        Continues value chars n left ∧ n < UInt64.size := by
    rw [afterDigits_eq_natural_iff stops, continues_iff_of_stops stops]
    exact ⟨fun h => ⟨h, h.1 ▸ fits⟩, And.left⟩
  induction chars generalizing value with
  | nil => exact hends [] value fits nofun
  | cons c rest ih =>
      rw [scanDigits]
      cases hc : c.isDigit with
      | false =>
          rw [digit?_of_not_isDigit hc]
          exact hends (c :: rest) value fits fun d hd => Option.some.inj hd ▸ hc
      | true =>
          rw [digit?_of_isDigit hc, continues_cons_iff hc, Nat.mul_comm 10 value]
          simp only []
          split
          · rename_i hfits
            exact ih hfits
          · rename_i hlong
            refine ⟨fun h => absurd h (noNatural_scanLongNumber value 1 rest _ _), ?_⟩
            rintro ⟨hcontinues, hsmall⟩
            exact absurd (Nat.lt_of_le_of_lt hcontinues.le hsmall) hlong

/-- A number is written with a first digit other than zero and further ones. -/
theorem toDigits_append_iff_continues (digit : c.isDigit = true) (some : c ≠ '0') :
    c :: rest = Nat.toDigits 10 n ++ left ∧ EndsNumeral left ↔
      Continues (c.toNat - '0'.toNat) rest n left := by
  obtain ⟨hsmall, hchar⟩ := digitChar_of_isDigit digit
  have hpos : 0 < c.toNat - '0'.toNat :=
    Nat.pos_of_ne_zero fun hzero => some (eq_zero_of_isDigit digit hzero)
  constructor
  · rintro ⟨hsplit, hends⟩
    have hcontinues : Continues 0 (c :: rest) n left :=
      ⟨Nat.toDigits 10 n, hsplit, fun _ => isDigit_of_mem_toDigits, hends,
        Nat.ofDigitChars_ten_toDigits.symm⟩
    rwa [continues_cons_iff digit, Nat.mul_zero, Nat.zero_add] at hcontinues
  · rintro ⟨digits, rfl, hnumeric, hends, rfl⟩
    refine ⟨?_, hends⟩
    rw [← toDigits_append hpos hnumeric, Nat.toDigits_of_lt_base hsmall, hchar]
    rfl

/-- A written number begins with a digit. -/
theorem isDigit_of_cons_eq (split : c :: rest = Nat.toDigits 10 n ++ left) : c.isDigit = true := by
  cases hdigits : Nat.toDigits 10 n with
  | nil => exact absurd hdigits Nat.toDigits_ne_nil
  | cons first digits =>
      rw [hdigits, List.cons_append, List.cons.injEq] at split
      obtain ⟨rfl, -⟩ := split
      apply isDigit_of_mem_toDigits
      rw [hdigits]
      exact List.mem_cons_self ..

/-- A number whose first digit is a zero is zero. -/
theorem zero_cons_eq_iff : '0' :: rest = Nat.toDigits 10 n ++ left ↔ n = 0 ∧ left = rest := by
  constructor
  · intro hsplit
    rcases Nat.eq_zero_or_pos n with rfl | hpos
    · exact ⟨rfl, (List.cons.inj hsplit).2.symm⟩
    · obtain ⟨c, digits, hdigits, hc⟩ := toDigits_eq_cons hpos
      rw [hdigits, List.cons_append, List.cons.injEq] at hsplit
      exact absurd hsplit.1.symm hc
  · rintro ⟨rfl, rfl⟩
    rfl

/-- A numeral reads as a natural number exactly if this number is written there and fits into a
word. -/
theorem scanNumeral_eq_natural_iff :
    scanNumeral false chars = .ok (.natural n, left) ↔
      n < UInt64.size ∧ chars = Nat.toDigits 10 n ++ left ∧ EndsNumeral left := by
  rw [scanNumeral.eq_def]
  split
  · -- no digit is left
    refine ⟨nofun, fun h => ?_⟩
    exact absurd (List.append_eq_nil_iff.1 h.2.1.symm).1 Nat.toDigits_ne_nil
  · -- a zero stands alone
    rename_i rest
    rw [zero_cons_eq_iff]
    have hzero : n < UInt64.size ∧ (n = 0 ∧ left = rest) ∧ EndsNumeral left ↔
        n = 0 ∧ left = rest ∧ EndsNumeral rest := by
      constructor
      · rintro ⟨-, ⟨rfl, rfl⟩, hends⟩
        exact ⟨rfl, rfl, hends⟩
      · rintro ⟨rfl, rfl, hends⟩
        exact ⟨by decide, ⟨rfl, rfl⟩, hends⟩
    rw [hzero]
    split
    · rename_i hdigit
      refine ⟨nofun, fun h => ?_⟩
      obtain ⟨-, -, hends⟩ := h
      cases rest with
      | nil => cases hdigit
      | cons c rest =>
          rw [List.head?_cons, Option.bind_some, isSome_digit?, (hends c rfl).1] at hdigit
          cases hdigit
    · rename_i hdigit
      refine afterDigits_eq_natural_iff fun c hc => ?_
      rw [hc, Option.bind_some, isSome_digit?, Bool.not_eq_true] at hdigit
      exact hdigit
  · rename_i c rest hc
    cases hdigit : c.isDigit with
    | false =>
        rw [digit?_of_not_isDigit hdigit]
        refine ⟨nofun, fun h => ?_⟩
        rw [isDigit_of_cons_eq h.2.1] at hdigit
        cases hdigit
    | true =>
        have hfits : c.toNat - '0'.toNat < UInt64.size :=
          Nat.lt_trans (digitChar_of_isDigit hdigit).1 (by decide)
        rw [digit?_of_isDigit hdigit, toDigits_append_iff_continues hdigit hc, and_comm]
        exact scanDigits_eq_natural_iff hfits

end RecordRing.Document
