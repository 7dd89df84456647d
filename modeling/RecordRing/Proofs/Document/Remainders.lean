import RecordRing.Document.Scan

/-!
# What a scan leaves

A scan takes characters off the front, so what it leaves is an end of what it was given (`Leaves`).
That holds for quoted texts (`leaves_scanText`, `leaves_scanByteParts`) and for values that are
passed over (`leaves_skipValue`), whatever they are.

## Implementation notes

Some scans answer with the remaining characters and some with a value as well.  `Leaves` takes the
function that finds them in the answer, so that both are chained by the same lemmas.
-/

namespace RecordRing.Document

variable {α β : Type} {left : α → List Char} {left' : β → List Char} {scan : Except Flaw α}
  {chars rest : List Char}

/-- If a scan succeeds, then what it leaves is an end of the characters that it was given. -/
def Leaves (left : α → List Char) (scan : Except Flaw α) (chars : List Char) : Prop :=
  ∀ a, scan = .ok a → left a <:+ chars

namespace Leaves

theorem error {flaw : Flaw} : Leaves left (.error flaw) chars :=
  nofun

theorem ok {a : α} (ends : left a <:+ chars) : Leaves left (.ok a) chars := by
  intro b h
  rw [← Except.ok.inj h]
  exact ends

theorem mono (h : Leaves left scan rest) (ends : rest <:+ chars) : Leaves left scan chars :=
  fun a ha => (h a ha).trans ends

theorem cons {c : Char} (h : Leaves left scan rest) : Leaves left scan (c :: rest) :=
  h.mono (List.suffix_cons c rest)

/-- A scan is followed by one of what is left. -/
theorem bind {next : α → Except Flaw β} (h : Leaves left scan chars)
    (later : ∀ a, Leaves left' (next a) (left a)) : Leaves left' (scan >>= next) chars := by
  cases scan with
  | error flaw => exact error
  | ok a => exact (later a).mono (h a rfl)

/-- The value that a scan answers with is changed. -/
theorem map {f : α → β} (h : Leaves left scan chars) (same : ∀ a, left' (f a) = left a) :
    Leaves left' (scan.map f) chars := by
  cases scan with
  | error flaw => exact error
  | ok a =>
      apply ok
      rw [same]
      exact h a rfl

end Leaves

theorem skipBlanks_suffix (chars : List Char) : skipBlanks chars <:+ chars :=
  List.dropWhile_suffix _

theorem leaves_scanWord (word chars : List Char) : Leaves id (scanWord word chars) chars := by
  fun_induction scanWord word chars with
  | case1 chars => exact .ok (List.suffix_refl chars)
  | case2 => exact .error
  | case3 _ _ _ ih => exact ih.cons
  | case4 => exact .error

/-! ## Texts -/

theorem leaves_skipText (chars : List Char) : Leaves id (skipText chars) chars := by
  fun_induction skipText chars with
  | case2 rest => exact .ok (List.suffix_cons _ rest)
  | case3 a b c d rest _ ih => exact ih.mono (List.suffix_append ['\\', 'u', a, b, c, d] rest)
  | case6 _ _ _ _ _ ih => exact ih.cons.cons
  | case10 _ _ _ _ _ _ _ _ ih => exact ih.cons
  | _ => exact .error

theorem Leaves.consChar {scan : Scan (List Char)} (h : Leaves Prod.snd scan chars) (c : Char) :
    Leaves Prod.snd (consChar c scan) chars :=
  h.map fun _ => rfl

theorem leaves_scanText (leading : Option Nat) (chars : List Char) :
    Leaves Prod.snd (scanText leading chars) chars := by
  fun_induction scanText leading chars with
  | case2 rest => exact .ok (List.suffix_cons _ rest)
  | case5 a b c d rest _ _ _ _ ih => exact ih.mono (List.suffix_append ['\\', 'u', a, b, c, d] rest)
  | case6 a b c d rest _ _ _ _ ih =>
      exact (ih.consChar _).mono (List.suffix_append ['\\', 'u', a, b, c, d] rest)
  | case9 _ _ _ _ _ _ ih => exact (ih.consChar _).cons.cons
  | case12 _ _ _ _ _ _ _ _ ih => exact (ih.consChar _).cons
  | case14 _ a b c d rest _ _ _ ih =>
      exact (ih.consChar _).mono (List.suffix_append ['\\', 'u', a, b, c, d] rest)
  | _ => exact .error

theorem leaves_scanByteParts (chars : List Char) :
    Leaves Prod.snd (scanByteParts chars) chars := by
  fun_induction scanByteParts chars with
  | case2 rest => exact .ok (List.suffix_cons _ rest)
  | case4 a b c d rest _ _ ih =>
      apply Leaves.mono _ (List.suffix_append ['\\', 'u', a, b, c, d] rest)
      exact ih.map fun _ => rfl
  | case7 _ _ _ _ _ _ ih =>
      apply Leaves.cons
      apply Leaves.cons
      exact ih.map fun _ => rfl
  | case9 _ _ _ _ _ _ _ ih =>
      apply Leaves.cons
      exact ih.map fun _ => rfl
  | _ => exact .error

/-! ## Values that are passed over -/

theorem leaves_skipSomeDigits (chars : List Char) : Leaves id (skipSomeDigits chars) chars := by
  rw [skipSomeDigits]
  split
  · exact .ok (List.dropWhile_suffix _)
  · exact .error

theorem leaves_skipExponent (chars : List Char) : Leaves id (skipExponent chars) chars := by
  rw [skipExponent.eq_def]
  split
  · exact (leaves_skipSomeDigits _).cons
  · exact (leaves_skipSomeDigits _).cons
  · exact leaves_skipSomeDigits _

theorem leaves_skipMagnitude (chars : List Char) : Leaves id (skipMagnitude chars) chars := by
  rw [skipMagnitude.eq_def]
  split
  · exact (leaves_skipExponent _).cons
  · exact (leaves_skipExponent _).cons
  · exact .ok (List.suffix_refl _)

theorem leaves_skipScale (chars : List Char) : Leaves id (skipScale chars) chars := by
  rw [skipScale.eq_def]
  split
  · exact ((leaves_skipSomeDigits _).bind leaves_skipMagnitude).cons
  · exact leaves_skipMagnitude _

theorem leaves_skipNumeral (chars : List Char) : Leaves id (skipNumeral chars) chars := by
  rw [skipNumeral.eq_def]
  split
  · split
    · exact .error
    · exact (leaves_skipScale _).cons
  · exact (leaves_skipSomeDigits _).bind leaves_skipScale

theorem leaves_skipScalar (chars : List Char) : Leaves id (skipScalar chars) chars := by
  rw [skipScalar.eq_def]
  split
  · exact .error
  · exact (leaves_scanWord _ _).cons
  · exact (leaves_scanWord _ _).cons
  · exact (leaves_scanWord _ _).cons
  · exact (leaves_skipText _).cons
  · exact (leaves_skipNumeral _).cons
  · split
    · exact leaves_skipNumeral _
    · exact .error

theorem leaves_skipName (chars : List Char) : Leaves id (skipName chars) chars := by
  rw [skipName]
  split
  · rename_i rest hopens
    have hrest : '"' :: rest <:+ chars := hopens ▸ skipBlanks_suffix chars
    refine ((leaves_skipText rest).bind fun later => ?_).cons.mono hrest
    split
    · rename_i left hcolon
      exact .ok ((List.suffix_cons ':' left).trans (hcolon ▸ skipBlanks_suffix later))
    · exact .error
    · exact .error
  · exact .error
  · exact .error

theorem leaves_skipLabel (enclosure : Enclosure) (chars : List Char) :
    Leaves id (skipLabel enclosure chars) chars := by
  cases enclosure with
  | list => exact .ok (List.suffix_refl chars)
  | fields => exact leaves_skipName chars

/-- A value that is passed over, or the rest of what encloses it. -/
theorem leaves_skipValue_skipRest (budget : Nat) :
    (∀ enclosures chars, Leaves id (skipValue budget enclosures chars) chars) ∧
    ∀ comma enclosures chars, Leaves id (skipRest budget comma enclosures chars) chars := by
  induction budget with
  | zero =>
      constructor
      · intro enclosures chars
        rw [skipValue]
        exact .error
      · intro comma enclosures chars
        rw [skipRest]
        exact .error
  | succ budget ih =>
      obtain ⟨hvalue, hrest⟩ := ih
      have hlabelled (innermost : Enclosure) (enclosures : List Enclosure) (chars : List Char) :
          Leaves id (do skipValue budget enclosures (← skipLabel innermost chars)) chars :=
        (leaves_skipLabel innermost chars).bind fun left => hvalue enclosures left
      constructor
      · intro enclosures chars
        have hblanks := skipBlanks_suffix chars
        rw [skipValue]
        split
        · rename_i rest hopens
          rw [hopens] at hblanks
          exact (hrest _ _ rest).cons.mono hblanks
        · rename_i rest hopens
          rw [hopens] at hblanks
          exact (hrest _ _ rest).cons.mono hblanks
        · exact ((leaves_skipScalar _).bind fun left => hrest _ _ left).mono hblanks
      · intro comma enclosures chars
        cases enclosures with
        | nil =>
            rw [skipRest]
            · exact .ok (List.suffix_refl chars)
            · exact nofun
        | cons innermost others =>
            have hblanks := skipBlanks_suffix chars
            rw [skipRest]
            split
            · exact .error
            · rename_i c rest hsplit
              rw [hsplit] at hblanks
              split
              · exact (hrest _ _ rest).cons.mono hblanks
              · split
                · split
                  · exact (hlabelled _ _ _).cons.mono hblanks
                  · exact .error
                · exact (hlabelled _ _ _).mono hblanks

theorem leaves_skipValue (budget : Nat) (enclosures : List Enclosure) (chars : List Char) :
    Leaves id (skipValue budget enclosures chars) chars :=
  (leaves_skipValue_skipRest budget).1 enclosures chars

end RecordRing.Document
