import Mathlib.Data.List.Nodup
import RecordRing.Proofs.CircularOrder

/-!
# Arcs as intervals

Membership in an arc is computed with words that wrap around and are masked.  Read as natural
numbers it is a comparison with both ends: an arc whose end is greater than its start is an
interval, and any other arc is what an interval leaves out (`inside_eq_insidePlain`).

The arcs that end at the identifiers of a ring, each starting after the identifier before, cut the
ring into pieces: every key lies in exactly one of them, the one that ends at the first identifier
at the key or after it (`arcs_partition`).
-/

namespace RecordRing

/-! ## Comparing numbers -/

/-- Membership in an arc by comparisons of plain numbers.  The end of an arc that ascends lies
beyond its start; any other arc passes the start of the ring or is a whole turn. -/
def insidePlain (start stop value : Nat) (closed : Bool) : Bool :=
  if start < stop then
    if closed then start < value && value ≤ stop else start < value && value < stop
  else if closed then !(stop < value && value ≤ start)
  else !(stop ≤ value && value ≤ start)

/-- The word operations decide membership in an arc as the comparisons of the numbers do. -/
theorem inside_eq_insidePlain (start stop value : Token) (closed : Bool) :
    inside start stop value closed =
      insidePlain start.toNat stop.toNat value.toNat closed := by
  have hstop := Token.gap_cases start stop
  have hvalue := Token.gap_cases start value
  have hstartR := start.toNat_lt
  have hstopR := stop.toNat_lt
  have hvalueR := value.toNat_lt
  rw [Bool.eq_iff_iff]
  cases closed with
  | true =>
      show insideHalfOpen start stop value = true ↔ _
      rw [insideHalfOpen_iff, insidePlain]
      split <;> simp only [← Token.toNat_inj, ne_eq, if_true, Bool.not_eq_true', Bool.and_eq_true,
        Bool.and_eq_false_iff, decide_eq_true_eq, decide_eq_false_iff_not] <;> omega
  | false =>
      show insideOpen start stop value = true ↔ _
      rw [insideOpen_iff, insidePlain]
      split <;> simp only [← Token.toNat_inj, ne_eq, Bool.false_eq_true, if_false,
        Bool.not_eq_true', Bool.and_eq_true, Bool.and_eq_false_iff, decide_eq_true_eq,
        decide_eq_false_iff_not] <;> omega

/-! ## Places in a ring -/

/-- The place before a place, where the last one comes before the first. -/
def placeBefore {count : Nat} (place : Fin count) : Fin count :=
  ⟨(place + (count - 1)) % count, Nat.mod_lt _ (Nat.zero_lt_of_lt place.isLt)⟩

theorem placeBefore_cases {count : Nat} (place : Fin count) :
    (placeBefore place).val + 1 = place ∨
      place.val = 0 ∧ (placeBefore place).val + 1 = count := by
  have hplace := place.isLt
  show (place.val + (count - 1)) % count + 1 = place ∨
    place.val = 0 ∧ (place.val + (count - 1)) % count + 1 = count
  rcases Nat.eq_zero_or_pos place.val with hfirst | hlater
  · rw [hfirst, Nat.zero_add, Nat.mod_eq_of_lt (by omega)]
    omega
  · rw [show place.val + (count - 1) = place - 1 + count by omega, Nat.add_mod_right,
      Nat.mod_eq_of_lt (by omega)]
    omega

section Places

variable {ids : List Token} {key : Token}

/-- Of two places in an ascending list the later one holds the greater identifier. -/
theorem Ascending.getElem_lt (ascending : Ascending ids) {a b : Fin ids.length} (h : a < b) :
    ids[a].toNat < ids[b].toNat :=
  Token.lt_iff_toNat.1 (List.pairwise_iff_getElem.1 ascending a b a.isLt b.isLt h)

theorem Ascending.getElem_le (ascending : Ascending ids) {a b : Fin ids.length} (h : a ≤ b) :
    ids[a].toNat ≤ ids[b].toNat := by
  rcases Fin.lt_or_eq_of_le h with hlt | rfl
  · exact Nat.le_of_lt (ascending.getElem_lt hlt)
  · exact Nat.le_refl _

/-- The identifier at a place comes next after the one at the place before. -/
theorem nextOf_placeBefore (ascending : Ascending ids) (place : Fin ids.length) :
    nextOf ids ids[placeBefore place] = ids[place] := by
  refine (eq_nextOf ascending (List.getElem_mem _) fun c hc => ?_).symm
  obtain ⟨other, rfl⟩ := List.get_of_mem hc
  rw [List.get_eq_getElem, insideOpen_iff]
  have hstop := Token.gap_cases ids[placeBefore place] ids[place]
  have hvalue := Token.gap_cases ids[placeBefore place] ids[other]
  have hstopR := ids[place].toNat_lt
  have hvalueR := ids[other].toNat_lt
  -- every identifier stands at one of the two places or outside them
  rcases placeBefore_cases place with hplace | ⟨hfirst, hlast⟩
  · have hless := ascending.getElem_lt (show placeBefore place < place by
      rw [Fin.lt_def]
      omega)
    rcases Nat.lt_or_ge (placeBefore place) other with hbeyond | hfront
    · have hle := ascending.getElem_le (show place ≤ other by
        rw [Fin.le_def]
        omega)
      simp only [← Token.toNat_inj, ne_eq, Fin.getElem_fin] at *
      omega
    · have hle := ascending.getElem_le (Fin.le_def.2 hfront)
      simp only [← Token.toNat_inj, ne_eq, Fin.getElem_fin] at *
      omega
  · have hfront := ascending.getElem_le (show place ≤ other by
      rw [Fin.le_def]
      omega)
    have hback := ascending.getElem_le (show other ≤ placeBefore place by
      rw [Fin.le_def]
      omega)
    simp only [← Token.toNat_inj, ne_eq, Fin.getElem_fin] at *
    omega

theorem previousOf_getElem (ascending : Ascending ids) (place : Fin ids.length) :
    previousOf ids ids[place] = ids[placeBefore place] := by
  rw [← nextOf_placeBefore ascending place]
  exact previousOf_nextOf ascending (List.getElem_mem _)

/-- The place of the owner of a key: that of the first identifier at the key or after it, and the
first place if there is none. -/
def ownerPlace (ids : List Token) (key : Token) : Nat :=
  (ids.findIdx? fun id => key ≤ id).getD 0

theorem getElem?_ownerPlace (nonempty : ids ≠ []) (key : Token) :
    ids[ownerPlace ids key]? = some (ownerOf ids key) := by
  cases hplace : ids.findIdx? fun id => key ≤ id with
  | some place =>
      obtain ⟨hlt, hreaches, hsooner⟩ := List.findIdx?_eq_some_iff_getElem.1 hplace
      have hfound : ids.find? (fun id => key ≤ id) = some ids[place] :=
        List.find?_eq_some_iff_getElem.2 ⟨hreaches, place, hlt, rfl, fun other hother => by
          simpa using hsooner other hother⟩
      rw [ownerPlace, ownerOf, hplace, hfound, Option.getD_some, Option.getD_some,
        List.getElem?_eq_getElem hlt]
  | none =>
      have hfound : ids.find? (fun id => key ≤ id) = none := by
        rw [List.find?_eq_none]
        intro id hid
        simpa using List.findIdx?_eq_none_iff.1 hplace id hid
      rw [ownerPlace, ownerOf, hplace, hfound, Option.getD_none, Option.getD_none,
        ← List.head?_eq_getElem?, List.head?_eq_some_head nonempty, List.headD_eq_head?_getD,
        List.head?_eq_some_head nonempty, Option.getD_some]

/-- Of the arcs that end at the identifiers of a ring, each starting after the identifier before,
exactly one holds a key: the one that ends at the first identifier at the key or after it, or at the
first identifier of all if there is none.  The only identifier of a ring comes before itself. -/
theorem arcs_partition (ascending : Ascending ids) (nonempty : ids ≠ []) (key : Token) :
    ∃ owner : Fin ids.length, owner.val = ownerPlace ids key ∧
      ∀ place : Fin ids.length,
        insideHalfOpen ids[placeBefore place] ids[place] key = true ↔ place = owner := by
  obtain ⟨hlt, howner⟩ := List.getElem?_eq_some_iff.1 (getElem?_ownerPlace nonempty key)
  refine ⟨⟨ownerPlace ids key, hlt⟩, rfl, fun place => ?_⟩
  have hmem : ids[place] ∈ ids := List.getElem_mem place.isLt
  rw [← previousOf_getElem ascending place, insideHalfOpen_previousOf_iff ascending hmem, ← howner,
    Fin.ext_iff]
  exact ascending.nodup.getElem_inj_iff

/-- A key beyond the last of three identifiers lies in the arc that passes the start of the ring. -/
theorem arcs_partition_beyond_last :
    let ids := [10, 20, 40].map Token.wrapping
    ∀ place : Fin ids.length,
      insideHalfOpen ids[placeBefore place] ids[place] (Token.wrapping 45) = true ↔
        place.val = 0 := by
  intro ids place
  have hascending : Ascending ids := by decide
  obtain ⟨owner, hplace, hpieces⟩ := arcs_partition hascending (by decide) (Token.wrapping 45)
  have hfirst : ownerPlace ids (Token.wrapping 45) = 0 := by decide
  rw [hpieces place, Fin.ext_iff, hplace, hfirst]

end Places

end RecordRing
