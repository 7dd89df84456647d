import RecordRing.Arc

/-!
# Clockwise distances

The clockwise distance of two positions as a natural number, and arcs in terms of it.  Distances
along the ring add up except for whole turns, so every question about arcs becomes linear arithmetic
once `gap_cases` has said whether a distance passes the start of the ring.
-/

namespace RecordRing

namespace Token

/-- The clockwise distance from one position to another, as a natural number. -/
def gap (a b : Token) : Nat := (a.distanceTo b).toNat

/-- A distance is the plain difference, or the difference and one turn. -/
theorem gap_cases (a b : Token) :
    (a.toNat ≤ b.toNat ∧ a.gap b + a.toNat = b.toNat) ∨
      (b.toNat < a.toNat ∧ a.gap b + a.toNat = b.toNat + ringSize) := by
  have ha := a.toNat_lt
  have hb := b.toNat_lt
  rw [gap, toNat_distanceTo]
  simp only [ringSize] at *
  omega

theorem gap_lt (a b : Token) : a.gap b < ringSize := by
  have ha := a.toNat_lt
  have hb := b.toNat_lt
  have hab := gap_cases a b
  omega

@[simp] theorem gap_self (a : Token) : a.gap a = 0 := by
  have h := gap_cases a a
  omega

theorem gap_eq_zero {a b : Token} : a.gap b = 0 ↔ a = b := by
  constructor
  · intro h
    have ha := a.toNat_lt
    have hab := gap_cases a b
    exact toNat_inj.1 (by omega)
  · rintro rfl
    exact gap_self a

theorem gap_pos {a b : Token} (h : a ≠ b) : 0 < a.gap b :=
  Nat.pos_of_ne_zero fun hz => h (gap_eq_zero.1 hz)

/-- Two legs of a way make up the direct distance, or one turn more. -/
theorem gap_add_gap (a b c : Token) :
    a.gap b + b.gap c = a.gap c ∨ a.gap b + b.gap c = a.gap c + ringSize := by
  have ha := a.toNat_lt
  have hc := c.toNat_lt
  have hab := gap_cases a b
  have hbc := gap_cases b c
  have hac := gap_cases a c
  omega

theorem gap_left_inj {a b c : Token} (h : a.gap b = a.gap c) : b = c := by
  have hb := b.toNat_lt
  have hc := c.toNat_lt
  have hab := gap_cases a b
  have hac := gap_cases a c
  exact toNat_inj.1 (by omega)

theorem gap_right_inj {a b c : Token} (h : a.gap c = b.gap c) : a = b := by
  have ha := a.toNat_lt
  have hb := b.toNat_lt
  have hac := gap_cases a c
  have hbc := gap_cases b c
  exact toNat_inj.1 (by omega)

/-- The way out and the way back make one turn. -/
theorem gap_add_gap_back {a b : Token} (h : a ≠ b) : a.gap b + b.gap a = ringSize := by
  have hpos := gap_pos h
  have hadd := gap_add_gap a b a
  rw [gap_self] at hadd
  omega

end Token

/-- An open arc holds the positions nearer than its end, and all but its end when it is a turn. -/
theorem insideOpen_iff {start stop value : Token} :
    insideOpen start stop value = true ↔
      value ≠ start ∧ (start = stop ∨ start.gap value < start.gap stop) := by
  have hvalue : start.gap value = 0 ↔ value = start := Token.gap_eq_zero.trans eq_comm
  have hstop : start.gap stop = 0 ↔ start = stop := Token.gap_eq_zero
  rw [insideOpen, inside_iff_distance]
  simp only [Token.gap] at *
  split
  · simp_all
  · split <;> simp_all

/-- A half-open arc holds the positions no farther than its end, and every position when it is a
turn. -/
theorem insideHalfOpen_iff {start stop value : Token} :
    insideHalfOpen start stop value = true ↔
      start = stop ∨ (value ≠ start ∧ start.gap value ≤ start.gap stop) := by
  have hvalue : start.gap value = 0 ↔ value = start := Token.gap_eq_zero.trans eq_comm
  have hstop : start.gap stop = 0 ↔ start = stop := Token.gap_eq_zero
  rw [insideHalfOpen, inside_iff_distance]
  simp only [Token.gap] at *
  split
  · simp_all
  · split <;> simp_all

/-- A position strictly inside an arc splits it into two. -/
theorem gap_add_of_insideOpen {start stop value : Token} (h : insideOpen start stop value = true)
    (hne : start ≠ stop) : start.gap value + value.gap stop = start.gap stop := by
  obtain ⟨-, hlt⟩ := insideOpen_iff.1 h
  have hadd := Token.gap_add_gap start value stop
  have hlt := hlt.resolve_left hne
  have hback := Token.gap_lt value stop
  omega

/-- Of two positions before a third one, one is on the arc from the other. -/
theorem eq_of_not_insideOpen {a b c : Token} (ha : a ≠ c) (hb : b ≠ c)
    (hab : ¬ insideOpen a c b = true) (hba : ¬ insideOpen b c a = true) : a = b := by
  rw [insideOpen_iff] at hab hba
  have hac := Token.gap_cases a c
  have hbc := Token.gap_cases b c
  have hgab := Token.gap_cases a b
  have hgba := Token.gap_cases b a
  have haR := a.toNat_lt
  have hbR := b.toNat_lt
  have hcR := c.toNat_lt
  simp only [← Token.toNat_inj, ne_eq] at *
  omega

end RecordRing
