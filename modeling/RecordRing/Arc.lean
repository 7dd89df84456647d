import RecordRing.Token

/-!
# Arcs of the ring

An arc starts after one position and runs clockwise to another.  Its left end is never part of it,
and its right end is part of it when the arc is closed.  An arc from a position to itself is the
whole ring: closed it holds every position, open it holds every position but its end.

The main statement `inside_iff_distance` compares clockwise distances as natural numbers.
-/

namespace RecordRing

/-- Whether `value` lies on the arc that starts after `start` and runs clockwise to `stop`; the end
`stop` itself counts when `closed` is set. -/
def inside (start stop value : Token) (closed : Bool) : Bool :=
  let span := start.distanceTo stop
  let reach := start.distanceTo value
  if reach = 0 then span = 0 && closed
  else if span = 0 then true
  else if closed then reach ≤ span
  else reach < span

/-- Membership in the arc `(start, stop]`. -/
def insideHalfOpen (start stop value : Token) : Bool := inside start stop value true

/-- Membership in the arc `(start, stop)`. -/
def insideOpen (start stop value : Token) : Bool := inside start stop value false

/-- Membership is decided by the clockwise distances from the arc's start, where a span of zero
stands for the whole ring. -/
theorem inside_iff_distance (start stop value : Token) (closed : Bool) :
    inside start stop value closed =
      let span := (start.distanceTo stop).toNat
      let reach := (start.distanceTo value).toNat
      if reach = 0 then decide (span = 0) && closed
      else if span = 0 then true
      else if closed then decide (reach ≤ span)
      else decide (reach < span) := by
  have h (w : UInt64) : w = 0 ↔ w.toNat = 0 := by rw [← UInt64.toNat_inj]; rfl
  simp only [inside, h, UInt64.le_iff_toNat_le, UInt64.lt_iff_toNat_lt]

end RecordRing
