/-!
# Texts of durations

A duration is a whole number of milliseconds.  It is written in the largest of seconds and
milliseconds that has a nonzero whole part, with the fraction of a second cut of its trailing zeros,
and no time at all is written in nanoseconds.
-/

namespace RecordRing.Text

/-- The decimal fraction of a second that `millis < 1000` milliseconds make, with its point and
without trailing zeros. -/
def secondFraction (millis : Nat) : String :=
  if millis = 0 then ""
  else if millis % 100 = 0 then s!".{millis / 100}"
  else if millis % 10 = 0 then s!".{millis / 100}{millis / 10 % 10}"
  else s!".{millis / 100}{millis / 10 % 10}{millis % 10}"

/-- The text of a duration in milliseconds. -/
def elapsed (millis : Nat) : String :=
  if millis = 0 then "0ns"
  else if millis < 1000 then s!"{millis}ms"
  else
    let fraction := secondFraction (millis % 1000)
    s!"{millis / 1000}{fraction}s"

end RecordRing.Text
