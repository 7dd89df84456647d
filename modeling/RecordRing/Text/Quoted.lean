import RecordRing.Text.Unprintable

/-!
# Quoted texts

A text is quoted for inspection between double quotes: the quote and the backslash follow a
backslash, four controls have letters of their own, and other unprintable characters are written by
their code points.
-/

namespace RecordRing.Text

/-- The lower-case hexadecimal digits of a number. -/
def hexDigits (value : Nat) : String := String.ofList (Nat.toDigits 16 value)

/-- A character as it stands between quotes. -/
def quotedChar (c : Char) : String :=
  if c = '"' then "\\\""
  else if c = '\\' then "\\\\"
  else if c = '\n' then "\\n"
  else if c = '\r' then "\\r"
  else if c = '\t' then "\\t"
  else if c = '\x00' then "\\0"
  else if isUnprintable c then
    let digits := hexDigits c.toNat
    s!"\\u\x7b{digits}\x7d"
  else c.toString

/-- A text between quotes. -/
def quoted (text : String) : String :=
  "\"" ++ String.join (text.toList.map quotedChar) ++ "\""

end RecordRing.Text
