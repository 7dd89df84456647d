/-!
# Scanning written documents

The parts of a written document, each read off the front of a list of characters: blanks, words,
numerals and quoted texts.  A scan answers with what it has read and with the characters that are
left, or with the `Flaw` that stops it.

## Implementation notes

A numeral may have a fraction and an exponent, and it is checked in full; but only a natural number
without either stands for a value here.  A numeral whose value would exceed the largest
double-precision number is malformed, so the size of such a value has to be known, with the rounding
of both factors and of their product.
-/

namespace RecordRing.Document

/-- Why a text does not read. -/
inductive Flaw where
  /-- The text ends too early. -/
  | cut
  /-- The text breaks the grammar. -/
  | malformed
  /-- The text keeps to the grammar, but what it says is not what was wanted. -/
  | unfit
  deriving DecidableEq, Repr

/-- The result of reading something off the front of a list of characters. -/
abbrev Scan (α : Type) := Except Flaw (α × List Char)

/-- Whether a character is a blank between the parts of a document. -/
def isBlank (c : Char) : Bool := c = ' ' || c = '\n' || c = '\t' || c = '\r'

/-- A list of characters without the blanks at its front. -/
def skipBlanks (chars : List Char) : List Char := chars.dropWhile isBlank

/-- The value of a decimal digit. -/
def digit? (c : Char) : Option Nat :=
  if '0' ≤ c ∧ c ≤ '9' then some (c.toNat - '0'.toNat) else none

/-- A list of characters without the decimal digits at its front. -/
def skipDigits (chars : List Char) : List Char := chars.dropWhile fun c => (digit? c).isSome

/-- Reads the rest of a word. -/
def scanWord : List Char → List Char → Except Flaw (List Char)
  | [], chars => .ok chars
  | _ :: _, [] => .error .cut
  | expected :: word, c :: rest => if c = expected then scanWord word rest else .error .malformed

/-! ## Numerals -/

/-- What a numeral stands for. -/
inductive Numeral where
  /-- A natural number written without sign, fraction and exponent. -/
  | natural (value : Nat)
  /-- Anything else. -/
  | other
  deriving DecidableEq, Repr

/-- A natural number rounded to 53 significant bits, half to even. -/
def roundedToDouble (n : Nat) : Nat :=
  if n < 1 <<< 53 then n
  else
    let unit := 1 <<< (n.log2 - 52)
    let quotient := n / unit
    let remainder := n % unit
    if unit < 2 * remainder ∨ unit = 2 * remainder ∧ quotient % 2 = 1 then (quotient + 1) * unit
    else quotient * unit

/-- The largest power of ten in double precision. -/
def largestExponent : Nat := 308

/-- Whether `significand` times the power of ten of a nonnegative exponent exceeds the largest
double-precision number. -/
def exceedsDouble (significand exponent : Nat) : Bool :=
  if significand = 0 then false
  else if largestExponent < exponent then true
  else
    1 <<< 1024 ≤ roundedToDouble (roundedToDouble significand * roundedToDouble (.pow 10 exponent))

/-- Ends a numeral with a fraction or an exponent. -/
def endNumeral (significand : Nat) (exponent : Int) (rest : List Char) : Scan Numeral :=
  match exponent with
  | .ofNat positive =>
    if exceedsDouble significand positive then .error .malformed else .ok (.other, rest)
  | .negSucc _ => .ok (.other, rest)

/-- The largest number that the digits of an exponent may spell. -/
def exponentLimit : Nat := 0x7fffffff

/-- Reads the digits of an exponent after the first. -/
def scanExponentDigits (significand : Nat) (start : Int) (positive : Bool) (spelled : Nat) :
    List Char → Scan Numeral
  | [] => endNumeral significand (if positive then start + spelled else start - spelled) []
  | c :: rest =>
    match digit? c with
    | none =>
      endNumeral significand (if positive then start + spelled else start - spelled) (c :: rest)
    | some d =>
      if exponentLimit < spelled * 10 + d then
        if significand ≠ 0 ∧ positive then .error .malformed else .ok (.other, skipDigits rest)
      else scanExponentDigits significand start positive (spelled * 10 + d) rest

/-- Reads the first digit of an exponent, and the others. -/
def scanExponentDigit (significand : Nat) (start : Int) (positive : Bool) :
    List Char → Scan Numeral
  | [] => .error .cut
  | c :: rest =>
    match digit? c with
    | none => .error .malformed
    | some d => scanExponentDigits significand start positive d rest

/-- Reads an exponent after its letter. -/
def scanExponent (significand : Nat) (start : Int) : List Char → Scan Numeral
  | '+' :: rest => scanExponentDigit significand start true rest
  | '-' :: rest => scanExponentDigit significand start false rest
  | rest => scanExponentDigit significand start true rest

/-- Goes on after the last digit of a fraction. -/
def afterFraction (significand : Nat) (exponent : Int) : List Char → Scan Numeral
  | 'e' :: rest => scanExponent significand exponent rest
  | 'E' :: rest => scanExponent significand exponent rest
  | rest => endNumeral significand exponent rest

/-- Reads the digits of a fraction, of which `count` have been read.  Digits that no longer fit into
a word are passed over. -/
def scanFraction (significand : Nat) (before : Int) (count : Nat) : List Char → Scan Numeral
  | [] => if count = 0 then .error .cut else afterFraction significand (before - count) []
  | c :: rest =>
    match digit? c with
    | none =>
      if count = 0 then .error .malformed
      else afterFraction significand (before - count) (c :: rest)
    | some d =>
      if significand * 10 + d < UInt64.size then
        scanFraction (significand * 10 + d) before (count + 1) rest
      else afterFraction significand (before - count) (skipDigits rest)

/-- Reads the digits of a whole number that no longer fit into a word. -/
def scanLongNumber (significand : Nat) (exponent : Nat) : List Char → Scan Numeral
  | '.' :: rest => scanFraction significand exponent 0 rest
  | 'e' :: rest => scanExponent significand exponent rest
  | 'E' :: rest => scanExponent significand exponent rest
  | [] => endNumeral significand exponent []
  | c :: rest =>
    if (digit? c).isSome then scanLongNumber significand (exponent + 1) rest
    else endNumeral significand exponent (c :: rest)

/-- Goes on after the last digit of a whole number. -/
def afterDigits (negative : Bool) (value : Nat) : List Char → Scan Numeral
  | '.' :: rest => scanFraction value 0 0 rest
  | 'e' :: rest => scanExponent value 0 rest
  | 'E' :: rest => scanExponent value 0 rest
  | rest => .ok (if negative then .other else .natural value, rest)

/-- Reads the digits of a whole number after the first. -/
def scanDigits (negative : Bool) (value : Nat) : List Char → Scan Numeral
  | [] => afterDigits negative value []
  | c :: rest =>
    match digit? c with
    | none => afterDigits negative value (c :: rest)
    | some d =>
      if value * 10 + d < UInt64.size then scanDigits negative (value * 10 + d) rest
      else scanLongNumber value 1 rest

/-- Reads a numeral after its sign.  A leading zero stands alone. -/
def scanNumeral (negative : Bool) : List Char → Scan Numeral
  | [] => .error .cut
  | '0' :: rest =>
    if (rest.head?.bind digit?).isSome then .error .malformed else afterDigits negative 0 rest
  | c :: rest =>
    match digit? c with
    | none => .error .malformed
    | some d => scanDigits negative d rest

/-! ## Quoted texts -/

/-- The value of a hexadecimal digit. -/
def hexDigit? (c : Char) : Option Nat :=
  if '0' ≤ c ∧ c ≤ '9' then some (c.toNat - '0'.toNat)
  else if 'a' ≤ c ∧ c ≤ 'f' then some (c.toNat - 'a'.toNat + 10)
  else if 'A' ≤ c ∧ c ≤ 'F' then some (c.toNat - 'A'.toNat + 10)
  else none

/-- The number that four hexadecimal digits spell. -/
def hexUnit? (a b c d : Char) : Option Nat := do
  return (((← hexDigit? a) * 16 + (← hexDigit? b)) * 16 + (← hexDigit? c)) * 16 + (← hexDigit? d)

/-- The flaw of a text that ends, or goes on in fewer than four characters, where four hexadecimal
digits are due.  What counts is whether four bytes are left. -/
def shortUnit (rest : List Char) : Flaw :=
  if (String.ofList rest).utf8ByteSize < 4 then .cut else .malformed

/-- The character of an escape by one letter. -/
def escapedChar? (c : Char) : Option Char :=
  if c = '"' ∨ c = '\\' ∨ c = '/' then some c
  else if c = 'b' then some '\x08'
  else if c = 'f' then some '\x0c'
  else if c = 'n' then some '\n'
  else if c = 'r' then some '\r'
  else if c = 't' then some '\t'
  else none

/-- Whether a unit of sixteen bits is the first of a pair. -/
def isLeading (unit : Nat) : Bool := 0xd800 ≤ unit && unit ≤ 0xdbff

/-- Whether a unit of sixteen bits is the second of a pair. -/
def isTrailing (unit : Nat) : Bool := 0xdc00 ≤ unit && unit ≤ 0xdfff

/-- The code point of a pair of units. -/
def pairedUnits (leading trailing : Nat) : Nat :=
  (leading - 0xd800) * 0x400 + (trailing - 0xdc00) + 0x10000

/-- A character put in front of a scanned text. -/
def consChar (c : Char) : Scan (List Char) → Scan (List Char) :=
  Except.map fun (chars, rest) => (c :: chars, rest)

/-- Reads a text after its opening quote.  Units of sixteen bits stand in pairs or for characters,
and controls are written as escapes; `leading` is the first unit of a pair whose second is due. -/
def scanText : Option Nat → List Char → Scan (List Char)
  | _, [] => .error .cut
  | none, '"' :: rest => .ok ([], rest)
  | none, '\\' :: 'u' :: a :: b :: c :: d :: rest =>
    match hexUnit? a b c d with
    | none => .error .malformed
    | some unit =>
      if isTrailing unit then .error .malformed
      else if isLeading unit then scanText (some unit) rest
      else consChar (Char.ofNat unit) (scanText none rest)
  | none, '\\' :: 'u' :: rest => .error (shortUnit rest)
  | none, '\\' :: c :: rest =>
    match escapedChar? c with
    | none => .error .malformed
    | some escaped => consChar escaped (scanText none rest)
  | none, ['\\'] => .error .cut
  | none, c :: rest => if c < ' ' then .error .malformed else consChar c (scanText none rest)
  | some leading, '\\' :: 'u' :: a :: b :: c :: d :: rest =>
    match hexUnit? a b c d with
    | none => .error .malformed
    | some unit =>
      if isTrailing unit then
        consChar (Char.ofNat (pairedUnits leading unit)) (scanText none rest)
      else .error .malformed
  | some _, '\\' :: 'u' :: rest => .error (shortUnit rest)
  | some _, ['\\'] => .error .cut
  | some _, _ :: _ => .error .malformed

/-- A part of a text that is read as bytes. -/
inductive BytePart where
  /-- A character. -/
  | char (c : Char)
  /-- A unit of sixteen bits. -/
  | unit (value : Nat)
  deriving DecidableEq, Repr

/-- Reads a text that is to be read as bytes after its opening quote.  Any character may stand for
itself, and units of sixteen bits need not stand in pairs. -/
def scanByteParts : List Char → Scan (List BytePart)
  | [] => .error .cut
  | '"' :: rest => .ok ([], rest)
  | '\\' :: 'u' :: a :: b :: c :: d :: rest =>
    match hexUnit? a b c d with
    | none => .error .malformed
    | some unit => (scanByteParts rest).map fun (parts, left) => (.unit unit :: parts, left)
  | '\\' :: 'u' :: rest => .error (shortUnit rest)
  | '\\' :: c :: rest =>
    match escapedChar? c with
    | none => .error .malformed
    | some escaped => (scanByteParts rest).map fun (parts, left) => (.char escaped :: parts, left)
  | ['\\'] => .error .cut
  | c :: rest => (scanByteParts rest).map fun (parts, left) => (.char c :: parts, left)

/-- The bytes of a code point, in one to four bytes. -/
def bytesOfCodePoint (point : Nat) : List UInt8 :=
  if point < 0x80 then [UInt8.ofNat point]
  else if point < 0x800 then
    [UInt8.ofNat (0xc0 + point / 0x40), UInt8.ofNat (0x80 + point % 0x40)]
  else if point < 0x10000 then
    [UInt8.ofNat (0xe0 + point / 0x1000), UInt8.ofNat (0x80 + point / 0x40 % 0x40),
      UInt8.ofNat (0x80 + point % 0x40)]
  else
    [UInt8.ofNat (0xf0 + point / 0x40000), UInt8.ofNat (0x80 + point / 0x1000 % 0x40),
      UInt8.ofNat (0x80 + point / 0x40 % 0x40), UInt8.ofNat (0x80 + point % 0x40)]

/-- The bytes of a text.  Units that form a pair make one code point, and any other unit is one of
its own. -/
def bytesOfParts : List BytePart → List UInt8
  | [] => []
  | .char c :: rest => bytesOfCodePoint c.toNat ++ bytesOfParts rest
  | .unit leading :: .unit trailing :: rest =>
    if isLeading leading && isTrailing trailing then
      bytesOfCodePoint (pairedUnits leading trailing) ++ bytesOfParts rest
    else bytesOfCodePoint leading ++ bytesOfParts (.unit trailing :: rest)
  | .unit unit :: rest => bytesOfCodePoint unit ++ bytesOfParts rest

/-! ## Passing over values -/

/-- Passes over a text after its opening quote. -/
def skipText : List Char → Except Flaw (List Char)
  | [] => .error .cut
  | '"' :: rest => .ok rest
  | '\\' :: 'u' :: a :: b :: c :: d :: rest =>
    if (hexUnit? a b c d).isSome then skipText rest else .error .malformed
  | '\\' :: 'u' :: rest => .error (shortUnit rest)
  | '\\' :: c :: rest => if (escapedChar? c).isSome then skipText rest else .error .malformed
  | ['\\'] => .error .cut
  | c :: rest => if c < ' ' then .error .malformed else skipText rest

/-- Passes over at least one digit. -/
def skipSomeDigits (chars : List Char) : Except Flaw (List Char) :=
  if (chars.head?.bind digit?).isSome then .ok (skipDigits chars) else .error .malformed

/-- Passes over an exponent after its letter. -/
def skipExponent : List Char → Except Flaw (List Char)
  | '+' :: rest => skipSomeDigits rest
  | '-' :: rest => skipSomeDigits rest
  | rest => skipSomeDigits rest

/-- Passes over a possible exponent. -/
def skipMagnitude : List Char → Except Flaw (List Char)
  | 'e' :: rest => skipExponent rest
  | 'E' :: rest => skipExponent rest
  | rest => .ok rest

/-- Passes over a possible fraction and exponent. -/
def skipScale : List Char → Except Flaw (List Char)
  | '.' :: rest => do skipMagnitude (← skipSomeDigits rest)
  | rest => skipMagnitude rest

/-- Passes over a numeral after its sign, of whatever size. -/
def skipNumeral : List Char → Except Flaw (List Char)
  | '0' :: rest =>
    if (rest.head?.bind digit?).isSome then .error .malformed else skipScale rest
  | chars => do skipScale (← skipSomeDigits chars)

/-- Passes over a value that has no parts. -/
def skipScalar : List Char → Except Flaw (List Char)
  | [] => .error .cut
  | 'n' :: rest => scanWord ['u', 'l', 'l'] rest
  | 't' :: rest => scanWord ['r', 'u', 'e'] rest
  | 'f' :: rest => scanWord ['a', 'l', 's', 'e'] rest
  | '"' :: rest => skipText rest
  | '-' :: rest => skipNumeral rest
  | c :: rest => if (digit? c).isSome then skipNumeral (c :: rest) else .error .malformed

/-- What encloses a value. -/
inductive Enclosure where
  /-- Brackets. -/
  | list
  /-- Braces. -/
  | fields
  deriving DecidableEq, Repr

/-- The character that ends an enclosure. -/
def Enclosure.close : Enclosure → Char
  | .list => ']'
  | .fields => '\x7d'

/-- Passes over the name of a field and the colon after it. -/
def skipName (chars : List Char) : Except Flaw (List Char) :=
  match skipBlanks chars with
  | '"' :: rest => do
    match skipBlanks (← skipText rest) with
    | ':' :: left => .ok left
    | _ :: _ => .error .malformed
    | [] => .error .cut
  | _ :: _ => .error .malformed
  | [] => .error .cut

/-- Passes over what stands before a value in an enclosure. -/
def skipLabel : Enclosure → List Char → Except Flaw (List Char)
  | .list, chars => .ok chars
  | .fields, chars => skipName chars

mutual

/-- Passes over a value inside the given enclosures, and over the rest of these, in as many steps as
`budget` allows. -/
def skipValue (budget : Nat) (enclosures : List Enclosure) (chars : List Char) :
    Except Flaw (List Char) :=
  match budget with
  | 0 => .error .cut
  | budget + 1 =>
    match skipBlanks chars with
    | '[' :: rest => skipRest budget false (.list :: enclosures) rest
    | '\x7b' :: rest => skipRest budget false (.fields :: enclosures) rest
    | other => do skipRest budget true enclosures (← skipScalar other)

/-- Passes over the rest of the given enclosures; `comma` says whether a comma has to come before
the next value. -/
def skipRest (budget : Nat) (comma : Bool) (enclosures : List Enclosure) (chars : List Char) :
    Except Flaw (List Char) :=
  match budget, enclosures with
  | 0, _ => .error .cut
  | _, [] => .ok chars
  | budget + 1, innermost :: others =>
    match skipBlanks chars with
    | [] => .error .cut
    | c :: rest =>
      if c = innermost.close then skipRest budget true others rest
      else if comma then
        if c = ',' then do skipValue budget enclosures (← skipLabel innermost rest)
        else .error .malformed
      else do skipValue budget enclosures (← skipLabel innermost (c :: rest))

end

end RecordRing.Document
