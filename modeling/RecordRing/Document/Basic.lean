import RecordRing.Text.Quoted

/-!
# Documents

A document is a number, a text, a list, or a collection of named fields.  It has a compact written
form without blanks and a spread one with a line for every item.

## Implementation notes

The fields of a document keep their order.
-/

namespace RecordRing

/-- Structured data with a written form. -/
inductive Document where
  /-- A natural number. -/
  | number (value : Nat)
  /-- A text. -/
  | text (value : String)
  /-- Documents in order. -/
  | list (items : List Document)
  /-- Documents by name, in order. -/
  | fields (entries : List (String × Document))

namespace Document

/-- A character as it stands between quotes: the quote and the backslash follow a backslash, and a
control has a letter of its own or is written with four hexadecimal digits. -/
def writtenChar (c : Char) : List Char :=
  if c = '"' then ['\\', '"']
  else if c = '\\' then ['\\', '\\']
  else if c = '\x08' then ['\\', 'b']
  else if c = '\x0c' then ['\\', 'f']
  else if c = '\n' then ['\\', 'n']
  else if c = '\r' then ['\\', 'r']
  else if c = '\t' then ['\\', 't']
  else if c < ' ' then
    '\\' :: 'u' :: '0' :: '0' :: (if c.toNat < 16 then '0' else '1') ::
      Nat.toDigits 16 (c.toNat % 16)
  else [c]

/-- A text between quotes. -/
def writtenText (text : String) : List Char :=
  '"' :: (text.toList.flatMap writtenChar ++ ['"'])

mutual

/-- The written form without blanks. -/
def compact : Document → List Char
  | number value => Nat.toDigits 10 value
  | text value => writtenText value
  | list items => '[' :: (compactItems items ++ [']'])
  | fields entries => '\x7b' :: (compactFields entries ++ ['\x7d'])

/-- The items of a list in compact form, with commas between them. -/
def compactItems : List Document → List Char
  | [] => []
  | [item] => item.compact
  | item :: rest => item.compact ++ ',' :: compactItems rest

/-- The fields of a document in compact form, with commas between them. -/
def compactFields : List (String × Document) → List Char
  | [] => []
  | [(name, value)] => writtenText name ++ ':' :: value.compact
  | (name, value) :: rest => writtenText name ++ ':' :: value.compact ++ ',' :: compactFields rest

end

/-- The start of a new line at a depth. -/
def newLine (depth : Nat) : List Char := '\n' :: List.replicate (2 * depth) ' '

mutual

/-- The written form with a line for every item, at a depth. -/
def spread (depth : Nat) : Document → List Char
  | number value => Nat.toDigits 10 value
  | text value => writtenText value
  | list [] => ['[', ']']
  | list (item :: rest) =>
    '[' :: (spreadItems (depth + 1) (item :: rest) ++ newLine depth ++ [']'])
  | fields [] => ['\x7b', '\x7d']
  | fields (entry :: rest) =>
    '\x7b' :: (spreadFields (depth + 1) (entry :: rest) ++ newLine depth ++ ['\x7d'])

/-- The items of a list, each on a line of its own. -/
def spreadItems (depth : Nat) : List Document → List Char
  | [] => []
  | [item] => newLine depth ++ item.spread depth
  | item :: rest => newLine depth ++ item.spread depth ++ ',' :: spreadItems depth rest

/-- The fields of a document, each on a line of its own. -/
def spreadFields (depth : Nat) : List (String × Document) → List Char
  | [] => []
  | [(name, value)] => newLine depth ++ writtenText name ++ ':' :: ' ' :: value.spread depth
  | (name, value) :: rest =>
    newLine depth ++ writtenText name ++ ':' :: ' ' :: value.spread depth ++
      ',' :: spreadFields depth rest

end

/-- The compact text of a document. -/
def compactText (document : Document) : String := String.ofList document.compact

/-- The spread text of a document. -/
def spreadText (document : Document) : String := String.ofList (document.spread 0)

end Document

end RecordRing
