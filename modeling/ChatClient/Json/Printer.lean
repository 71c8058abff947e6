import ChatClient.Json.Basic

/-!
# Writing JSON texts

The compact form: no blanks, characters outside ASCII as themselves, and an escape only
for the quote, the backslash and the control characters below U+0020. Floats that are
infinite or not a number are written as the words that the reader takes.
-/

namespace ChatClient.Json

/-- Floats in JSON texts. -/
def floatLayout : Decimal.Layout :=
  { Number.displayLayout with nan := "NaN", infinity := "Infinity" }

/-- One character of a string. -/
def escapeChar (c : Char) : List Char :=
  if c = '"' ∨ c = '\\' then ['\\', c]
  else if c = '\n' then ['\\', 'n']
  else if c = '\r' then ['\\', 'r']
  else if c = '\t' then ['\\', 't']
  else if c = '\x08' then ['\\', 'b']
  else if c = '\x0c' then ['\\', 'f']
  else if c.toNat < 0x20 then '\\' :: 'u' :: Text.hexDigits 4 c.toNat
  else [c]

/-- A string between its quotes. -/
def writeText (s : String) : List Char := '"' :: s.toList.flatMap escapeChar ++ ['"']

mutual

/-- A value in the compact form. -/
def write : Json → List Char
  | null => ['n', 'u', 'l', 'l']
  | bool true => ['t', 'r', 'u', 'e']
  | bool false => ['f', 'a', 'l', 's', 'e']
  | int n => Decimal.wholeText n
  | float x => floatLayout.text x
  | text s => writeText s
  | list items => '[' :: writeItems items
  | object entries => '{' :: writeEntries entries

/-- Values up to the closing bracket. -/
def writeItems : List Json → List Char
  | [] => [']']
  | [v] => write v ++ [']']
  | v :: w :: vs => write v ++ ',' :: writeItems (w :: vs)

/-- Entries up to the closing brace. -/
def writeEntries : List (String × Json) → List Char
  | [] => ['}']
  | [(k, v)] => writeText k ++ ':' :: write v ++ ['}']
  | (k, v) :: e :: es => writeText k ++ ':' :: write v ++ ',' :: writeEntries (e :: es)

end

/-- A value as a compact JSON text. -/
def compact (v : Json) : String := String.ofList v.write

end ChatClient.Json
