import ChatClient.Text.Blank
import ChatClient.Text.Charset

/-!
# Media types

A media type may name the character set of a body, as in `text/plain; charset=utf-8`. Its
parameters stand behind semicolons, and a value may be quoted.
-/

namespace ChatClient.MediaType

open Text (Charset)

/-- Puts characters in front of the first of some pieces. -/
def extendFirst (front : List Char) : List (List Char) → List (List Char)
  | [] => [front]
  | piece :: rest => (front ++ piece) :: rest

/-- Cuts a text at the semicolons outside quotes. A quote behind a backslash does not count
as one. -/
def pieces : Bool → List Char → List (List Char)
  | _, [] => [[]]
  | inQuotes, '\\' :: '"' :: cs => extendFirst ['\\', '"'] (pieces inQuotes cs)
  | inQuotes, c :: cs =>
    if c = ';' ∧ !inQuotes then [] :: pieces false cs
    else extendFirst [c] (pieces (if c = '"' then !inQuotes else inQuotes) cs)

/-- A value without the quotes around it. -/
def unquoted (value : List Char) : List Char :=
  match value, value.getLast? with
  | '"' :: rest, some '"' => rest.dropLast
  | '<' :: rest, some '>' => rest.dropLast
  | value, _ => value

/-- The value of a piece that says `charset=value`. -/
def charsetName? (piece : List Char) : Option (List Char) :=
  let name := Text.trim (piece.takeWhile (· != '='))
  if name.map Char.toLower = "charset".toList then
    some (unquoted (Text.trim ((piece.dropWhile (· != '=')).drop 1)))
  else none

/-- The character set that a media type names, if it is a known one. -/
def charset? (mediaType : String) : Option Charset :=
  ((pieces false mediaType.toList).findSome? charsetName?).bind fun name =>
    Charset.ofName? (String.ofList name)

/-- The character set of a body, which is UTF-8 unless its media type names another one. -/
def charset (mediaType : Option String) : Charset := (mediaType.bind charset?).getD .utf8

end ChatClient.MediaType
