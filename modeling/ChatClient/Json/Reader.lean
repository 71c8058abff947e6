import ChatClient.Decimal.Numeral
import ChatClient.Json.Basic
import ChatClient.Text.Search

/-!
# Reading JSON texts

The reader takes characters off the front of a text and hands on the rest. It follows the
JSON grammar, with three additions: the words `NaN`, `Infinity` and `-Infinity` are floats.
A numeral with a fraction or an exponent is a float, any other one a whole number, which may
have `Decimal.maxDigits` digits and not more. A name that is repeated in an object keeps its
first place and its last value.

Values may be nested to any depth here. `Json.bounded` is for a reader whose room is bounded.
-/

namespace ChatClient.Json

/-- The blanks of JSON. -/
def isSpace (c : Char) : Bool := c == ' ' || c == '\n' || c == '\t' || c == '\r'

/-- Drops blanks. -/
def skipSpace (cs : List Char) : List Char := cs.dropWhile isSpace

/-- The value of a hexadecimal digit. -/
def hexValue? (c : Char) : Option Nat :=
  if '0' ≤ c ∧ c ≤ '9' then some (c.toNat - 48)
  else if 'a' ≤ c ∧ c ≤ 'f' then some (c.toNat - 87)
  else if 'A' ≤ c ∧ c ≤ 'F' then some (c.toNat - 55)
  else none

/-- The number of four hexadecimal digits. -/
def hex4? : List Char → Option Nat
  | a :: b :: c :: d :: _ => do
    let a ← hexValue? a
    let b ← hexValue? b
    let c ← hexValue? c
    let d ← hexValue? d
    return ((a * 16 + b) * 16 + c) * 16 + d
  | _ => none

/-- The second half of a pair of surrogates, written as an escape of its own. -/
def lowHalf? : List Char → Option Nat
  | '\\' :: 'u' :: cs => (hex4? cs).filter fun n => 0xDC00 ≤ n && n < 0xE000
  | _ => none

/-- What follows a backslash: the character meant, and how many characters say so. Half of a
pair of surrogates is no character and reads as the replacement character. -/
def escape? : List Char → Option (Char × Nat)
  | [] => none
  | c :: cs =>
    if c = '"' ∨ c = '\\' ∨ c = '/' then some (c, 1)
    else if c = 'n' then some ('\n', 1)
    else if c = 'r' then some ('\r', 1)
    else if c = 't' then some ('\t', 1)
    else if c = 'b' then some ('\x08', 1)
    else if c = 'f' then some ('\x0c', 1)
    else if c = 'u' then
      (hex4? cs).map fun n =>
        if 0xD800 ≤ n ∧ n < 0xE000 then
          match lowHalf? (cs.drop 4) with
          | some low =>
            if n < 0xDC00 then
              (Char.ofNat (0x10000 + (n - 0xD800) * 0x400 + (low - 0xDC00)), 11)
            else (Char.ofNat 0xFFFD, 5)
          | none => (Char.ofNat 0xFFFD, 5)
        else (Char.ofNat n, 5)
    else none

/-- The characters of a string up to its closing quote, and the rest, after leaving out
`skip` characters. A control character does not stand in a string. -/
def stringRest : Nat → List Char → Option (List Char × List Char)
  | _, [] => none
  | skip + 1, _ :: cs => stringRest skip cs
  | 0, c :: cs =>
    if c = '"' then some ([], cs)
    else if c = '\\' then
      match escape? cs with
      | some (d, used) => (stringRest used cs).map fun (s, rest) => (d :: s, rest)
      | none => none
    else if c.toNat < 0x20 then none
    else (stringRest 0 cs).map fun (s, rest) => (c :: s, rest)

/-- The fraction of a numeral, if a point and a digit follow. -/
def fraction : List Char → Option (List Char) × List Char
  | '.' :: cs =>
    match Decimal.spanDigits cs with
    | ([], _) => (none, '.' :: cs)
    | (ds, rest) => (some ds, rest)
  | cs => (none, cs)

/-- The exponent of a numeral, if a mark, perhaps a sign, and a digit follow. -/
def exponent (cs : List Char) : Option Int × List Char :=
  match cs with
  | [] => (none, [])
  | e :: ds =>
    if e = 'e' ∨ e = 'E' then
      let (negative, ds) := Decimal.splitSign ds
      match Decimal.spanDigits ds with
      | ([], _) => (none, cs)
      | (ds, rest) =>
        let n : Int := Text.ofDigits ds
        (some (if negative then -n else n), rest)
    else (none, cs)

/-- The digits before the point: a zero, or digits of which the first is none. -/
def whole? : List Char → Option (List Char × List Char)
  | [] => none
  | c :: cs =>
    if c = '0' then some (['0'], cs)
    else if Text.isAsciiDigit c then
      let (ds, rest) := Decimal.spanDigits cs
      some (c :: ds, rest)
    else none

/-- The whole number of some digits, if there are not too many. -/
def ofDigits? (negative : Bool) (ds : List Char) : Option Json :=
  if ds.length ≤ Decimal.maxDigits then
    let n : Int := Text.ofDigits ds
    some (.int (if negative then -n else n))
  else none

/-- A numeral without its sign. -/
def unsigned? (negative : Bool) (cs : List Char) : Option (Json × List Char) :=
  (whole? cs).bind fun (ds, rest) =>
    let (frac, rest) := fraction rest
    let (exp, rest) := exponent rest
    if frac.isNone ∧ exp.isNone then (ofDigits? negative ds).map fun v => (v, rest)
    else
      let frac := frac.getD []
      some (.float (Decimal.Numeral.toFloat
        ⟨negative, Text.ofDigits (ds ++ frac), exp.getD 0 - frac.length⟩), rest)

/-- A value that is neither a string nor a list nor an object. -/
def scalar? (cs : List Char) : Option (Json × List Char) :=
  match cs with
  | 'n' :: 'u' :: 'l' :: 'l' :: rest => some (.null, rest)
  | 't' :: 'r' :: 'u' :: 'e' :: rest => some (.bool true, rest)
  | 'f' :: 'a' :: 'l' :: 's' :: 'e' :: rest => some (.bool false, rest)
  | 'N' :: 'a' :: 'N' :: rest => some (.float (0.0 / 0.0), rest)
  | 'I' :: cs => (Text.after? "nfinity".toList cs).map fun rest => (.float (1.0 / 0.0), rest)
  | '-' :: 'I' :: cs => (Text.after? "nfinity".toList cs).map fun rest => (.float (-1.0 / 0.0), rest)
  | '-' :: cs => unsigned? true cs
  | cs => unsigned? false cs

mutual

/-- A value at the start of a text. The first argument bounds the steps. -/
def value? : Nat → List Char → Option (Json × List Char)
  | 0, _ => none
  | _ + 1, '"' :: cs => (stringRest 0 cs).map fun (s, rest) => (.text (String.ofList s), rest)
  | fuel + 1, '[' :: cs =>
    match skipSpace cs with
    | ']' :: rest => some (.list [], rest)
    | cs => (items? fuel cs).map fun (vs, rest) => (.list vs, rest)
  | fuel + 1, '{' :: cs =>
    match skipSpace cs with
    | '}' :: rest => some (.object [], rest)
    | cs => (members? fuel cs).map fun (es, rest) => (.object (Entries.ofList es), rest)
  | _ + 1, cs => scalar? cs

/-- The values of a list up to its closing bracket. -/
def items? : Nat → List Char → Option (List Json × List Char)
  | 0, _ => none
  | fuel + 1, cs =>
    match value? fuel cs with
    | none => none
    | some (v, rest) =>
      match skipSpace rest with
      | ']' :: rest => some ([v], rest)
      | ',' :: rest => (items? fuel (skipSpace rest)).map fun (vs, rest) => (v :: vs, rest)
      | _ => none

/-- The entries of an object up to its closing brace. -/
def members? : Nat → List Char → Option (List (String × Json) × List Char)
  | 0, _ => none
  | fuel + 1, '"' :: cs =>
    match stringRest 0 cs with
    | none => none
    | some (k, rest) =>
      match skipSpace rest with
      | ':' :: rest =>
        match value? fuel (skipSpace rest) with
        | none => none
        | some (v, rest) =>
          match skipSpace rest with
          | '}' :: rest => some ([(String.ofList k, v)], rest)
          | ',' :: rest => (members? fuel (skipSpace rest)).map fun (es, rest) =>
            ((String.ofList k, v) :: es, rest)
          | _ => none
      | _ => none
  | _ + 1, _ => none

end

/-- The value of a whole text, with blanks around it. Each character allows for two steps:
one into a list and one to the value in it. -/
def ofChars? (cs : List Char) : Option Json :=
  match value? (2 * cs.length + 2) (skipSpace cs) with
  | some (v, rest) => if (skipSpace rest).isEmpty then some v else none
  | none => none

/-- The value that a text writes. -/
def read? (s : String) : Option Json := ofChars? s.toList

end ChatClient.Json
