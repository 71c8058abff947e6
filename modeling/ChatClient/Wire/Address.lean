import ChatClient.Text.Percent
import ChatClient.Text.Search

/-!
# Addresses

The address of a request in the form in which it is sent: scheme and host in lower case, no
number behind the host where the scheme says it already, the path without steps to the same
or the parent directory, and everything outside the allowed characters percent-encoded. A
percent sign stays as it is, so that what is encoded already is not encoded again.
-/

namespace ChatClient

/-- An address in its parts. The query and the fragment may be there and empty. -/
structure Address where
  scheme : List Char
  userInfo : List Char
  host : List Char
  /-- The number behind the host, if it is not the one that the scheme stands for. -/
  portNumber : Option Nat
  path : List Char
  query : Option (List Char)
  fragment : Option (List Char)

namespace Address

/-- A visible ASCII character outside some others. -/
def isVisibleExcept (others : List Char) (c : Char) : Bool :=
  0x21 ≤ c.toNat && c.toNat < 0x7F && c ∉ others

/-- What may stand in a fragment. -/
def inFragment : Char → Bool := isVisibleExcept ['"', '<', '>', '\x60']

/-- What may stand in a query. -/
def inQuery : Char → Bool := isVisibleExcept ['"', '#', '<', '>']

/-- What may stand in a path. -/
def inPath : Char → Bool := isVisibleExcept ['"', '#', '<', '>', '?', '\x60', '{', '}']

/-- What may stand in user information. -/
def inUserInfo : Char → Bool :=
  isVisibleExcept ['"', '#', '<', '>', '?', '\x60', '{', '}', '/', ':', ';', '=', '@', '[', '\\',
    ']', '^', '|']

/-- What may stand in the name of a host. -/
def inHost (c : Char) : Bool :=
  Text.isUnreserved c || c ∈ ['!', '$', '&', '\'', '(', ')', '*', '+', ',', ';', '=',
    '"', '\x60', '{', '}', '%', '|', '\\']

/-- What may stand in a scheme. -/
def inScheme (c : Char) : Bool := c.isAlphanum || c == '+' || c == '.' || c == '-'

/-- The scheme in front of a colon, and the rest. -/
def takeScheme (cs : List Char) : List Char × List Char :=
  let scheme := if (cs.head?.map Char.isAlpha).getD false then cs.takeWhile inScheme else []
  match cs.drop scheme.length with
  | ':' :: rest => (scheme, rest)
  | _ => ([], cs)

/-- The authority behind two slashes, and the rest. -/
def takeAuthority : List Char → List Char × List Char
  | '/' :: '/' :: cs =>
    let ends (c : Char) : Bool := c == '/' || c == '?' || c == '#'
    (cs.takeWhile fun c => !ends c, cs.dropWhile fun c => !ends c)
  | cs => ([], cs)

/-- The text behind the first occurrence of a mark and the text before it. -/
def splitAt (mark : Char) (cs : List Char) : List Char × Option (List Char) :=
  match cs.dropWhile (· != mark) with
  | [] => (cs, none)
  | _ :: rest => (cs.takeWhile (· != mark), some rest)

/-- The user information, up to the last at sign, and the rest of an authority. -/
def splitUserInfo (authority : List Char) : List Char × List Char :=
  match splitAt '@' authority.reverse with
  | (back, some front) => (front.reverse, back.reverse)
  | (back, none) => ([], back.reverse)

/-- The host, which may stand in brackets, and what follows it. -/
def splitHost (cs : List Char) : List Char × List Char :=
  match cs, (splitAt ']' cs.reverse).2 with
  | '[' :: _, some front => (front.reverse.tail, cs.drop (front.length + 1))
  | _, _ => (cs.takeWhile fun c => c != ':' && c != '@', cs.dropWhile fun c => c != ':' && c != '@')

/-- The number behind the host that a scheme stands for. -/
def defaultPort? (scheme : List Char) : Option Nat :=
  if scheme = "http".toList then some 80
  else if scheme = "https".toList then some 443
  else none

/-- Reads what follows the host; `none` if it is no number. An empty one is none at all. -/
def readPort? (scheme : List Char) (cs : List Char) : Option (Option Nat) :=
  let digits := if cs.head? = some ':' then cs.tail else cs
  if digits = [] then some none
  else if digits.all Char.isDigit then
    let number := digits.foldl (fun n c => n * 10 + (c.toNat - 48)) 0
    some (if defaultPort? scheme = some number then none else some number)
  else none

/-- The steps of a path, between its slashes. -/
def steps (path : List Char) : List (List Char) :=
  path.foldr (fun c acc =>
    match c, acc with
    | '/', acc => [] :: acc
    | c, [] => [[c]]
    | c, step :: rest => (c :: step) :: rest) [[]]

/-- A path from its steps. -/
def ofSteps : List (List Char) → List Char
  | [] => []
  | [step] => step
  | step :: next :: rest => step ++ '/' :: ofSteps (next :: rest)

/-- Walks some steps: one point stays where it is, two go back, but not before the start. -/
def walk (steps : List (List Char)) : List (List Char) :=
  (steps.foldl (fun (back : List (List Char)) step =>
    if step = ['.'] then back
    else if step = ['.', '.'] then
      match back with
      | [] => []
      | [[]] => [[]]
      | _ :: back => back
    else step :: back) []).reverse

/-- A path without steps that stay or go back. -/
def normalPath (path : List Char) : List Char := ofSteps (walk (steps path))

/-- Whether a text has a control character, which no address may have. -/
def hasControl (cs : List Char) : Bool := cs.any fun c => c.toNat < 0x20 || c.toNat == 0x7F

/-- The longest address there may be. -/
def maxLength : Nat := 65536

/-- Whether a path fits behind its authority, or stands alone where there is none. -/
def pathFits (isRooted hasAuthority : Bool) (path : List Char) : Bool :=
  match path with
  | [] => true
  | '/' :: '/' :: _ => isRooted
  | '/' :: _ => true
  | ':' :: _ => isRooted && !hasAuthority
  | _ => !hasAuthority

/-- Reads an address; `none` if it cannot be one. -/
def read? (s : String) : Option Address := do
  let cs := s.toList
  guard (!hasControl cs ∧ cs.length ≤ maxLength)
  let (scheme, rest) := takeScheme cs
  let scheme := scheme.map Char.toLower
  let (authority, rest) := takeAuthority rest
  let (beforeFragment, fragment) := splitAt '#' rest
  let (path, query) := splitAt '?' beforeFragment
  let (userInfo, hostPort) := splitUserInfo authority
  let (host, afterHost) := splitHost hostPort
  let portNumber ← readPort? scheme afterHost
  let hasAuthority := !userInfo.isEmpty || !host.isEmpty || portNumber.isSome
  let isRooted := !scheme.isEmpty || hasAuthority
  guard (pathFits isRooted hasAuthority path)
  return {
    scheme, portNumber, userInfo := Text.percentEncode inUserInfo userInfo
    host := Text.percentEncode inHost (host.map Char.toLower)
    path := Text.percentEncode inPath (if isRooted then normalPath path else path)
    query := query.map (Text.percentEncode inQuery)
    fragment := fragment.map (Text.percentEncode inFragment) }

/-- An address without a scheme or a host is one below an empty root. -/
def rooted (a : Address) : Address :=
  if !a.scheme.isEmpty && !a.host.isEmpty then a
  else
    { scheme := [], userInfo := [], host := [], portNumber := none
      path := '/' :: a.path.dropWhile (· == '/'), query := a.query, fragment := none }

/-- An address whose query is given by parameters, if there are any. -/
def withParams (a : Address) (params : List (String × String)) : Address :=
  if params.isEmpty then a
  else { a with query := some (Text.percentEncode inQuery (Text.formEncode params)) }

/-- The part between the slashes and the path. -/
def authority (a : Address) : List Char :=
  (if a.userInfo.isEmpty then [] else a.userInfo ++ ['@']) ++
  (if ':' ∈ a.host then '[' :: a.host ++ [']'] else a.host) ++
  (match a.portNumber with
    | some number => ':' :: (toString number).toList
    | none => [])

/-- An address as a text. -/
def text (a : Address) : String :=
  String.ofList (
    (if a.scheme.isEmpty then [] else a.scheme ++ [':']) ++
    (if a.authority.isEmpty then [] else '/' :: '/' :: a.authority) ++
    a.path ++
    (match a.query with
      | some query => '?' :: query
      | none => []) ++
    (match a.fragment with
      | some fragment => '#' :: fragment
      | none => []))

end Address

end ChatClient
