import ChatClient.Number
import ChatClient.Text.Quoted

/-!
# JSON values

Values as they are exchanged with the services: the entries of an object keep their order,
and a whole number is not the same value as a float. This module has the look-ups and the
text by which messages show a value; reading and writing JSON texts have modules of their
own.
-/

namespace ChatClient

/-- A JSON value, with the float values that the texts of services may hold. -/
inductive Json where
  | null
  | bool (b : Bool)
  | int (n : Int)
  | float (x : Float)
  | text (s : String)
  | list (items : List Json)
  | object (entries : List (String × Json))
  deriving Inhabited

/-- Named values in order. -/
abbrev Entries := List (String × Json)

namespace Entries

/-- The value under a name. -/
def get? (entries : Entries) (name : String) : Option Json :=
  (entries.find? (·.1 == name)).map (·.2)

/-- Puts a value under a name: a name that is there keeps its place. -/
def put : Entries → String → Json → Entries
  | [], name, v => [(name, v)]
  | (k, w) :: rest, name, v => if k = name then (k, v) :: rest else (k, w) :: put rest name v

/-- Entries in which each name stands once, where it first stood, with its last value. -/
def ofList (pairs : List (String × Json)) : Entries :=
  pairs.foldl (fun entries (k, v) => put entries k v) []

@[simp] theorem get?_nil (name : String) : get? [] name = none := rfl

theorem get?_cons (k name : String) (v : Json) (rest : Entries) :
    get? ((k, v) :: rest) name = if k = name then some v else get? rest name := by
  by_cases h : k = name <;> simp [get?, h]

theorem get?_append (es fs : Entries) (name : String) :
    get? (es ++ fs) name = (get? es name).or (get? fs name) := by
  induction es with
  | nil => rfl
  | cons e es ih =>
    obtain ⟨k, v⟩ := e
    rw [List.cons_append, get?_cons, get?_cons, ih]
    by_cases h : k = name <;> simp [h]

/-- A value that was put is found; the other names are as before. -/
theorem get?_put (entries : Entries) (k name : String) (v : Json) :
    get? (put entries k v) name = if k = name then some v else get? entries name := by
  induction entries with
  | nil => simp [put, get?_cons]
  | cons e rest ih =>
    obtain ⟨j, w⟩ := e
    by_cases hj : j = k
    · subst hj; by_cases h : j = name <;> simp [put, get?_cons, h]
    · by_cases h : j = name
      · subst h; simp [put, get?_cons, hj, Ne.symm hj]
      · simp [put, get?_cons, hj, h, ih]

end Entries

namespace Json

/-- The value of an entry, if the value is an object that has it. -/
def field? : Json → String → Option Json
  | object entries, name => Entries.get? entries name
  | _, _ => none

/-- A text value. -/
def text? : Json → Option String
  | text s => some s
  | _ => none

/-- A numeric value. -/
def number? : Json → Option Number
  | int n => some (.int n)
  | float x => some (.float x)
  | _ => none

/-- A numeric value, where a truth value counts as one or zero. -/
def quantity? : Json → Option Number
  | bool b => some (.int (if b then 1 else 0))
  | v => v.number?

/-- Whether a value counts as given: null, false, zero, and an empty text, list or object do
not. -/
def isGiven : Json → Bool
  | null => false
  | bool b => b
  | int n => n != 0
  | float x => !(x == 0.0)
  | text s => !s.isEmpty
  | list items => !items.isEmpty
  | object entries => !entries.isEmpty

/-- Whether a value can be looked up among others; lists and objects cannot. -/
def isKey : Json → Bool
  | list _ | object _ => false
  | _ => true

/-- Whether two values are the same to a look-up: texts by their characters, numbers and truth
values by their quantity. -/
def sameKey : Json → Json → Bool
  | text s, text t => s == t
  | null, null => true
  | v, w =>
    match v.quantity?, w.quantity? with
    | some x, some y => x.le y && y.le x
    | _, _ => false

/-- Whether a value is among others. -/
def isAmong (v : Json) (vs : List Json) : Bool := vs.any v.sameKey

@[simp] theorem sameKey_text (s t : String) : sameKey (text s) (text t) = (s == t) := rfl

/-- A text is the same as itself only, and so is null. -/
theorem sameKey_text_left {s : String} {v : Json} : (text s).sameKey v = true ↔ v = text s := by
  cases v with
  | text t => rw [sameKey_text, beq_iff_eq, Json.text.injEq, eq_comm]
  | _ => simp [sameKey, quantity?, number?]

theorem sameKey_text_right {v : Json} {s : String} : v.sameKey (text s) = true ↔ v = text s := by
  cases v <;> simp [sameKey, quantity?, number?]

theorem sameKey_null_left {v : Json} : null.sameKey v = true ↔ v = null := by
  cases v <;> simp [sameKey, quantity?, number?]

theorem sameKey_null_right {v : Json} : v.sameKey null = true ↔ v = null := by
  cases v <;> simp [sameKey, quantity?, number?]

/-- Among texts, a text is looked up as texts are. -/
theorem isAmong_text (s : String) (ts : List String) :
    isAmong (text s) (ts.map text) = decide (s ∈ ts) := by
  induction ts with
  | nil => rfl
  | cons t ts ih =>
    rw [List.map_cons, isAmong, List.any_cons, sameKey_text, ← isAmong, ih]
    by_cases h : s = t <;> simp [h]

/-- Whether a value is an object. -/
def isObject : Json → Bool
  | object _ => true
  | _ => false

/-- The name of the kind of a value, for messages. -/
def kindName : Json → String
  | null => "NoneType"
  | bool _ => "bool"
  | int _ => "int"
  | float _ => "float"
  | text _ => "str"
  | list _ => "list"
  | object _ => "dict"

/-- A number as a value. -/
def ofNumber : Number → Json
  | .int n => int n
  | .float x => float x

/-- A text or null. -/
def ofText? : Option String → Json
  | some s => text s
  | none => null

mutual

/-- A value as it stands inside another one in a message: texts are quoted. -/
def inner : Json → String
  | null => "None"
  | bool true => "True"
  | bool false => "False"
  | int n => (Number.int n).text
  | float x => (Number.float x).text
  | text s => Text.quoted s
  | list items => "[" ++ innerItems items ++ "]"
  | object entries => "\x7b" ++ innerEntries entries ++ "\x7d"

/-- Values separated by commas. -/
def innerItems : List Json → String
  | [] => ""
  | [v] => inner v
  | v :: w :: vs => inner v ++ ", " ++ innerItems (w :: vs)

/-- Entries separated by commas, each name quoted. -/
def innerEntries : List (String × Json) → String
  | [] => ""
  | [(k, v)] => Text.quoted k ++ ": " ++ inner v
  | (k, v) :: e :: es => Text.quoted k ++ ": " ++ inner v ++ ", " ++ innerEntries (e :: es)

end

/-- A value as a message shows it by itself: a text stands without quotes. -/
def shown : Json → String
  | text s => s
  | v => v.inner

mutual

/-- Whether a value holds a float that is infinite or not a number. -/
def hasNonFinite : Json → Bool
  | float x => !x.isFinite
  | list items => itemsNonFinite items
  | object entries => entriesNonFinite entries
  | _ => false

/-- Whether one of some values holds such a float. -/
def itemsNonFinite : List Json → Bool
  | [] => false
  | v :: vs => hasNonFinite v || itemsNonFinite vs

/-- Whether one of some entries holds such a float. -/
def entriesNonFinite : List (String × Json) → Bool
  | [] => false
  | (_, v) :: es => hasNonFinite v || entriesNonFinite es

end

end Json

end ChatClient
