import ChatClient.Json.Reader

/-!
# Texts that are nested too deep

A reader goes one call deeper for each bracket that it opens, and it has room for so many calls.
Where a bracket is opened and there is no room left it gives up, whatever stands behind that
bracket. So the text up to there decides: if it goes wrong before, it is not nested too deep but
malformed.
-/

namespace ChatClient.Json

mutual

/-- Whether the value at the start of a text opens more brackets within each other than there is
room for. The first argument bounds the steps. -/
def valueOverruns : Nat → Nat → List Char → Bool
  | 0, _, _ => false
  | _ + 1, 0, c :: _ => c == '[' || c == '\x7b'
  | fuel + 1, room + 1, '[' :: cs =>
    match skipSpace cs with
    | ']' :: _ => false
    | cs => itemsOverrun fuel room cs
  | fuel + 1, room + 1, '\x7b' :: cs =>
    match skipSpace cs with
    | '\x7d' :: _ => false
    | cs => membersOverrun fuel room cs
  | _ + 1, _, _ => false

/-- Whether one of the values of a list does. What stands behind a malformed one is not
read. -/
def itemsOverrun : Nat → Nat → List Char → Bool
  | 0, _, _ => false
  | fuel + 1, room, cs =>
    valueOverruns fuel room cs ||
      match value? fuel cs with
      | none => false
      | some (_, rest) =>
        match skipSpace rest with
        | ',' :: rest => itemsOverrun fuel room (skipSpace rest)
        | _ => false

/-- Whether one of the values of an object does. -/
def membersOverrun : Nat → Nat → List Char → Bool
  | 0, _, _ => false
  | fuel + 1, room, '"' :: cs =>
    match stringRest 0 cs with
    | none => false
    | some (_, rest) =>
      match skipSpace rest with
      | ':' :: rest =>
        valueOverruns fuel room (skipSpace rest) ||
          match value? fuel (skipSpace rest) with
          | none => false
          | some (_, rest) =>
            match skipSpace rest with
            | ',' :: rest => membersOverrun fuel room (skipSpace rest)
            | _ => false
      | _ => false
  | _ + 1, _, _ => false

end

/-- Whether a text opens more brackets within each other than there is room for. -/
def overruns (room : Nat) (s : String) : Bool :=
  valueOverruns (2 * s.toList.length + 2) room (skipSpace s.toList)

/-- Why a reader with so much room makes nothing of a text. -/
inductive Unread where
  /-- The text is none that it reads. -/
  | malformed
  /-- It has given up. -/
  | tooDeep
  deriving DecidableEq

/-- Reads a text as another reader does, with so much room. -/
def bounded (room : Nat) (read : String → Option Json) (s : String) : Except Unread Json :=
  if overruns room s then .error .tooDeep
  else
    match read s with
    | some v => .ok v
    | none => .error .malformed

section

variable {room : Nat} {read : String → Option Json} {s : String} {v : Json}

theorem bounded_eq_ok :
    bounded room read s = .ok v ↔ overruns room s = false ∧ read s = some v := by
  unfold bounded
  cases overruns room s <;> cases read s <;> simp

theorem bounded_eq_malformed :
    bounded room read s = .error .malformed ↔ overruns room s = false ∧ read s = none := by
  unfold bounded
  cases overruns room s <;> cases read s <;> simp

theorem bounded_eq_tooDeep : bounded room read s = .error .tooDeep ↔ overruns room s = true := by
  unfold bounded
  cases overruns room s <;> cases read s <;> simp

end

end ChatClient.Json
