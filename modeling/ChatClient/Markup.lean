import ChatClient.Json.Printer
import ChatClient.Json.Reader
import ChatClient.Text.Blank

/-!
# Markup around answers

Models wrap answers in code fences and put their reasoning between `<think>` tags. Both can
be taken off: of a fenced block its content stays, trimmed; of reasoning nothing stays. If
what is left is JSON it is written compactly, and a JSON string stands for its text.
-/

namespace ChatClient.Markup

/-- Replaces each span from `start` to the next `stop` by what `keep` makes of the text
between them, after leaving out `skip` characters. -/
def replaceSpans (start stop : List Char) (keep : List Char → List Char) :
    Nat → List Char → List Char
  | _, [] => []
  | skip + 1, _ :: cs => replaceSpans start stop keep skip cs
  | 0, c :: cs =>
    match (Text.after? start (c :: cs)).bind (Text.cut? stop) with
    | some (between, _) =>
      keep between ++
        replaceSpans start stop keep (start.length + between.length + stop.length - 1) cs
    | none => c :: replaceSpans start stop keep 0 cs

/-- What ends a code block, and starts one. -/
def fence : List Char := ['\x60', '\x60', '\x60']

/-- What starts a code block of JSON. -/
def jsonFence : List Char := fence ++ "json".toList

/-- Takes the fences off blocks that start in a certain way. -/
def dropFences (start : List Char) (cs : List Char) : List Char :=
  replaceSpans start fence Text.trim 0 cs

/-- Takes reasoning out. -/
def dropThoughts (cs : List Char) : List Char :=
  replaceSpans "<think>".toList "</think>".toList (fun _ => []) 0 cs

/-- A text without its markup. -/
def plain (cs : List Char) : List Char :=
  Text.trim (dropThoughts (dropFences fence (dropFences jsonFence cs)))

/-- A text without its markup, and compact if it is JSON. -/
def strip (s : String) : String :=
  let cs := plain s.toList
  match Json.ofChars? cs with
  | some (.text t) => t
  | some v => v.compact
  | none => String.ofList cs

end ChatClient.Markup
