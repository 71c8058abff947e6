import ChatClient.Proofs.Opening
import ChatClient.Proofs.Utf8Text
import ChatClient.Stream.Event

/-!
# Events that a server sends

A server sends an event as a line with its text and an empty line. The bytes may be cut
anywhere, also within a character or between the two line feeds: lines are completed by
characters, and characters by bytes, so that only the bytes together count.

The reader of lines knows more ends of a line than a server does. A text with one of those other
ends in it is cut there, and what follows the cut is a line of its own, which is not that of a
`data` field unless it happens to look like one. So the events are read as they were sent exactly
when none of them has any end of a line in it.
-/

namespace ChatClient

open Text (withReplacements withReplacements_map_some)

/-! ## Bytes that arrive in pieces -/

namespace LineReader

/-- All lines of some bytes, from a reader on. -/
def linesOf (r : LineReader) (bs : List UInt8) : List String :=
  (r.feed bs).2 ++ (r.feed bs).1.finish

/-- Where the bytes are cut makes no difference. -/
theorem feed_append (r : LineReader) (bs cs : List UInt8) :
    r.feed (bs ++ cs) =
      (((r.feed bs).1.feed cs).1, (r.feed bs).2 ++ ((r.feed bs).1.feed cs).2) := by
  simp only [feed, Text.Charset.State.scan_append, withReplacements, List.map_append,
    Text.Lines.State.scan_append]

theorem linesOf_append (r : LineReader) (bs cs : List UInt8) :
    r.linesOf (bs ++ cs) = (r.feed bs).2 ++ (r.feed bs).1.linesOf cs := by
  simp only [linesOf, feed_append, List.append_assoc]

end LineReader

/-- The lines of a body that is received to its end are those of all its bytes together. -/
theorem lines_receive {limit : Number} {ps : List Piece} {r : LineReader} {d : Deadline}
    (h : (receive limit .complete r d ps).failure = none) :
    (receive limit .complete r d ps).lines = r.linesOf (ps.flatMap Piece.toBytes) := by
  induction ps generalizing r d with
  | nil => rfl
  | cons p ps ih =>
      cases p with
      | wait seconds =>
          rw [receive] at h ⊢
          cases hd : d.wait seconds with
          | error i =>
              rw [hd] at h
              exact absurd h (by simp)
          | ok d' =>
              rw [hd] at h
              exact ih h
      | bytes bs =>
          rw [receive] at h ⊢
          rw [List.flatMap_cons, Piece.toBytes, LineReader.linesOf_append]
          by_cases hrefused : (r.feed bs).1.decoding.isRefused = true
          · simp only [hrefused, if_true] at h
            exact absurd h (by simp)
          · simp only [hrefused, if_false, Bool.false_eq_true] at h ⊢
            exact congrArg _ (ih h)

/-- A body in UTF-8 that is only cut into pieces is received to its end. -/
theorem failure_receive {limit : Number} {ps : List Piece} (hps : ∀ p ∈ ps, ∃ bs, p = .bytes bs)
    {r : LineReader} (hr : ∃ s, r.decoding = .utf8 s) (d : Deadline) :
    (receive limit .complete r d ps).failure = none := by
  induction ps generalizing r d with
  | nil => rfl
  | cons p ps ih =>
      obtain ⟨⟨bs, rfl⟩, hrest⟩ := List.forall_mem_cons.mp hps
      obtain ⟨s, hs⟩ := hr
      have hnext : (r.feed bs).1.decoding = .utf8 (Text.Utf8.scan s bs).1 := by
        simp only [LineReader.feed, hs, Text.Charset.scan_utf8]
      rw [receive]
      simp only [hnext, Text.Charset.State.isRefused, Bool.false_eq_true, if_false]
      exact ih hrest ⟨_, hnext⟩ _

/-- The lines of the bytes of a text are those of the text. -/
theorem linesOf_encode (s : String) :
    ({ decoding := Text.Charset.utf8.start } : LineReader).linesOf (Text.Utf8.encode s) =
      Text.Lines.ofChars s.toList := by
  simp only [LineReader.linesOf, LineReader.feed, LineReader.finish, Text.Charset.start,
    Text.Charset.scan_utf8, Text.Utf8.scan_encode, withReplacements_map_some,
    Text.Charset.State.finish, Text.Utf8.finish]
  rfl

/-! ## Lines -/

namespace Text.Lines

/-- A text without an end of a line in it. -/
def Unbroken (cs : List Char) : Prop := ∀ c ∈ cs, isBreak c = false

instance (cs : List Char) : Decidable (Unbroken cs) := List.decidableBAll (isBreak · = false) cs

theorem step_of_not_break {s : State} (hs : s.returned = false) {c : Char}
    (hc : isBreak c = false) : s.step c = ({ line := c :: s.line }, []) := by
  have hne : c ≠ '\r' := by rintro rfl; exact absurd hc (by decide)
  rw [State.step, hs, if_neg Bool.false_ne_true, State.plain, if_neg hne, hc,
    if_neg Bool.false_ne_true]

theorem scan_unbroken {cs : List Char} (h : Unbroken cs) (line : List Char) :
    State.scan { line } cs = ({ line := cs.reverse ++ line }, []) := by
  induction cs generalizing line with
  | nil => rfl
  | cons c cs ih =>
      obtain ⟨hc, hcs⟩ := List.forall_mem_cons.mp h
      rw [State.scan, step_of_not_break rfl hc]
      simp only [ih hcs, List.reverse_cons, List.append_assoc, List.singleton_append,
        List.nil_append]

/-- The first line of a text, and the lines after its end. -/
theorem ofChars_line {cs : List Char} (h : Unbroken cs) {b : Char} (hb : isBreak b = true)
    (hr : b ≠ '\r') (rest : List Char) :
    ofChars (cs ++ b :: rest) = String.ofList cs :: ofChars rest := by
  have hend : State.step { line := cs.reverse } b = ({}, [String.ofList cs]) := by
    rw [State.step, if_neg Bool.false_ne_true, State.plain, if_neg hr, if_pos hb, State.text,
      List.reverse_reverse]
  rw [ofChars, State.scan_append, scan_unbroken h, List.append_nil, State.scan, hend]
  rfl

/-- A text is unbroken, or it has a first end of a line. -/
theorem unbroken_or_broken (cs : List Char) :
    Unbroken cs ∨ ∃ before b after, cs = before ++ b :: after ∧ Unbroken before ∧
      isBreak b = true := by
  induction cs with
  | nil => exact Or.inl fun c hc => absurd hc List.not_mem_nil
  | cons c cs ih =>
      cases hc : isBreak c with
      | true => exact Or.inr ⟨[], c, cs, rfl, fun c hc => absurd hc List.not_mem_nil, hc⟩
      | false =>
          rcases ih with ih | ⟨before, b, after, rfl, hbefore, hb⟩
          · exact Or.inl (List.forall_mem_cons.mpr ⟨hc, ih⟩)
          · exact Or.inr ⟨c :: before, b, after, rfl, List.forall_mem_cons.mpr ⟨hc, hbefore⟩, hb⟩

end Text.Lines

/-! ## Events -/

namespace Event

open Text.Lines (Unbroken isBreak ofChars ofChars_line unbroken_or_broken)

/-- The text in which a server sends events. -/
def sent (events : List String) : String :=
  String.join (events.map fun e => "data: " ++ e ++ "\n\n")

/-- The payloads of some lines, where data fields have been gathered before. -/
def payloadsFrom (data lines : List String) : List String :=
  (scan data lines).2 ++ payload (scan data lines).1

theorem payloads_eq (lines : List String) : payloads lines = payloadsFrom [] lines := rfl

theorem payloadsFrom_cons (data : List String) (line : String) (lines : List String) :
    payloadsFrom data (line :: lines) =
      (step data line).2 ++ payloadsFrom (step data line).1 lines := by
  simp only [payloadsFrom, scan, List.append_assoc]

/-- An event that has begun is handed out first, with what its later lines add. -/
theorem payloadsFrom_begun (x : String) (xs lines : List String) :
    ∃ more rest, payloadsFrom (x :: xs) lines = Text.joinWith "\n" (x :: xs ++ more) :: rest := by
  induction lines generalizing xs with
  | nil => exact ⟨[], [], by rw [List.append_nil]; rfl⟩
  | cons line lines ih =>
      rw [payloadsFrom_cons]
      unfold step
      split
      · exact ⟨[], payloadsFrom [] lines, by rw [List.append_nil]; rfl⟩
      · split
        · next value _ =>
          obtain ⟨more, rest, h⟩ := ih (xs ++ [String.ofList value])
          exact ⟨String.ofList value :: more, rest, by simpa using h⟩
        · exact ih xs

theorem dropReturns_eq {cs : List Char} (h : cs.getLast? ≠ some '\r') :
    dropReturns (String.ofList cs) = cs := by
  have hnone : cs.reverse.dropWhile (· == '\r') = cs.reverse := by
    cases hr : cs.reverse with
    | nil => rfl
    | cons c rest =>
        have hne : c ≠ '\r' := by
          rintro rfl
          exact h (by rw [List.getLast?_eq_head?_reverse, hr, List.head?_cons])
        simp [hne]
  rw [dropReturns, String.toList_ofList, hnone, List.reverse_reverse]

/-- The line that says what an event is. -/
theorem step_data (data : List String) {cs : List Char} (h : cs.getLast? ≠ some '\r') :
    step data (String.ofList ("data: ".toList ++ cs)) = (data ++ [String.ofList cs], []) := by
  have hline : ("data: ".toList ++ cs).getLast? ≠ some '\r' := by
    rw [List.getLast?_append]
    cases hlast : cs.getLast? with
    | none => simp
    | some c => simpa [hlast] using h
  rw [step, dropReturns_eq hline]
  rfl

theorem getLast?_ne_of_unbroken {cs : List Char} (h : Unbroken cs) : cs.getLast? ≠ some '\r' := by
  intro hlast
  exact absurd (h _ (List.mem_of_getLast? hlast)) (by decide)

theorem unbroken_data {cs : List Char} (h : Unbroken cs) : Unbroken ("data: ".toList ++ cs) :=
  have hname : Unbroken "data: ".toList := by decide
  List.forall_mem_append.mpr ⟨hname, h⟩

theorem sent_cons (e : String) (es : List String) :
    (sent (e :: es)).toList = "data: ".toList ++ e.toList ++ '\n' :: '\n' :: (sent es).toList := by
  simp [sent]

/-- An event without an end of a line in it is read as it was sent. -/
theorem payloads_sent_cons {e : String} (h : Unbroken e.toList) (es : List String) :
    payloads (ofChars (sent (e :: es)).toList) = e :: payloads (ofChars (sent es).toList) := by
  have hempty : ofChars ('\n' :: (sent es).toList) = "" :: ofChars (sent es).toList :=
    ofChars_line (show Unbroken [] by decide) (by decide) (by decide) _
  have hend : step [e] "" = ([], [e]) := rfl
  rw [sent_cons, ofChars_line (unbroken_data h) (by decide) (by decide), hempty, payloads_eq,
    payloads_eq, payloadsFrom_cons, step_data [] (getLast?_ne_of_unbroken h), payloadsFrom_cons,
    String.ofList_toList, List.nil_append, List.nil_append, hend, List.singleton_append]

/-- An event with an end of a line in it is cut there. -/
theorem payloads_sent_ne {e : String} {es : List String} (hlf : '\n' ∉ e.toList)
    (hcr : '\r' ∉ e.toList) (h : ¬ Unbroken e.toList) :
    payloads (ofChars (sent (e :: es)).toList) ≠ e :: es := by
  obtain ⟨before, b, after, he, hbefore, hb⟩ := (unbroken_or_broken e.toList).resolve_left h
  have hbr : b ≠ '\r' := by rintro rfl; exact hcr (by simp [he])
  have hbn : b ≠ '\n' := by rintro rfl; exact hlf (by simp [he])
  rw [sent_cons, he]
  simp only [List.append_assoc, List.cons_append]
  rw [← List.append_assoc, ofChars_line (unbroken_data hbefore) hb hbr, payloads_eq,
    payloadsFrom_cons, step_data [] (getLast?_ne_of_unbroken hbefore)]
  obtain ⟨more, rest, hread⟩ := payloadsFrom_begun (String.ofList before) []
    (ofChars (after ++ '\n' :: '\n' :: (sent es).toList))
  intro heq
  rw [List.nil_append, List.nil_append, hread] at heq
  -- what is read goes on with nothing or with a line feed, where the event goes on with `b`
  have hfirst : (Text.joinWith "\n" (String.ofList before :: more)).toList = before ++ b :: after :=
    (congrArg String.toList (List.cons.inj heq).1).trans he
  cases more with
  | nil =>
      rw [Text.joinWith, String.toList_ofList] at hfirst
      exact absurd (congrArg List.length hfirst) (by simp)
  | cons m ms =>
      rw [Text.joinWith, String.toList_append, String.toList_append, String.toList_ofList,
        List.append_assoc] at hfirst
      exact hbn (List.cons.inj (List.append_cancel_left hfirst)).1.symm

/-- Events are read as they were sent exactly when none of them has an end of a line in it. -/
theorem payloads_sent_iff {events : List String}
    (hlines : ∀ e ∈ events, '\n' ∉ e.toList ∧ '\r' ∉ e.toList) :
    payloads (ofChars (sent events).toList) = events ↔ ∀ e ∈ events, Unbroken e.toList := by
  induction events with
  | nil => exact iff_of_true rfl fun e he => absurd he List.not_mem_nil
  | cons e es ih =>
      obtain ⟨⟨hlf, hcr⟩, hes⟩ := List.forall_mem_cons.mp hlines
      by_cases he : Unbroken e.toList
      · rw [payloads_sent_cons he, List.forall_mem_cons, and_iff_right he, ← ih hes,
          List.cons.injEq, and_iff_right rfl]
      · refine iff_of_false (payloads_sent_ne hlf hcr he) fun hall => ?_
        exact he (hall e (List.mem_cons_self ..))

end Event

/-! ## Reading a stream of events -/

/-- What is received of an answer in UTF-8 that comes to its end. -/
theorem read_utf8 {a : Answer} (hend : a.ending = .complete)
    (hcharset : MediaType.charset ((Headers.joined a.headers).value? "content-type") = .utf8)
    (limit : Number) :
    ({ answer := a, limit } : OpenStream).read.1 =
      receive limit .complete { decoding := Text.Charset.utf8.start } { limit } a.pieces := by
  rw [← hend, ← hcharset]
  rfl

/-- The lines of a text are received, if nothing keeps its bytes from coming. -/
theorem lines_read {a : Answer} (hend : a.ending = .complete)
    (hcharset : MediaType.charset ((Headers.joined a.headers).value? "content-type") = .utf8)
    {text : String} (hbytes : a.bytes = Text.Utf8.encode text) {limit : Number}
    (hnone : ({ answer := a, limit } : OpenStream).read.1.failure = none) :
    ({ answer := a, limit } : OpenStream).read.1.lines = Text.Lines.ofChars text.toList := by
  rw [read_utf8 hend hcharset] at hnone ⊢
  rw [lines_receive hnone, show a.pieces.flatMap Piece.toBytes = _ from hbytes, linesOf_encode]

/-- Nothing keeps bytes from coming between which no time passes. -/
theorem failure_read {a : Answer} (hend : a.ending = .complete)
    (hcharset : MediaType.charset ((Headers.joined a.headers).value? "content-type") = .utf8)
    (hps : ∀ p ∈ a.pieces, ∃ bs, p = .bytes bs) (limit : Number) :
    ({ answer := a, limit } : OpenStream).read.1.failure = none := by
  rw [read_utf8 hend hcharset]
  exact failure_receive hps ⟨_, rfl⟩ _

/--
**Events are read as they were sent exactly when none of them has an end of a line in it.**

A stream of events that a server sends in UTF-8, without carriage returns and line feeds in
them, is opened, and reading it comes to its end wherever its bytes are cut, if no wait for them
is too long. The payloads that are read then are the events, if none of them has another end of
a line in it, and otherwise they are not.
-/
theorem read_events_iff {r : WireRequest} {request : SentRequest}
    (hrequest : r.encode = .ok request) {limit wait : Number} {d : Deadline} (hbegun : ({ limit } : Deadline).wait wait = .ok d)
    {a : Answer} (ha : a.succeeds = true) (hend : a.ending = .complete)
    (hcharset : MediaType.charset ((Headers.joined a.headers).value? "content-type") = .utf8)
    {events : List String} (hbytes : a.bytes = Text.Utf8.encode (Event.sent events))
    (hlines : ∀ e ∈ events, '\n' ∉ e.toList ∧ '\r' ∉ e.toList) :
    ∃ s, (openStream r limit (.answer wait a)).result = .ok s ∧
      ((∀ p ∈ a.pieces, ∃ bs, p = .bytes bs) → s.read.1.failure = none) ∧
      (s.read.1.failure = none →
        (Event.payloads s.read.1.lines = events ↔
          ∀ e ∈ events, Text.Lines.Unbroken e.toList)) := by
  refine ⟨{ answer := a, limit }, result_openStream hrequest hbegun ha, ?_, fun hnone => ?_⟩
  · exact fun hps => failure_read hend hcharset hps limit
  · rw [lines_read hend hcharset hbytes hnone]
    exact Event.payloads_sent_iff hlines

/-- An answer in UTF-8 that arrives in two pieces. -/
def inTwo (text : String) (n : Nat) : Answer :=
  { headers := [("Content-Type", "text/event-stream; charset=utf-8")]
    pieces := [.bytes ((Text.Utf8.encode text).take n), .bytes ((Text.Utf8.encode text).drop n)] }

theorem charset_inTwo (text : String) (n : Nat) :
    MediaType.charset ((Headers.joined (inTwo text n).headers).value? "content-type") = .utf8 := by
  show MediaType.charset ((Headers.joined
    [("Content-Type", "text/event-stream; charset=utf-8")]).value? "content-type") = .utf8
  decide +kernel

theorem bytes_inTwo (text : String) (n : Nat) : (inTwo text n).bytes = Text.Utf8.encode text := by
  simp [inTwo, Answer.bytes, Piece.toBytes]

theorem pieces_inTwo (text : String) (n : Nat) :
    ∀ p ∈ (inTwo text n).pieces, ∃ bs, p = .bytes bs :=
  List.forall_mem_cons.mpr ⟨⟨_, rfl⟩, List.forall_mem_singleton.mpr ⟨_, rfl⟩⟩

/-- Two events, the first of them cut within a character. -/
theorem read_events_iff_inTwo :
    let a := inTwo (Event.sent ["[\"\u00e9\"]", "[DONE]"]) 9
    ∃ s, (openStream visit (.int 60) (.answer (.int 1) a)).result = .ok s ∧
      Event.payloads s.read.1.lines = ["[\"\u00e9\"]", "[DONE]"] := by
  intro a
  obtain ⟨request, hrequest⟩ := visit_encodes
  have hbegun : ({ limit := .int 60 } : Deadline).wait (.int 1) = .ok _ := rfl
  obtain ⟨s, hs, hall, hread⟩ := read_events_iff hrequest hbegun
    (show a.succeeds = true from rfl) rfl (charset_inTwo _ _) (bytes_inTwo _ _) (by decide)
  exact ⟨s, hs, (hread (hall (pieces_inTwo _ _))).mpr (by decide)⟩

/-- A line separator, which a JSON text may have in a string, cuts an event. -/
theorem separator_cuts_event :
    let event := "\"a\u2028b\""
    Json.read? event = some (.text "a\u2028b") ∧ '\n' ∉ event.toList ∧ '\r' ∉ event.toList ∧
      ∃ s, (openStream visit (.int 60) (.answer (.int 0) (inTwo (Event.sent [event]) 0))).result =
          .ok s ∧ Event.payloads s.read.1.lines = ["\"a"] := by
  intro event
  obtain ⟨request, hrequest⟩ := visit_encodes
  have hbegun : ({ limit := .int 60 } : Deadline).wait (.int 0) = .ok _ := rfl
  have hchars : event.toList = ['"', 'a', '\u2028', 'b', '"'] := by decide
  have hread : Json.read? event = some (.text "a\u2028b") := by
    rw [Json.read?, hchars]
    rfl
  refine ⟨hread, by decide, by decide, _, result_openStream hrequest hbegun rfl, ?_⟩
  rw [lines_read rfl (charset_inTwo _ _) (bytes_inTwo _ _)
    (failure_read rfl (charset_inTwo _ _) (pieces_inTwo _ _) _)]
  decide +kernel

end ChatClient
