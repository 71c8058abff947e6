import Mathlib.Data.List.SplitBy
import ChatClient.Dialect
import ChatClient.Proofs.Accepted

/-!
# The turns that Gemini is given

A conversation is told to Gemini turn by turn. A message of the user's or the assistant's is a turn
of its own. Tool messages that follow each other share one, in which each result stands under the id
of the message and the name of the call that it answers.

The names are looked up in one table, into which the calls of every assistant message go and from
which none is taken out. Ids may come again in later turns; what keeps the names right is that the
calls of the message that is being answered come first in the table.
-/

namespace ChatClient.Gemini

/-! ## Messages in their places -/

/-- A message and the messages before it. -/
structure Placed where
  before : List RequestMessage
  message : RequestMessage

/-- The messages of a list that goes on after others, each in its place. -/
def placedFrom (before : List RequestMessage) : List RequestMessage → List Placed
  | [] => []
  | m :: ms => ⟨before, m⟩ :: placedFrom (before ++ [m]) ms

/-- Two messages that share a turn: both are the tools'. -/
def sharesTurn (p q : Placed) : Bool := p.message.isBy .tool && q.message.isBy .tool

/-- The messages that are not the system's. -/
def spokenMessages (ms : List RequestMessage) : List Placed :=
  (placedFrom [] ms).filter fun p => !p.message.isBy .system

/-- The messages of a conversation as they come in turns: the longest runs of tool messages, and
each other message by itself. -/
def turnsOf (ms : List RequestMessage) : List (List Placed) :=
  (spokenMessages ms).splitBy sharesTurn

/-! ## What a turn tells -/

/-- The call that a message after `before` answers under an id. It is a call of the last message
before it that is not a tool's, where the ids are told apart. -/
structure Answers (before : List RequestMessage) (id : Json) (c : RequestCall) : Prop where
  asked : ∃ asker, MayAnswer before asker ∧ c ∈ asker.toolCalls ∧ AcceptedCalls asker.toolCalls ∧
    ∀ s, id = .text s → ∀ d ∈ asker.toolCalls, d.id = .text s → d = c
  id : id.sameKey c.id = true

/-- The object in which a text of a tool is sent: the one that it writes, or under `result` any
other value that it writes, or the text itself if it writes none. -/
inductive Packs (content : String) : Entries → Prop
  | object {es : Entries} (hread : Json.read? content = some (.object es)) : Packs content es
  | value {v : Json} (hread : Json.read? content = some v) (hv : v.isObject = false) :
    Packs content [("result", v)]
  | text (hread : Json.read? content = none) : Packs content [("result", .text content)]

/-- A result tells what a tool message says, under its id and the name of the call. -/
inductive Reports : Placed → Part → Prop
  | result {before : List RequestMessage} {m : RequestMessage} {c : RequestCall} {content : String}
    {es : Entries} (hby : m.isBy .tool = true) (hanswers : Answers before m.toolCallId c)
    (hcontent : m.content = .text content) (hpacks : Packs content es) :
    Reports ⟨before, m⟩ (.result m.toolCallId c.name es)

/-- A call is told with its id, its name and the object that its arguments are read as. -/
inductive Asks : RequestCall → Part → Prop
  | call {room : Nat} {c : RequestCall} {args : Entries}
    (hload : c.load room = .value (.object args)) :
    Asks c (.call c.id c.name args)

/-- A turn tells some messages: what the tools say in a row, or what someone else says and then the
calls that are asked for. -/
inductive Tells : List Placed → Turn → Prop
  | results {ps : List Placed} {parts : List Part} (h : List.Forall₂ Reports ps parts) :
    Tells ps ⟨false, parts⟩
  | speech {before : List RequestMessage} {m : RequestMessage} {content : String}
    {calls : List Part} (hby : m.isBy .tool = false) (hcontent : m.content = .text content)
    (hcalls : List.Forall₂ Asks m.toolCalls calls) :
    Tells [⟨before, m⟩]
      ⟨m.isBy .assistant, (if content = "" then [] else [.text (.text content)]) ++ calls⟩

/-! ## Runs that grow -/

section Runs

variable {α : Type} {r : α → α → Bool} {as : List α} {a b : α}

/-- What does not go with the one before it begins a run. -/
theorem splitBy_snoc_apart (h : ∀ b ∈ as.getLast?, r b a = false) :
    (as ++ [a]).splitBy r = as.splitBy r ++ [[a]] :=
  List.splitBy_append_cons [] h

/-- What goes with the one before it goes into its run. -/
theorem splitBy_snoc_shared {runs : List (List α)} {run : List α}
    (has : as.splitBy r = runs ++ [run ++ [b]]) (h : r b a = true) :
    (as ++ [a]).splitBy r = runs ++ [run ++ [b] ++ [a]] := by
  obtain ⟨hflat, hnil, hruns, hapart⟩ := List.splitBy_eq_iff.mp has
  refine List.splitBy_eq_iff.mpr ⟨?_, ?_, ?_, ?_⟩
  · rw [hflat]
    simp
  · intro hmem
    rcases List.mem_append.mp hmem with hmem | hmem
    · exact hnil (List.mem_append_left _ hmem)
    · exact absurd (List.mem_singleton.mp hmem) (by simp)
  · intro m hm
    rcases List.mem_append.mp hm with hm | hm
    · exact hruns m (List.mem_append_left _ hm)
    · obtain rfl := List.mem_singleton.mp hm
      have hrun := hruns (run ++ [b]) (List.mem_append_right _ (List.mem_singleton.mpr rfl))
      refine List.isChain_append.mpr ⟨hrun, List.isChain_singleton _, fun x hx y hy => ?_⟩
      obtain rfl : y = a := by simpa [eq_comm] using hy
      obtain rfl : x = b := by simpa [eq_comm] using hx
      exact h
  · -- the run that grows begins as it did
    obtain ⟨hbefore, -, hlast⟩ := List.isChain_append.mp hapart
    refine List.isChain_append.mpr ⟨hbefore, List.isChain_singleton _, fun x hx y hy => ?_⟩
    obtain rfl : y = run ++ [b] ++ [a] := by simpa [eq_comm] using hy
    obtain ⟨hx', hy', happart⟩ := hlast x hx (run ++ [b]) (by simp)
    refine ⟨hx', by simp, ?_⟩
    rwa [List.head_append_of_ne_nil hy']

/-- The last one stands at the end of the last run. -/
theorem exists_splitBy_snoc (r : α → α → Bool) (as : List α) (b : α) :
    ∃ runs run, (as ++ [b]).splitBy r = runs ++ [run ++ [b]] := by
  rcases List.eq_nil_or_concat ((as ++ [b]).splitBy r) with hnone | ⟨runs, last, hruns⟩
  · exact absurd (List.splitBy_eq_nil.mp hnone) (by simp)
  rw [List.concat_eq_append] at hruns
  rcases List.eq_nil_or_concat last with rfl | ⟨run, c, rfl⟩
  · exact absurd (List.nil_notMem_splitBy r (as ++ [b])) (by rw [hruns]; simp)
  have hflat : as ++ [b] = runs.flatten ++ run ++ [c] := by
    rw [← List.flatten_splitBy r (as ++ [b]), hruns]
    simp
  obtain ⟨-, hlast⟩ := List.append_inj' hflat rfl
  obtain rfl := List.singleton_inj.mp hlast
  exact ⟨runs, run, by rw [hruns, List.concat_eq_append]⟩

end Runs

variable {before : List RequestMessage} {m : RequestMessage}

theorem placedFrom_append (ms ms' : List RequestMessage) :
    placedFrom before (ms ++ ms') = placedFrom before ms ++ placedFrom (before ++ ms) ms' := by
  induction ms generalizing before with
  | nil => rw [List.append_nil]; rfl
  | cons m ms ih =>
      rw [List.cons_append, placedFrom, placedFrom, ih, List.cons_append,
        List.append_cons before m ms]

theorem spokenMessages_snoc_system (hm : m.isBy .system = true) :
    spokenMessages (before ++ [m]) = spokenMessages before := by
  rw [spokenMessages, placedFrom_append, List.filter_append]
  simp [spokenMessages, placedFrom, hm]

theorem spokenMessages_snoc (hm : m.isBy .system = false) :
    spokenMessages (before ++ [m]) = spokenMessages before ++ [⟨before, m⟩] := by
  rw [spokenMessages, placedFrom_append, List.filter_append]
  simp [spokenMessages, placedFrom, hm]

theorem turnsOf_snoc_system (hm : m.isBy .system = true) :
    turnsOf (before ++ [m]) = turnsOf before := by
  rw [turnsOf, turnsOf, spokenMessages_snoc_system hm]

/-- What does not share the last turn is a turn of its own. -/
theorem turnsOf_snoc_apart (hm : m.isBy .system = false)
    (h : ∀ p ∈ (spokenMessages before).getLast?, sharesTurn p ⟨before, m⟩ = false) :
    turnsOf (before ++ [m]) = turnsOf before ++ [[⟨before, m⟩]] := by
  rw [turnsOf, spokenMessages_snoc hm]
  exact splitBy_snoc_apart h

/-- A tool message after another one shares its turn. -/
theorem turnsOf_snoc_shared {l : RequestMessage} (hl : l.isBy .tool = true)
    (hlsystem : l.isBy .system = false) (hm : m.isBy .tool = true)
    (hsystem : m.isBy .system = false) :
    ∃ runs run, turnsOf (before ++ [l]) = runs ++ [run ++ [⟨before, l⟩]] ∧
      turnsOf (before ++ [l] ++ [m]) = runs ++ [run ++ [⟨before, l⟩] ++ [⟨before ++ [l], m⟩]] := by
  obtain ⟨runs, run, hruns⟩ := exists_splitBy_snoc sharesTurn (spokenMessages before) ⟨before, l⟩
  refine ⟨runs, run, ?_, ?_⟩
  · rw [turnsOf, spokenMessages_snoc hlsystem, hruns]
  · rw [turnsOf, spokenMessages_snoc hsystem, spokenMessages_snoc hlsystem]
    refine splitBy_snoc_shared hruns ?_
    rw [sharesTurn, hl, hm, Bool.and_self]

/-! ## Parts -/

theorem callArguments_eq_ok {room i : Nat} {c : RequestCall} {args : Entries}
    (h : callArguments room i c = .ok args) : c.load room = .value (.object args) := by
  unfold callArguments at h
  split at h
  · next es hload => rw [hload, Except.ok.inj h]
  · exact absurd h (by simp [refuse])
  · exact absurd h (by simp [refuse])
  · exact absurd h (by simp)
  · exact absurd h (by simp)

/-- Where there is room to read a text it is packed. -/
theorem packs_of_resultObject {room : Nat} {content : String} {es : Entries}
    (h : resultObject room content = .ok es) : Packs content es := by
  unfold resultObject at h
  split at h
  · next es hread =>
    obtain rfl := Except.ok.inj h
    exact .object (Json.bounded_eq_ok.mp hread).2
  · next v hother hread =>
    obtain rfl := Except.ok.inj h
    refine .value (Json.bounded_eq_ok.mp hread).2 ?_
    cases v with
    | object es => exact absurd rfl (hother es)
    | _ => rfl
  · next hread =>
    obtain rfl := Except.ok.inj h
    exact .text (Json.bounded_eq_malformed.mp hread).2
  · exact absurd h (by simp)

theorem resultObject_overrun {room : Nat} {content : String}
    (h : Json.overruns room content = true) : resultObject room content = .error .tooDeep := by
  rw [resultObject, Json.bounded_eq_tooDeep.mpr h]

theorem resultObject_fits {room : Nat} {content : String} {es : Entries}
    (h : Json.overruns room content = false) (hpacks : Packs content es) :
    resultObject room content = .ok es := by
  cases hpacks with
  | object hread => rw [resultObject, Json.bounded_eq_ok.mpr ⟨h, hread⟩]
  | @value v hread hv =>
      rw [resultObject, Json.bounded_eq_ok.mpr ⟨h, hread⟩]
      cases v with
      | object es => exact absurd hv (by simp [Json.isObject])
      | _ => rfl
  | text hread => rw [resultObject, Json.bounded_eq_malformed.mpr ⟨h, hread⟩]

/-- Every text can be packed. -/
theorem exists_packs (content : String) : ∃ es, Packs content es := by
  cases hread : Json.read? content with
  | none => exact ⟨_, .text hread⟩
  | some v =>
      cases v with
      | object es => exact ⟨es, .object hread⟩
      | _ => exact ⟨_, .value hread rfl⟩

theorem asks_of_callParts {room i : Nat} {calls : List RequestCall} {parts : List Part}
    (h : callParts room i calls = .ok parts) : List.Forall₂ Asks calls parts := by
  induction calls generalizing parts with
  | nil =>
      obtain rfl := Except.ok.inj h
      exact .nil
  | cons c calls ih =>
      rw [callParts] at h
      split at h
      · exact absurd h (by simp [throw, throwThe, MonadExceptOf.throw, bind, Except.bind])
      · simp only [bind_eq_ok] at h
        obtain ⟨args, hargs, rest, hrest, hparts⟩ := h
        obtain rfl := Except.ok.inj hparts
        exact .cons (.call (callArguments_eq_ok hargs)) (ih hrest)

/-! ## The conversation so far -/

/-- The calls of a message as they stand in the table of names, the last one first. -/
def entered (calls : List RequestCall) : List (Json × Json) :=
  (calls.map fun c => (c.id, c.name)).reverse

theorem mem_entered {calls : List RequestCall} {e : Json × Json} :
    e ∈ entered calls ↔ ∃ c ∈ calls, (c.id, c.name) = e := by
  rw [entered, List.mem_reverse, List.mem_map]

/-- What has been told of the messages so far. -/
structure Progress.Follows (p : Progress) (before : List RequestMessage) : Prop where
  told : List.Forall₂ Tells (turnsOf before).reverse p.turns
  afterResult : p.afterResult = before.getLast?.any (·.isBy .tool)
  /-- The calls that may be answered come first in the table. -/
  callNames : ∀ asker, MayAnswer before asker →
    ∃ older, p.callNames = entered asker.toolCalls ++ older

theorem follows_nil : Progress.Follows {} [] where
  told := .nil
  afterResult := rfl
  callNames := fun asker hasker => by
    obtain ⟨init, l, hsplit, -⟩ := hasker.last
    exact absurd hsplit (by simp)

/-- The name under which a call is found that may be answered. -/
theorem Progress.Follows.callName {p : Progress} (h : p.Follows before)
    (hbefore : AcceptedMessages before) {asker : RequestMessage} (hasker : MayAnswer before asker)
    {id : Json} (hasked : ∃ c ∈ asker.toolCalls, id.sameKey c.id = true) :
    ∃ c, Answers before id c ∧ p.callName id = c.name := by
  obtain ⟨older, hnames⟩ := h.callNames asker hasker
  have hcalls := hbefore.calls hasker
  obtain ⟨d, hd, hsame⟩ := hasked
  have hentered : (d.id, d.name) ∈ entered asker.toolCalls := mem_entered.mpr ⟨d, hd, rfl⟩
  -- the calls of the one that is answered come first, so one of them is found
  have hfind : p.callNames.find? (fun entry => id.sameKey entry.1) =
      (entered asker.toolCalls).find? fun entry => id.sameKey entry.1 := by
    rw [hnames, List.find?_append]
    exact Option.or_of_isSome (List.find?_isSome.mpr ⟨_, hentered, hsame⟩)
  cases hfound : (entered asker.toolCalls).find? (fun entry => id.sameKey entry.1) with
  | none => exact absurd hsame (List.find?_eq_none.mp hfound _ hentered)
  | some found =>
      obtain ⟨c, hc, rfl⟩ := mem_entered.mp (List.mem_of_find?_eq_some hfound)
      have hkey : id.sameKey c.id = true := by simpa using List.find?_some hfound
      refine ⟨c, ⟨⟨asker, hasker, hc, hcalls, fun s hs e he heid => ?_⟩, hkey⟩, ?_⟩
      · rw [hs, Json.sameKey_text_left] at hkey
        exact hcalls.eq_of_text he hc heid hkey
      · have hname : p.callName id = ((p.callNames.find? fun entry => id.sameKey entry.1).map
            (·.2)).getD (.text "unknown_tool") := rfl
        rw [hname, hfind, hfound]
        rfl

/-- A turn of results goes on with another one. -/
theorem Tells.snoc {run : List Placed} {p q : Placed} {t : Turn} {part : Part}
    (h : Tells (run ++ [p]) t) (hp : p.message.isBy .tool = true) (hq : Reports q part) :
    Tells (run ++ [p] ++ [q]) { t with parts := t.parts ++ [part] } := by
  generalize hps : run ++ [p] = ps at h
  cases h with
  | results hparts => exact .results (List.rel_append hparts (.cons hq .nil))
  | @speech before m content calls hby hcontent hcalls =>
      obtain ⟨-, hlast⟩ := List.append_inj' (hps.trans (List.nil_append _).symm) rfl
      obtain rfl := List.singleton_inj.mp hlast
      exact absurd hp (by simp [hby])

section Step

variable {p p' : Progress} {room i : Nat}

/-- What is not a tool's is told in a turn of its own. -/
theorem Progress.Follows.speech (h : p.Follows before) {content : String}
    (hsystem : m.isBy .system = false) (htool : m.isBy .tool = false)
    (hcontent : m.content = .text content) (hadd : p.add room i m = .ok p') :
    p'.Follows (before ++ [m]) := by
  rw [Progress.add, hsystem, htool, if_neg (by simp), if_neg (by simp), exceptMap_eq_ok] at hadd
  obtain ⟨calls, hcalls, rfl⟩ := hadd
  have hspoken : (if m.content.isGiven then [Part.text m.content] else []) =
      if content = "" then [] else [.text (.text content)] := by
    rw [hcontent]
    by_cases hempty : content = "" <;> simp [Json.isGiven, hempty]
  have hshares : ∀ q ∈ (spokenMessages before).getLast?, sharesTurn q ⟨before, m⟩ = false := by
    intro q _
    rw [sharesTurn, htool, Bool.and_false]
  constructor
  · rw [turnsOf_snoc_apart hsystem hshares, List.reverse_append, hspoken]
    exact .cons (.speech htool hcontent (asks_of_callParts hcalls)) h.told
  · rw [List.getLast?_concat]
    exact htool.symm
  · intro asker hasker
    rcases mayAnswer_snoc.mp hasker with ⟨rfl, -⟩ | ⟨-, hby⟩
    · exact ⟨p.callNames, rfl⟩
    · exact absurd hby (by simp [htool])

/-- A result is told in the turn of the results before it, or in a new one. -/
theorem Progress.Follows.result (h : p.Follows before) {part : Part}
    (hpart : Reports ⟨before, m⟩ part) (hm : m.isBy .tool = true) {asker : RequestMessage}
    (hasker : MayAnswer before asker) :
    (p.addResult part).Follows (before ++ [m]) := by
  have hsystem : m.isBy .system = false := isBy_eq_false hm (by simp)
  have hnames : ∀ asker, MayAnswer (before ++ [m]) asker →
      ∃ older, (p.addResult part).callNames = entered asker.toolCalls ++ older := by
    intro asker hasker
    rw [Progress.callNames_addResult]
    rcases mayAnswer_snoc.mp hasker with ⟨-, hby⟩ | ⟨hasker, -⟩
    · exact absurd hm (by simp [isBy_eq_false hby])
    · exact h.callNames asker hasker
  obtain ⟨init, l, rfl, hl⟩ := hasker.last
  have hafter := h.afterResult
  rw [List.getLast?_concat, Option.any_some] at hafter
  rcases hl with hl | hl
  · -- nothing has been answered yet
    have hapart : l.isBy .tool = false := isBy_eq_false hl (by simp)
    have hturn : p.addResult part =
        { p with turns := ⟨false, [part]⟩ :: p.turns, afterResult := true } := by
      rw [Progress.addResult, hafter, hapart]
    have hshares : ∀ q ∈ (spokenMessages (init ++ [l])).getLast?,
        sharesTurn q ⟨init ++ [l], m⟩ = false := by
      intro q hq
      rw [spokenMessages_snoc (isBy_eq_false hl (by simp)), List.getLast?_concat] at hq
      obtain rfl := Option.some.inj hq
      rw [sharesTurn, hapart, Bool.false_and]
    refine ⟨?_, ?_, hnames⟩
    · rw [turnsOf_snoc_apart hsystem hshares, List.reverse_append, hturn]
      exact .cons (.results (.cons hpart .nil)) h.told
    · rw [hturn, List.getLast?_concat]
      exact hm.symm
  · obtain ⟨runs, run, hbefore, hafterwards⟩ :=
      turnsOf_snoc_shared hl (isBy_eq_false hl (by simp)) hm hsystem
    have htold := h.told
    rw [hbefore, List.reverse_append] at htold
    cases hturns : p.turns with
    | nil =>
        rw [hturns] at htold
        cases htold
    | cons t ts =>
        rw [hturns] at htold
        obtain ⟨ht, hts⟩ := List.forall₂_cons.mp htold
        have hturn : p.addResult part =
            { p with turns := { t with parts := t.parts ++ [part] } :: ts } := by
          rw [Progress.addResult, hafter, hl, hturns]
        refine ⟨?_, ?_, hnames⟩
        · rw [hafterwards, List.reverse_append, hturn]
          exact .cons (ht.snoc hl hpart) hts
        · rw [hturn, List.getLast?_concat]
          show p.afterResult = m.isBy .tool
          rw [hafter, hl, hm]

/-- **One step.** An accepted message that is added is told. -/
theorem Progress.Follows.add (h : p.Follows before) (hbefore : AcceptedMessages before)
    (hm : AcceptedAfter before m) (hadd : p.add room i m = .ok p') :
    p'.Follows (before ++ [m]) := by
  have hby {r : Role} (hr : m.role = .text r.name) := isBy_of_role hr
  cases hm with
  | @system content hearlier hcontent =>
      have hby := hby (r := .system) rfl
      rw [Progress.add, hby, if_pos (by simp)] at hadd
      obtain rfl := Except.ok.inj hadd
      refine ⟨?_, ?_, fun asker hasker => ?_⟩
      · rw [turnsOf_snoc_system (by rw [hby]; rfl)]
        exact h.told
      · -- no tool has spoken before the system
        have hnone : before.getLast?.any (·.isBy .tool) = false := by
          cases hlast : before.getLast? with
          | none => rfl
          | some l => exact isBy_eq_false (hearlier l (List.mem_of_getLast? hlast)) (by simp)
        rw [h.afterResult, hnone, List.getLast?_concat, Option.any_some, hby]
        rfl
      · rcases mayAnswer_snoc.mp hasker with ⟨-, hm⟩ | ⟨-, hm⟩ <;> exact absurd hm (by simp [hby])
  | @user content hcontent =>
      have hby := hby (r := .user) rfl
      exact h.speech (by rw [hby]; rfl) (by rw [hby]; rfl) rfl hadd
  | @assistant content calls hvoiced hcalls =>
      have hby := hby (r := .assistant) rfl
      exact h.speech (by rw [hby]; rfl) (by rw [hby]; rfl) rfl hadd
  | @tool content id hgiven hkey asker hasker hasked =>
      have hby := hby (r := .tool) rfl
      obtain ⟨c, hanswers, hname⟩ := h.callName hbefore hasker hasked
      have hid : answerId
          { role := .text Role.tool.name, content := .text content, toolCallId := id } = id :=
        if_pos hgiven
      rw [Progress.add, hby, hby, if_neg (by simp), if_pos (by simp), exceptMap_eq_ok] at hadd
      obtain ⟨part, hpart, rfl⟩ := hadd
      rw [Progress.resultPart, hid, hkey, if_neg (by simp), hname] at hpart
      obtain ⟨es, hes, rfl⟩ := exceptMap_eq_ok.mp hpart
      have htold : Reports
          ⟨before, { role := .text Role.tool.name, content := .text content, toolCallId := id }⟩
          (.result id c.name es) :=
        .result (by rw [hby]; rfl) hanswers rfl (packs_of_resultObject hes)
      exact h.result htold (by rw [hby]; rfl) hasker

/-- **The run.** When all messages have been added, all have been told. -/
theorem Progress.Follows.addAll {ms : List RequestMessage} (h : p.Follows before)
    (hms : AcceptedMessages (before ++ ms)) (hadd : p.addAll room i ms = .ok p') :
    p'.Follows (before ++ ms) := by
  induction ms generalizing p i before with
  | nil =>
      obtain rfl := Except.ok.inj hadd
      rwa [List.append_nil]
  | cons m ms ih =>
      rw [Progress.addAll] at hadd
      split at hadd
      · next next hm =>
        have hbefore : AcceptedMessages before := hms.of_append
        have haccepted : AcceptedAfter before m := hms before m ms rfl
        rw [List.append_cons] at hms ⊢
        exact ih (h.add hbefore haccepted hm) hms hadd
      · exact absurd hadd (by simp)

end Step

/-! ## The turns of a conversation -/

/-- The turns tell the conversation. -/
theorem tells_of_turns {room : Nat} {ms : List RequestMessage} {ts : List Turn}
    (hms : AcceptedMessages ms) (h : turns room ms = .ok ts) :
    List.Forall₂ Tells (turnsOf ms) ts := by
  obtain ⟨p, hadd, rfl⟩ := exceptMap_eq_ok.mp h
  have hfollows : p.Follows ([] ++ ms) := follows_nil.addAll hms hadd
  have htold := List.forall₂_reverse_iff.mpr hfollows.told
  rwa [List.reverse_reverse] at htold

theorem mem_placedFrom {p : Placed} {ms : List RequestMessage} (h : p ∈ placedFrom before ms) :
    ∃ later, before ++ ms = p.before ++ p.message :: later := by
  induction ms generalizing before with
  | nil => exact absurd h List.not_mem_nil
  | cons m ms ih =>
      rcases List.mem_cons.mp h with rfl | h
      · exact ⟨ms, rfl⟩
      · obtain ⟨later, hsplit⟩ := ih h
        exact ⟨later, by rw [List.append_cons, hsplit]⟩

theorem mem_spokenMessages_of_mem_turn {ms : List RequestMessage} {run : List Placed}
    (hrun : run ∈ turnsOf ms) {p : Placed} (hp : p ∈ run) : p ∈ spokenMessages ms := by
  rw [← List.flatten_splitBy sharesTurn (spokenMessages ms)]
  exact List.mem_flatten.mpr ⟨run, hrun, hp⟩

/-- The messages of a turn stand in the conversation where they are placed. -/
theorem split_of_mem_turn {ms : List RequestMessage} {run : List Placed} (hrun : run ∈ turnsOf ms)
    {p : Placed} (hp : p ∈ run) : ∃ later, ms = p.before ++ p.message :: later :=
  mem_placedFrom (List.mem_of_mem_filter (mem_spokenMessages_of_mem_turn hrun hp))

theorem not_system_of_mem_turn {ms : List RequestMessage} {run : List Placed}
    (hrun : run ∈ turnsOf ms) {p : Placed} (hp : p ∈ run) : p.message.isBy .system = false := by
  have hspoken := List.of_mem_filter (mem_spokenMessages_of_mem_turn hrun hp)
  simpa using hspoken

theorem accepted_of_mem_turn {ms : List RequestMessage} (hms : AcceptedMessages ms)
    {run : List Placed} (hrun : run ∈ turnsOf ms) {p : Placed} (hp : p ∈ run) :
    AcceptedAfter p.before p.message := by
  obtain ⟨later, hsplit⟩ := split_of_mem_turn hrun hp
  exact hms _ _ later hsplit

/-- Whether a turn holds the result of a call. -/
def Turn.holdsResult (t : Turn) : Bool := t.parts.any Part.isResult

theorem not_isResult_of_asks {calls : List RequestCall} {parts : List Part}
    (h : List.Forall₂ Asks calls parts) : parts.any Part.isResult = false := by
  induction h with
  | nil => rfl
  | cons hc _ ih =>
      obtain ⟨hload⟩ := hc
      rw [List.any_cons, ih]
      rfl

/-- What someone says and the calls that are asked for hold no result. -/
theorem not_isResult_of_speech {content : String} {calls : List RequestCall} {parts : List Part}
    (h : List.Forall₂ Asks calls parts) :
    ((if content = "" then [] else [Part.text (.text content)]) ++ parts).any Part.isResult =
      false := by
  rw [List.any_append, not_isResult_of_asks h, Bool.or_false]
  by_cases hempty : content = "" <;> simp [hempty, Part.isResult]

theorem isBy_tool_of_reports {ps : List Placed} {parts : List Part}
    (h : List.Forall₂ Reports ps parts) : ∀ p ∈ ps, p.message.isBy .tool = true := by
  induction h with
  | nil => simp
  | cons hp _ ih =>
      obtain ⟨hby, -, -⟩ := hp
      exact List.forall_mem_cons.mpr ⟨hby, ih⟩

/-- A turn with a result tells what tools say, and nothing else. -/
theorem Tells.isBy_tool {ps : List Placed} {t : Turn} (h : Tells ps t) (ht : t.holdsResult = true) :
    ∀ p ∈ ps, p.message.isBy .tool = true := by
  cases h with
  | results hparts => exact isBy_tool_of_reports hparts
  | @speech before m content calls hby hcontent hcalls =>
      rw [Turn.holdsResult, not_isResult_of_speech hcalls] at ht
      exact absurd ht (by simp)

/-- A turn of accepted messages has something in it. -/
theorem Tells.parts_ne_nil {ps : List Placed} {t : Turn} (h : Tells ps t) (hps : ps ≠ [])
    (haccepted : ∀ p ∈ ps, AcceptedAfter p.before p.message) : t.parts ≠ [] := by
  cases h with
  | results hparts =>
      rintro rfl
      exact hps (List.forall₂_nil_right_iff.mp hparts)
  | @speech before m content calls hby hcontent hcalls =>
      have hm : AcceptedAfter before m := haccepted _ (List.mem_singleton.mpr rfl)
      by_cases hempty : content = ""
      · -- an empty text is accepted where there are calls
        subst hempty
        have hasked : m.toolCalls ≠ [] := by
          cases hm with
          | assistant hvoiced hcalls =>
              obtain rfl := Json.text.inj hcontent
              exact hvoiced.resolve_left (by simp)
          | system hbefore hblank =>
              obtain rfl := Json.text.inj hcontent
              exact absurd hblank (by decide)
          | user hblank =>
              obtain rfl := Json.text.inj hcontent
              exact absurd hblank (by decide)
          | tool => exact absurd hby (by rw [isBy_of_role (r := .tool) rfl]; simp)
        rintro hnil
        obtain rfl : calls = [] := by simpa using hnil
        exact hasked (List.forall₂_nil_right_iff.mp hcalls)
      · simp [hempty]

section Alongside

variable {α β : Type} {S : α → β → Prop} {as : List α} {bs : List β}

theorem exists_of_forall₂ (h : List.Forall₂ S as bs) {b : β} (hb : b ∈ bs) : ∃ a ∈ as, S a b := by
  induction h with
  | nil => exact absurd hb List.not_mem_nil
  | @cons a' b' as bs hab _ ih =>
      rcases List.mem_cons.mp hb with rfl | hb
      · exact ⟨a', List.mem_cons_self, hab⟩
      · obtain ⟨a, ha, hab⟩ := ih hb
        exact ⟨a, List.mem_cons_of_mem _ ha, hab⟩

theorem exists_of_forall₂_left (h : List.Forall₂ S as bs) {a : α} (ha : a ∈ as) :
    ∃ b ∈ bs, S a b := by
  obtain ⟨b, hb, hab⟩ := exists_of_forall₂ (S := flip S) (List.Forall₂.flip h) ha
  exact ⟨b, hb, hab⟩

/-- What holds of neighbours on one side holds of their counterparts. -/
theorem isChain_of_forall₂ {R : α → α → Prop} {Q : β → β → Prop}
    (hQ : ∀ a a' b b', S a b → S a' b' → R a a' → Q b b') (h : List.Forall₂ S as bs)
    (has : as.IsChain R) : bs.IsChain Q := by
  induction h with
  | nil => exact List.isChain_nil
  | @cons a b as bs hab hrest ih =>
      cases hrest with
      | nil => exact List.isChain_singleton _
      | @cons a' b' as bs hab' hrest =>
          obtain ⟨hR, has⟩ := List.isChain_cons_cons.mp has
          exact List.isChain_cons_cons.mpr ⟨hQ _ _ _ _ hab hab' hR, ih has⟩

end Alongside

/-- Of two turns next to each other one has no result. -/
theorem results_apart {ms : List RequestMessage} {ts : List Turn}
    (h : List.Forall₂ Tells (turnsOf ms) ts) :
    ts.IsChain fun t u => ¬ (t.holdsResult = true ∧ u.holdsResult = true) := by
  refine isChain_of_forall₂ ?_ h (List.isChain_getLast_head_splitBy sharesTurn (spokenMessages ms))
  rintro ps qs t u ht hu ⟨hps, hqs, hapart⟩ ⟨htresult, huresult⟩
  -- two such runs of tool messages would have been one
  rw [sharesTurn, ht.isBy_tool htresult _ (List.getLast_mem hps),
    hu.isBy_tool huresult _ (List.head_mem hqs)] at hapart
  exact absurd hapart (by simp)

/-! ## The system's text among the turns -/

/-- Turns to which the text of the system messages has been added: in front of the first one in
which the user speaks, or ahead of all of them where there is none. -/
inductive Folded (system : String) : List Turn → List Turn → Prop
  | into {earlier later : List Turn} {t : Turn} (hearlier : ∀ u ∈ earlier, u.isSpoken = false)
    (ht : t.isSpoken = true) :
    Folded system (earlier ++ t :: later)
      (earlier ++ { t with parts := .text (.text (system ++ "\n\n")) :: t.parts } :: later)
  | ahead {ts : List Turn} (h : ∀ u ∈ ts, u.isSpoken = false) :
    Folded system ts (⟨false, [.text (.text system)]⟩ :: ts)

theorem foldInto?_spec (system : String) (ts : List Turn) :
    (foldInto? system ts = none ∧ ∀ u ∈ ts, u.isSpoken = false) ∨
    ∃ earlier t later, ts = earlier ++ t :: later ∧ (∀ u ∈ earlier, u.isSpoken = false) ∧
      t.isSpoken = true ∧ foldInto? system ts = some
        (earlier ++ { t with parts := .text (.text (system ++ "\n\n")) :: t.parts } :: later) := by
  induction ts with
  | nil => exact .inl ⟨rfl, by simp⟩
  | cons u ts ih =>
      by_cases hu : u.isSpoken = true
      · exact .inr ⟨[], u, ts, rfl, by simp, hu, if_pos hu⟩
      · have hu : u.isSpoken = false := by simpa using hu
        rw [foldInto?, hu, if_neg (by simp)]
        rcases ih with ⟨hnone, hts⟩ | ⟨earlier, t, later, rfl, hearlier, ht, hsome⟩
        · exact .inl ⟨by rw [hnone]; rfl, List.forall_mem_cons.mpr ⟨hu, hts⟩⟩
        · refine .inr ⟨u :: earlier, t, later, rfl, List.forall_mem_cons.mpr ⟨hu, hearlier⟩, ht, ?_⟩
          rw [hsome]
          rfl

theorem folded_foldSystem (system : String) (ts : List Turn) :
    Folded system ts (foldSystem system ts) := by
  rw [foldSystem]
  rcases foldInto?_spec system ts with ⟨hnone, hts⟩ | ⟨earlier, t, later, rfl, hearlier, ht, hsome⟩
  · rw [hnone]
    exact .ahead hts
  · rw [hsome]
    exact .into hearlier ht

theorem Folded.ne_nil {system : String} {ts contents : List Turn} (h : Folded system ts contents) :
    contents ≠ [] := by
  cases h <;> simp

/-- The text goes where there is no result, and leaves what there is. -/
theorem Folded.keeps {system : String} {ts contents : List Turn} (h : Folded system ts contents)
    (hparts : ∀ t ∈ ts, t.parts ≠ [])
    (hapart : ts.IsChain fun t u => ¬ (t.holdsResult = true ∧ u.holdsResult = true)) :
    (∀ t ∈ contents, t.parts ≠ []) ∧
      contents.IsChain fun t u => ¬ (t.holdsResult = true ∧ u.holdsResult = true) := by
  cases h with
  | @into earlier later t hearlier ht =>
      obtain ⟨hparts, hrest⟩ := List.forall_mem_append.mp hparts
      refine ⟨List.forall_mem_append.mpr ⟨hparts, List.forall_mem_cons.mpr ⟨by simp, ?_⟩⟩, ?_⟩
      · exact fun u hu => hrest u (List.mem_cons_of_mem _ hu)
      · refine isChain_of_forall₂ (S := fun t u => t.holdsResult = u.holdsResult) ?_ ?_ hapart
        · rintro t t' u u' htu htu' hnot ⟨hu, hu'⟩
          exact hnot ⟨htu.trans hu, htu'.trans hu'⟩
        · exact List.rel_append (List.forall₂_refl earlier) (.cons rfl (List.forall₂_refl later))
  | ahead hts =>
      refine ⟨List.forall_mem_cons.mpr ⟨by simp, hparts⟩, List.isChain_cons.mpr ⟨?_, hapart⟩⟩
      rintro u - ⟨hfirst, -⟩
      exact absurd hfirst (by simp [Turn.holdsResult, Part.isResult])

/-! ## The contents of a body -/

/-- The turns that are sent: with the system's text among them where it has no other place. -/
def sentTurns (a : Adapter) (model : String) (system : Option String) (ts : List Turn) :
    List Turn :=
  match system with
  | none => ts
  | some system => if folds a model ts then foldSystem system ts else ts

theorem contents_renderBody (a : Adapter) (r : Request) (model : String) (system : Option String)
    (ts : List Turn) : (renderBody a r model system ts).get? "contents" =
      some (.list ((sentTurns a model system ts).map Turn.json)) := by
  cases system with
  | none => rfl
  | some system =>
      rw [renderBody, sentTurns]
      split <;> rfl

/-- Where there is no system text there are no system messages. -/
theorem no_system_of_systemText? {ms : List RequestMessage} (h : systemText? ms = .ok none) :
    ∀ m ∈ ms, m.isBy .system = false := by
  unfold systemText? at h
  split at h
  · next hnone =>
    intro m hm
    have hfilter := List.filter_eq_nil_iff.mp (List.map_eq_nil_iff.mp hnone) m hm
    simpa using hfilter
  · split at h <;> exact absurd h (by simp)

/-- A message that is not the system's comes in some turn. -/
theorem turnsOf_ne_nil {ms : List RequestMessage} (hms : ms ≠ [])
    (hsystem : ∀ m ∈ ms, m.isBy .system = false) : turnsOf ms ≠ [] := by
  rcases List.eq_nil_or_concat ms with rfl | ⟨before, m, rfl⟩
  · exact absurd rfl hms
  · rw [List.concat_eq_append] at hsystem ⊢
    rw [turnsOf, spokenMessages_snoc (hsystem m (by simp)), List.splitBy_ne_nil]
    simp

end ChatClient.Gemini

namespace ChatClient

/-- **The contents tell the conversation.** Whenever an accepted request is written for Gemini,
there is a turn for each run of tool messages and for each other message, and it tells what they
say: each result under the id of its message and the name of the call that this answers. The
contents are these turns, with the system's text among them if need be. There are some, each has a
part, and of two contents next to each other one has no result. -/
theorem Gemini.contents_tell {a : Adapter} (ha : a.provider = .gemini) {r : Request}
    (hr : r.validate = .ok ()) {model : String} {stream : Bool} {written : WireRequest}
    {log : List LogLine} (h : a.render r model stream = .ok (written, log)) :
    ∃ body ts contents, written.body = some body ∧
      body.field? "contents" = some (.list (contents.map Turn.json)) ∧
      List.Forall₂ Tells (turnsOf r.messages) ts ∧
      (contents = ts ∨
        ∃ system, systemText? r.messages = .ok (some system) ∧ Folded system ts contents) ∧
      contents ≠ [] ∧ (∀ t ∈ contents, t.parts ≠ []) ∧
      contents.IsChain fun t u => ¬ (t.holdsResult = true ∧ u.holdsResult = true) := by
  have hr := accepted_of_validate hr
  rw [Adapter.render, ha] at h
  simp only [Gemini.render, bind_eq_ok] at h
  obtain ⟨ts, hturns, system, hsystem, hwritten⟩ := h
  obtain ⟨rfl, -⟩ := Prod.mk.inj (Except.ok.inj hwritten)
  have htells := tells_of_turns hr.messages hturns
  have hparts : ∀ t ∈ ts, t.parts ≠ [] := by
    intro t ht
    obtain ⟨run, hrun, htold⟩ := exists_of_forall₂ htells ht
    exact htold.parts_ne_nil (List.ne_nil_of_mem_splitBy hrun)
      fun p hp => accepted_of_mem_turn hr.messages hrun hp
  have hapart := results_apart htells
  refine ⟨_, ts, sentTurns a model system ts, rfl, contents_renderBody a r model system ts,
    htells, ?_⟩
  cases system with
  | none =>
      refine ⟨.inl rfl, ?_, hparts, hapart⟩
      rintro rfl
      exact turnsOf_ne_nil hr.nonempty (no_system_of_systemText? hsystem)
        (List.forall₂_nil_right_iff.mp htells)
  | some system =>
      by_cases hfolds : folds a model ts = true
      · have hfolded := folded_foldSystem system ts
        have hsent : sentTurns a model (some system) ts = foldSystem system ts := if_pos hfolds
        rw [hsent]
        exact ⟨.inr ⟨system, hsystem, hfolded⟩, hfolded.ne_nil, hfolded.keeps hparts hapart⟩
      · have hsent : sentTurns a model (some system) ts = ts := if_neg hfolds
        rw [hsent]
        refine ⟨.inl rfl, ?_, hparts, hapart⟩
        rintro rfl
        exact hfolds rfl

/-- A conversation in which an id comes again: the model calls one tool, and then two in a row. -/
def Gemini.rounds : Request :=
  { messages := [
      { role := .text "system", content := .text "Be brief." },
      { role := .text "user", content := .text "Where am I?" },
      { role := .text "assistant", toolCalls := [{ id := .text "c1", name := .text "locate" }] },
      { role := .text "tool", content := .text "Oslo", toolCallId := .text "c1" },
      { role := .text "assistant", content := .text "And when?", toolCalls := [
        { id := .text "c1", name := .text "clock" }, { id := .text "c2", name := .text "date" }] },
      { role := .text "tool", content := .text "May", toolCallId := .text "c2" },
      { role := .text "tool", content := .text "noon", toolCallId := .text "c1" }] }

/-- There are five turns, of which the last tells two messages; and for a model that takes no system
instruction the user's has the system's text in it. -/
theorem Gemini.contents_tell_rounds :
    let a : Adapter :=
      { provider := .gemini, credential := ⟨"gemini", "k"⟩, baseUrl := "https://x" }
    rounds.validate = .ok () ∧ (turnsOf rounds.messages).map List.length = [1, 1, 1, 1, 2] ∧
      ∃ written log ts contents, a.render rounds "gemma-3" true = .ok (written, log) ∧
        List.Forall₂ Tells (turnsOf rounds.messages) ts ∧ ts.length = 5 ∧
        (contents = ts ∨ Folded "Be brief." ts contents) := by
  intro a
  have hr : rounds.validate = .ok () := rfl
  have hlengths : (turnsOf rounds.messages).map List.length = [1, 1, 1, 1, 2] := rfl
  obtain ⟨written, log, h⟩ : ∃ written log, a.render rounds "gemma-3" true = .ok (written, log) :=
    ⟨_, _, rfl⟩
  obtain ⟨body, ts, contents, -, -, htells, hcontents, -⟩ := contents_tell (a := a) rfl hr h
  have hfive : ts.length = 5 := by
    rw [← htells.length_eq, ← List.length_map List.length, hlengths]
    rfl
  refine ⟨hr, hlengths, written, log, ts, contents, h, htells, hfive, ?_⟩
  refine hcontents.imp_right fun ⟨system, hsystem, hfolded⟩ => ?_
  obtain rfl : "Be brief." = system := by
    have htext : systemText? rounds.messages = .ok (some "Be brief.") := rfl
    exact Option.some.inj (Except.ok.inj (htext.symm.trans hsystem))
  exact hfolded

end ChatClient
