import Mathlib.Data.List.Find
import Mathlib.Data.List.Forall2
import Mathlib.Data.Option.Basic
import ChatClient.Classification
import ChatClient.Proofs.SideBySide

/-!
# Values that are read alike

This library looks at few texts of an answer: it knows some words, it takes some texts for
numbers, and otherwise a text is passed on unseen. So two answers may have other texts in the same
places, and as long as those say the same to the library, it classifies both in the same way, waits
as long, finds the same faults in both, and makes as many ids for both.
-/

namespace ChatClient

/-! ## Texts -/

/-- The names of the fields that are looked at. -/
def fieldWords : List String := [
  "error", "message", "code", "type", "status", "details", "@type", "retryDelay",
  "id", "model", "choices", "usage", "finish_reason", "content", "tool_calls", "function", "name",
  "arguments", "prompt_tokens", "completion_tokens", "total_tokens",
  "candidates", "usageMetadata", "usage_metadata", "promptFeedback", "prompt_feedback",
  "modelVersion", "model_version", "responseId", "response_id", "finishReason", "role", "parts",
  "text", "thought", "functionCall", "function_call", "args", "promptTokenCount",
  "prompt_token_count", "candidatesTokenCount", "candidates_token_count", "totalTokenCount",
  "total_token_count", "blockReason", "block_reason"]

/-- The words that decide what a failed answer means. -/
def markerWords : List String :=
  ["insufficient_quota", "rate_limit_exceeded"] ++ statusKinds.map (·.1)

/-- The words for a truth value. -/
def flagWords : List String :=
  ["0", "off", "f", "false", "n", "no", "1", "on", "t", "true", "y", "yes"]

/-- Two texts that say the same to this library. -/
structure ReadAlike (s t : String) : Prop where
  empty : s.isEmpty = t.isEmpty
  field : ∀ w ∈ fieldWords, s = w ↔ t = w
  marker : ∀ w ∈ markerWords, s = w ↔ t = w
  retryInfo : Text.occurs "RetryInfo" s = Text.occurs "RetryInfo" t
  duration : RetryAfter.duration? s = RetryAfter.duration? t
  whole : (Payload.wholeOfText? s).isSome = (Payload.wholeOfText? t).isSome
  flag : ∀ w ∈ flagWords, Text.lower s = w ↔ Text.lower t = w

theorem ReadAlike.refl (s : String) : ReadAlike s s where
  empty := rfl
  field _ _ := Iff.rfl
  marker _ _ := Iff.rfl
  retryInfo := rfl
  duration := rfl
  whole := rfl
  flag _ _ := Iff.rfl

/-! ## Values -/

namespace Json

mutual

/-- Two values that are the same but for texts in a relation. -/
inductive Alike (T : String → String → Prop) : Json → Json → Prop
  | null : Alike T .null .null
  | bool (b : Bool) : Alike T (.bool b) (.bool b)
  | int (n : Int) : Alike T (.int n) (.int n)
  | float (x : Float) : Alike T (.float x) (.float x)
  | text {s t : String} (h : T s t) : Alike T (.text s) (.text t)
  | list {vs ws : List Json} (h : AlikeItems T vs ws) : Alike T (.list vs) (.list ws)
  | object {es fs : Entries} (h : AlikeEntries T es fs) : Alike T (.object es) (.object fs)

/-- The same for the items of lists. -/
inductive AlikeItems (T : String → String → Prop) : List Json → List Json → Prop
  | nil : AlikeItems T [] []
  | cons {v w : Json} {vs ws : List Json} (h : Alike T v w) (hs : AlikeItems T vs ws) :
    AlikeItems T (v :: vs) (w :: ws)

/-- The same for the entries of objects, whose names are texts too. -/
inductive AlikeEntries (T : String → String → Prop) : Entries → Entries → Prop
  | nil : AlikeEntries T [] []
  | cons {k l : String} {v w : Json} {es fs : Entries} (hk : T k l) (h : Alike T v w)
    (hs : AlikeEntries T es fs) : AlikeEntries T ((k, v) :: es) ((l, w) :: fs)

end

variable {T S : String → String → Prop} {v w : Json} {es fs : Entries}

theorem AlikeItems.forall₂ {vs ws : List Json} (h : AlikeItems T vs ws) :
    List.Forall₂ (Alike T) vs ws := by
  induction vs generalizing ws with
  | nil =>
      cases h
      exact .nil
  | cons v vs ih =>
      cases h with
      | cons hv hvs => exact .cons hv (ih hvs)

/-- A name that both sides have in the same places leads to values that are alike. -/
theorem AlikeEntries.get? {name : String} (hname : ∀ s t, T s t → (s = name ↔ t = name))
    (h : AlikeEntries T es fs) : Option.Rel (Alike T) (es.get? name) (fs.get? name) := by
  induction es generalizing fs with
  | nil =>
      cases h
      exact .none
  | cons e es ih =>
      cases h with
      | @cons k l v w es fs hk hv hs =>
          rw [Entries.get?_cons, Entries.get?_cons]
          by_cases hkn : k = name
          · rw [if_pos hkn, if_pos ((hname k l hk).mp hkn)]
            exact .some hv
          · rw [if_neg hkn, if_neg (fun hl => hkn ((hname k l hk).mpr hl))]
            exact ih hs

theorem Alike.field? {name : String} (hname : ∀ s t, T s t → (s = name ↔ t = name))
    (h : Alike T v w) : Option.Rel (Alike T) (v.field? name) (w.field? name) := by
  cases h with
  | object h => exact h.get? hname
  | _ => exact .none

theorem Alike.text? (h : Alike T v w) : Option.Rel T v.text? w.text? := by
  cases h with
  | text h => exact .some h
  | _ => exact .none

end Json

/-! ## Failed answers -/

section

variable {T : String → String → Prop} {v w : Json} {es fs : Entries}

/-- A relation of texts that say the same to this library. -/
def SaysTheSame (T : String → String → Prop) : Prop := ∀ s t, T s t → ReadAlike s t

theorem SaysTheSame.field (hT : SaysTheSame T) (name : String) (hname : name ∈ fieldWords)
    (s t : String) (h : T s t) : s = name ↔ t = name := (hT s t h).field name hname

theorem errorObject_alike (hT : SaysTheSame T) (h : v.Alike T w) :
    Json.AlikeEntries T (errorObject v) (errorObject w) := by
  have herror := h.field? (hT.field "error" (by decide))
  unfold errorObject
  generalize v.field? "error" = o, w.field? "error" = o' at herror
  cases herror with
  | none => exact .nil
  | some h =>
      cases h with
      | object h => exact h
      | _ => exact .nil

/-- The text under a name, if there is one. -/
theorem text?_alike (hT : SaysTheSame T) (name : String) (hname : name ∈ fieldWords)
    (h : Json.AlikeEntries T es fs) :
    Option.Rel T ((es.get? name).bind Json.text?) ((fs.get? name).bind Json.text?) := by
  have hget := h.get? (hT.field name hname)
  generalize es.get? name = o, fs.get? name = o' at hget
  cases hget with
  | none => exact .none
  | some h => exact h.text?

theorem hasMarker_alike (hT : SaysTheSame T) (marker : String) (hmarker : marker ∈ markerWords)
    (h : Json.AlikeEntries T es fs) : hasMarker es marker = hasMarker fs marker := by
  have hmarked (name : String) (hname : name ∈ fieldWords) :
      ((es.get? name).bind Json.text? == some marker) =
        ((fs.get? name).bind Json.text? == some marker) := by
    have htext := text?_alike hT name hname h
    generalize (es.get? name).bind Json.text? = o, (fs.get? name).bind Json.text? = o' at htext
    cases htext with
    | none => rfl
    | some h =>
        rw [Bool.eq_iff_iff]
        simpa using (hT _ _ h).marker marker hmarker
  unfold hasMarker
  dsimp only
  rw [hmarked "code" (by decide), hmarked "type" (by decide)]

/-- What is looked up by a text that may be a status of Gemini's. -/
theorem statusKind_alike {s t : String} (h : ReadAlike s t) :
    statusKinds.find? (·.1 == s) = statusKinds.find? (·.1 == t) := by
  refine List.find?_congr fun e he => ?_
  have hword : e.1 ∈ markerWords := List.mem_append_right _ (List.mem_map_of_mem he)
  rw [Bool.eq_iff_iff, beq_iff_eq, beq_iff_eq, eq_comm, h.marker e.1 hword, eq_comm]

/-- **A failed answer means the same.** -/
theorem classify_alike (hT : SaysTheSame T) (p : Provider) (status : Int) (h : v.Alike T w) :
    p.classify status v = p.classify status w := by
  have herror := errorObject_alike hT h
  unfold Provider.classify
  cases p with
  | groq =>
      dsimp only
      rw [hasMarker_alike hT "insufficient_quota" (by decide) herror,
        hasMarker_alike hT "rate_limit_exceeded" (by decide) herror]
  | gemini =>
      have hstatus := text?_alike hT "status" (by decide) herror
      dsimp only
      generalize ((errorObject v).get? "status").bind Json.text? = o,
        ((errorObject w).get? "status").bind Json.text? = o' at hstatus
      cases hstatus with
      | none => rfl
      | some h => simp only [Option.bind_some, statusKind_alike (hT _ _ h)]

theorem findSome?_alike {α β γ : Type} {R : α → β → Prop} {f : α → Option γ} {g : β → Option γ}
    (hfg : ∀ a b, R a b → f a = g b) {as : List α} {bs : List β} (h : List.Forall₂ R as bs) :
    as.findSome? f = bs.findSome? g := by
  induction h with
  | nil => rfl
  | cons hab _ ih => rw [List.findSome?_cons, List.findSome?_cons, hfg _ _ hab, ih]

namespace RetryAfter

theorem ofDetail?_alike (hT : SaysTheSame T) (h : v.Alike T w) : ofDetail? v = ofDetail? w := by
  have hkind := h.field? (hT.field "@type" (by decide))
  have hdelay := h.field? (hT.field "retryDelay" (by decide))
  unfold ofDetail?
  generalize v.field? "@type" = o, w.field? "@type" = o' at hkind
  generalize v.field? "retryDelay" = d, w.field? "retryDelay" = d' at hdelay
  cases hkind with
  | none => rfl
  | some hk =>
      cases hdelay with
      | none => cases hk <;> rfl
      | some hd =>
          cases hk with
          | text hk =>
              cases hd with
              | text hd => simp only [(hT _ _ hk).retryInfo, (hT _ _ hd).duration]
              | _ => rfl
          | _ => cases hd <;> rfl

theorem ofDetails?_alike (hT : SaysTheSame T) (h : v.Alike T w) : ofDetails? v = ofDetails? w := by
  have hdetails := (errorObject_alike hT h).get? (hT.field "details" (by decide))
  unfold ofDetails?
  generalize (errorObject v).get? "details" = o, (errorObject w).get? "details" = o' at hdetails
  cases hdetails with
  | none => rfl
  | some hd =>
      cases hd with
      | list hd => exact findSome?_alike (fun _ _ h => ofDetail?_alike hT h) hd.forall₂
      | _ => rfl

end RetryAfter

/-- It asks for the same wait. -/
theorem retryAfter_alike (hT : SaysTheSame T) (a : Adapter) (now : Float) (headers : Headers)
    (h : v.Alike T w) : a.retryAfter now v headers = a.retryAfter now w headers := by
  unfold Adapter.retryAfter
  rw [RetryAfter.ofDetails?_alike hT h]

/-- What a service says about an error is the same text, one in the relation, or nothing. -/
theorem errorDetail_alike (hT : SaysTheSame T) (h : v.Alike T w) :
    T (errorDetail v) (errorDetail w) ∨ (errorDetail v = "" ∧ errorDetail w = "") := by
  have hmessage := text?_alike hT "message" (by decide) (errorObject_alike hT h)
  have hbody : T (v.text?.getD "") (w.text?.getD "") ∨
      (v.text?.getD "" = "" ∧ w.text?.getD "" = "") := by
    have htext := h.text?
    generalize v.text? = o, w.text? = o' at htext
    cases htext with
    | none => exact .inr ⟨rfl, rfl⟩
    | some h => exact .inl h
  unfold errorDetail
  generalize ((errorObject v).get? "message").bind Json.text? = o,
    ((errorObject w).get? "message").bind Json.text? = o' at hmessage
  cases hmessage with
  | none => exact hbody
  | @some s t h =>
      have hempty := (hT s t h).empty
      simp only [given?, Option.filter_some, hempty]
      cases t.isEmpty with
      | true => exact hbody
      | false => exact .inl h

end

/-! ## Payloads -/

namespace Payload

variable {α β γ δ : Type}

/-- Two checked values with the same faults, or two values in a relation. -/
inductive Checked.Alike (R : α → β → Prop) : Checked α → Checked β → Prop
  | ok {a : α} {b : β} (h : R a b) : Alike R (.ok a) (.ok b)
  | faulty (ps : List Path) : Alike R (.faulty ps) (.faulty ps)

namespace Checked.Alike

variable {R : α → β → Prop} {S : γ → δ → Prop} {x : Checked α} {y : Checked β}

theorem map {f : α → γ} {g : β → δ} (h : Checked.Alike R x y) (hfg : ∀ a b, R a b → S (f a) (g b)) :
    Checked.Alike S (f <$> x) (g <$> y) := by
  cases h with
  | ok h => exact .ok (hfg _ _ h)
  | faulty ps => exact .faulty ps

theorem seq {c : Checked (α → γ)} {d : Checked (β → δ)}
    (hcd : Checked.Alike (fun f g => ∀ a b, R a b → S (f a) (g b)) c d) (h : Checked.Alike R x y) :
    Checked.Alike S (c <*> x) (d <*> y) := by
  cases hcd with
  | ok hfg =>
      cases h with
      | ok h => exact .ok (hfg _ _ h)
      | faulty ps => exact .faulty ps
  | faulty ps =>
      cases h with
      | ok h => exact .faulty ps
      | faulty qs => exact .faulty (ps ++ qs)

theorem under (step : Step) (h : Checked.Alike R x y) :
    Checked.Alike R (x.under step) (y.under step) := by
  cases h with
  | ok h => exact .ok h
  | faulty ps => exact .faulty _

end Checked.Alike

section

variable {T : String → String → Prop} {es fs : Entries} {R : α → α → Prop} {d : Decoder α}

/-- A decoder finds the same faults in values that are alike, or reads values in a relation. -/
def DecodesAlike (T : String → String → Prop) (d : Decoder α) (R : α → α → Prop) : Prop :=
  ∀ v w, v.Alike T w → Checked.Alike R (d v) (d w)

theorem text_alike : DecodesAlike T text T := by
  intro v w h
  cases h with
  | text h => exact .ok h
  | _ => exact .faulty _

theorem whole_alike (hT : SaysTheSame T) : DecodesAlike T whole fun _ _ => True := by
  intro v w h
  have hrefl (x : Checked Int) : Checked.Alike (fun _ _ => True) x x := by
    cases x with
    | ok a => exact .ok trivial
    | faulty ps => exact .faulty ps
  cases h with
  | @text s t h =>
      have hsome := (hT _ _ h).whole
      simp only [whole]
      generalize wholeOfText? s = o, wholeOfText? t = o' at hsome
      cases o with
      | none =>
          obtain rfl : o' = none :=
            Option.isNone_iff_eq_none.mp (Option.isSome_eq_false_iff.mp hsome.symm)
          exact .faulty _
      | some n =>
          obtain ⟨m, rfl⟩ := Option.isSome_iff_exists.mp hsome.symm
          exact .ok trivial
  | list _ | object _ => exact .faulty _
  | _ => exact hrefl _

theorem mem_flagWords_alike {s t : String} (h : ReadAlike s t) (words : List String)
    (hwords : words ⊆ flagWords) : Text.lower s ∈ words ↔ Text.lower t ∈ words := by
  constructor
  · exact fun hs => (h.flag _ (hwords hs)).mp rfl ▸ hs
  · exact fun ht => (h.flag _ (hwords ht)).mpr rfl ▸ ht

theorem flag_alike (hT : SaysTheSame T) : DecodesAlike T flag Eq := by
  intro v w h
  have hrefl (x : Checked Bool) : Checked.Alike Eq x x := by
    cases x with
    | ok a => exact .ok rfl
    | faulty ps => exact .faulty ps
  cases h with
  | text h =>
      unfold flag
      simp only [
        mem_flagWords_alike (hT _ _ h) ["0", "off", "f", "false", "n", "no"] (by decide),
        mem_flagWords_alike (hT _ _ h) ["1", "on", "t", "true", "y", "yes"] (by decide)]
      exact hrefl _
  | list _ | object _ => exact .faulty _
  | _ => exact hrefl _

theorem object_alike : DecodesAlike T object (Json.AlikeEntries T) := by
  intro v w h
  cases h with
  | object h => exact .ok h
  | _ => exact .faulty _

theorem fields_alike {read : Entries → Checked α}
    (hread : ∀ es fs, Json.AlikeEntries T es fs → Checked.Alike R (read es) (read fs)) :
    DecodesAlike T (fields read) R := by
  intro v w h
  cases h with
  | object h => exact hread _ _ h
  | _ => exact .faulty _

theorem itemsFrom_alike (hd : DecodesAlike T d R) (i : Nat) {vs ws : List Json}
    (h : List.Forall₂ (Json.Alike T) vs ws) :
    Checked.Alike (List.Forall₂ R) (itemsFrom d i vs) (itemsFrom d i ws) := by
  induction h generalizing i with
  | nil => exact .ok .nil
  | cons hv _ ih =>
      have hhead := ((hd _ _ hv).under (.item i)).map
        (S := fun (f g : List α → List α) =>
          ∀ as bs, List.Forall₂ R as bs → List.Forall₂ R (f as) (g bs))
        fun _ _ hab _ _ hs => .cons hab hs
      exact hhead.seq (ih (i + 1))

theorem listOf_alike (hd : DecodesAlike T d R) : DecodesAlike T (listOf d) (List.Forall₂ R) := by
  intro v w h
  cases h with
  | list h =>
      exact itemsFrom_alike hd 0 h.forall₂
  | _ => exact .faulty _

/-- The same value is found under the first of some names that is there. -/
theorem lookup?_alike (hT : SaysTheSame T) (h : Json.AlikeEntries T es fs) (names : List String)
    (hnames : names ⊆ fieldWords) :
    Option.Rel (fun e f => e.1 = f.1 ∧ e.2.Alike T f.2) (lookup? es names) (lookup? fs names) := by
  induction names with
  | nil => exact .none
  | cons name names ih =>
      obtain ⟨hname, hnames⟩ := List.cons_subset.mp hnames
      have hget := h.get? (hT.field name hname)
      unfold lookup?
      rw [List.findSome?_cons, List.findSome?_cons]
      generalize es.get? name = o, fs.get? name = o' at hget
      cases hget with
      | none => exact ih hnames
      | some h => exact .some ⟨rfl, h⟩

theorem required_alike (hT : SaysTheSame T) (h : Json.AlikeEntries T es fs) (names : List String)
    (hnames : names ⊆ fieldWords) (hd : DecodesAlike T d R) :
    Checked.Alike R (required es names d) (required fs names d) := by
  have hlookup := lookup?_alike hT h names hnames
  unfold required
  generalize lookup? es names = o, lookup? fs names = o' at hlookup
  cases hlookup with
  | none => exact .faulty _
  | @some e f hef =>
      obtain ⟨name, v⟩ := e
      obtain ⟨name', w⟩ := f
      obtain ⟨rfl, hv⟩ := hef
      exact (hd v w hv).under _

theorem optional_alike (hT : SaysTheSame T) (h : Json.AlikeEntries T es fs) (names : List String)
    (hnames : names ⊆ fieldWords) (hd : DecodesAlike T d R) :
    Checked.Alike (Option.Rel R) (optional es names d) (optional fs names d) := by
  have hlookup := lookup?_alike hT h names hnames
  unfold optional
  generalize lookup? es names = o, lookup? fs names = o' at hlookup
  cases hlookup with
  | none => exact .ok .none
  | @some e f hef =>
      obtain ⟨name, v⟩ := e
      obtain ⟨name', w⟩ := f
      obtain ⟨rfl, hv⟩ := hef
      have hread := ((hd v w hv).under (.field name)).map (S := Option.Rel R) fun _ _ => .some
      cases hv with
      | null => exact .ok .none
      | _ => exact hread

theorem withDefault_alike (hT : SaysTheSame T) (h : Json.AlikeEntries T es fs)
    (names : List String) (hnames : names ⊆ fieldWords) (hd : DecodesAlike T d R) {default : α}
    (hdefault : R default default) :
    Checked.Alike R (withDefault es names d default) (withDefault fs names d default) := by
  have hlookup := lookup?_alike hT h names hnames
  unfold withDefault
  generalize lookup? es names = o, lookup? fs names = o' at hlookup
  cases hlookup with
  | none => exact .ok hdefault
  | @some e f hef =>
      obtain ⟨name, v⟩ := e
      obtain ⟨name', w⟩ := f
      obtain ⟨rfl, hv⟩ := hef
      exact (hd v w hv).under _

end

end Payload

end ChatClient
