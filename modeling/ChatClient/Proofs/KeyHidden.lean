import ChatClient.Proofs.AnswersAlike
import ChatClient.Proofs.CallRun
import ChatClient.Proofs.JsonBytes
import ChatClient.Proofs.KeysApart

/-!
# Where a key shows

A service may quote the key that it was asked with: in the text or in the JSON value of a reply. Two
calls with two keys, to a service that quotes either of them in the same places, fail with the same
failure and log the same lines, as long as the keys stand apart from everything else, no message
quotes only a part of the key, and no finish code has it in it. Where the first characters of an
error's detail end within the key, though, the key is not found, and its beginning is in the
message.
-/

namespace ChatClient

open Reading

/-! ## Requests -/

/-- Two requests that differ in the values of header fields at most, which are ASCII in both or in
neither. -/
structure WireRequest.KeyAlike (w w' : WireRequest) : Prop where
  url : w.url = w'.url
  body : w.body = w'.body
  ascii : Headers.areAscii w.headers = Headers.areAscii w'.headers

/-- They are sent, or refused for the same reason, which is none of this library's. -/
theorem WireRequest.encode_alike {w w' : WireRequest} (h : w.KeyAlike w') :
    (∃ o, w.encode = .error (.outside o) ∧ w'.encode = .error (.outside o)) ∨
      ∃ sent sent', w.encode = .ok sent ∧ w'.encode = .ok sent' := by
  have hcontent : w.content? = w'.content? := by
    unfold content?
    rw [h.body]
  unfold encode
  rw [h.url, h.ascii, hcontent]
  cases Address.read? w'.url with
  | none => exact .inl ⟨_, rfl, rfl⟩
  | some address =>
      dsimp only
      split_ifs
      · exact .inl ⟨_, rfl, rfl⟩
      · exact .inl ⟨_, rfl, rfl⟩
      · exact .inr ⟨_, _, rfl, rfl⟩

theorem areAscii_of_isAlphanum {key : String} (h : ∀ c ∈ key.toList, c.isAlphanum = true) :
    (key.toList.all fun c => c.toNat < 0x80) = true := by
  refine List.all_eq_true.mpr fun c hc => ?_
  have hrange := Holed.toNat_of_isAlphanum (h c hc)
  simp only [decide_eq_true_eq]
  omega

namespace Adapter

variable {a : Adapter} {k₁ k₂ : String}

theorem render_alike (a : Adapter) (h₁ : ∀ c ∈ k₁.toList, c.isAlphanum = true)
    (h₂ : ∀ c ∈ k₂.toList, c.isAlphanum = true) (r : Request) (model : String) (stream : Bool) :
    FailAlike (fun p q => p.1.KeyAlike q.1 ∧ p.2 = q.2)
      (((a.withKey k₁).render r model stream).mapError Failure.ofObjection)
      (((a.withKey k₂).render r model stream).mapError Failure.ofObjection) := by
  have hascii₁ := areAscii_of_isAlphanum h₁
  have hascii₂ := areAscii_of_isAlphanum h₂
  unfold render
  have hprovider (key : String) : (a.withKey key).provider = a.provider := rfl
  rw [hprovider, hprovider]
  cases a.provider with
  | groq =>
      refine .ok ⟨⟨rfl, rfl, ?_⟩, rfl⟩
      simp [Groq.render, Headers.areAscii, withKey, hascii₁, hascii₂]
  | gemini =>
      dsimp only
      unfold Gemini.render
      have hroom (key : String) : (a.withKey key).room = a.room := rfl
      rw [hroom, hroom]
      cases Gemini.turns a.room r.messages with
      | error e => exact .error _
      | ok ts =>
          cases Gemini.systemText? r.messages with
          | error e => exact .error _
          | ok system =>
              refine .ok ⟨⟨rfl, rfl, ?_⟩, rfl⟩
              simp [Headers.areAscii, withKey, hascii₁, hascii₂]

/-- **A request is refused, or written and logged, in the same way with either key.** -/
theorem prepare_alike (a : Adapter) (h₁ : ∀ c ∈ k₁.toList, c.isAlphanum = true)
    (h₂ : ∀ c ∈ k₂.toList, c.isAlphanum = true) (r : Request) (model : String) (stream : Bool) :
    RunsAlike WireRequest.KeyAlike ((a.withKey k₁).prepare r model stream)
      ((a.withKey k₂).prepare r model stream) := by
  refine (runsAlike_self _).bind fun _ _ _ => ?_
  refine (runsAlike_liftExcept (render_alike a h₁ h₂ r model stream)).bind ?_
  rintro ⟨w, logs⟩ ⟨w', logs'⟩ ⟨hwire, rfl⟩
  exact (runsAlike_self _).bind fun _ _ _ => runsAlike_pure hwire

end Adapter

/-! ## Replies -/

/-- A reply that quotes the key in its body. -/
structure EchoReply where
  wait : Number := .zero
  status : Int
  headers : Headers := []
  body : Template

namespace EchoReply

/-- The body with a key. -/
def bytes (e : EchoReply) (key : String) : List UInt8 := Text.Utf8.encode (e.body.fill key)

/-- The answer with a key in its body. -/
def answer (e : EchoReply) (key : String) : Answer :=
  { status := e.status, headers := e.headers, pieces := [.bytes (e.bytes key)] }

/-- The reply with a key. -/
def reply (e : EchoReply) (key : String) : Reply := .answer e.wait (e.answer key)

/-- Whether the status is one of success. -/
def succeeds (e : EchoReply) : Bool := 200 ≤ e.status && e.status < 300

end EchoReply

/-- A server that quotes the key. -/
def echoServer (es : List EchoReply) (key : String) : Server := ⟨es.map (·.reply key)⟩

/-- What such a server gives with any key is one of its replies with that key, or nothing. -/
theorem echoServer_reply (es : List EchoReply) (k : Nat) :
    (∀ key, (echoServer es key).reply k = .silence) ∨
      ∃ e ∈ es, ∀ key, (echoServer es key).reply k = e.reply key := by
  cases hk : es[k]? with
  | some e =>
      refine .inr ⟨e, List.mem_of_getElem? hk, fun key => ?_⟩
      simp [Server.reply, echoServer, hk]
  | none =>
      cases hlast : es.getLast? with
      | some e =>
          refine .inr ⟨e, List.mem_of_getLast? hlast, fun key => ?_⟩
          simp [Server.reply, echoServer, hk, hlast]
      | none =>
          refine .inl fun key => ?_
          simp [Server.reply, echoServer, hk, hlast]

/-! ## Failed answers -/

/-- Texts that are the same but for the key in a hole, and say the same to this library. -/
def Quoting (lead k₁ k₂ : String) (s t : String) : Prop := Echoed lead k₁ k₂ s t ∧ ReadAlike s t

theorem saysTheSame_quoting (lead k₁ k₂ : String) : SaysTheSame (Quoting lead k₁ k₂) :=
  fun _ _ h => h.2

theorem keepsApart_quoting (lead k₁ k₂ : String) : KeepsApart (Quoting lead k₁ k₂) :=
  fun _ _ _ _ hs ht => keepsApart_echoed lead k₁ k₂ _ _ _ _ hs.1 ht.1

/-- A form is alike with either key, where its texts do not tell one from the other. -/
theorem Form.alike_of_veils {lead k₁ k₂ : String} (h₁ : Foreign k₁.toList) (h₂ : Foreign k₂.toList)
    (f : Form) (hveils : ∀ h ∈ f.texts, h.Veils lead.toList k₁.toList k₂.toList) :
    (f.fill k₁.toList).Alike (Quoting lead k₁ k₂) (f.fill k₂.toList) :=
  f.fill_alike (keepsApart_quoting lead k₁ k₂) fun h hh =>
    ⟨echoed_of_apart (hveils h hh).apart₁ (hveils h hh).apart₂,
      h₁.readAlike h₂ (hveils h hh).counts⟩

namespace Adapter

/-- What comes before the detail in the message of a failed answer. -/
def detailLead (a : Adapter) (status : Int) : String := a.failureLead status ++ ": "

/-- **Failed answers that quote the key alike are the same failure.** -/
theorem serviceFailure_alike (a : Adapter) (now : Float) (status : Int) (headers : Headers)
    {k₁ k₂ : String} {bs₁ bs₂ : List UInt8} (hlength : k₁.length = k₂.length)
    (hlead₁ : ¬ k₁.toList <:+: (a.detailLead status).toList)
    (hlead₂ : ¬ k₂.toList <:+: (a.detailLead status).toList)
    (halike : (errorBody bs₁).Alike (Quoting (a.detailLead status) k₁ k₂) (errorBody bs₂))
    (hshown : ShownAlike k₁ k₂ maxDetail (errorDetail (errorBody bs₁))
      (errorDetail (errorBody bs₂))) :
    (a.withKey k₁).serviceFailure now status headers bs₁ =
      (a.withKey k₂).serviceFailure now status headers bs₂ := by
  have hT := saysTheSame_quoting (a.detailLead status) k₁ k₂
  have hmessage : (a.withKey k₁).failureMessage status (errorDetail (errorBody bs₁)) =
      (a.withKey k₂).failureMessage status (errorDetail (errorBody bs₂)) := by
    rcases errorDetail_alike hT halike with ⟨hechoed, -⟩ | ⟨hnone₁, hnone₂⟩
    · exact (a.failureMessage_eq_iff status hechoed hlength).mpr hshown
    · rw [hnone₁, hnone₂]
      refine (a.failureMessage_eq_iff status (.plain ?_ ?_) hlength).mpr ?_
      · simpa [detailLead] using hlead₁
      · simpa [detailLead] using hlead₂
      · rwa [hnone₁, hnone₂] at hshown
  have hkind : (a.withKey k₁).provider.classify status (errorBody bs₁) =
      (a.withKey k₂).provider.classify status (errorBody bs₂) :=
    classify_alike hT a.provider status halike
  have hwait : (a.withKey k₁).retryAfter now (errorBody bs₁) headers =
      (a.withKey k₂).retryAfter now (errorBody bs₂) headers :=
    retryAfter_alike hT a now headers halike
  rw [serviceFailure_eq, serviceFailure_eq, hmessage, hkind, hwait]
  rfl

end Adapter

/-! ## Replies that hide the key -/

/-- A text with a hole is raw text with either key in it, or the text of a form. -/
inductive Template.ReadsAs (t : Template) (k₁ k₂ : String) : Form → Prop
  | raw (h₁ : Json.read? (t.fill k₁) = none) (h₂ : Json.read? (t.fill k₂) = none) :
    ReadsAs t k₁ k₂ (.text t.holed)
  | json {f : Form} (h : t.Writes f) : ReadsAs t k₁ k₂ f

namespace EchoReply

/-- A reply that does not tell one key from another: none of its texts does; in a failed answer,
what is shown of the service's message has both keys whole, or the same part of them; and an answer
that is read has neither in its finish code. -/
inductive Hides (a : Adapter) (k₁ k₂ : String) (e : EchoReply) : Prop
  | failed (f : Form) (hstatus : e.succeeds = false) (hf : e.body.ReadsAs k₁ k₂ f)
    (hlead₁ : ¬ k₁.toList <:+: (a.detailLead e.status).toList)
    (hlead₂ : ¬ k₂.toList <:+: (a.detailLead e.status).toList)
    (hveils : ∀ h ∈ f.texts, h.Veils (a.detailLead e.status).toList k₁.toList k₂.toList)
    (hshown : ShownAlike k₁ k₂ maxDetail (errorDetail (f.fill k₁.toList))
      (errorDetail (f.fill k₂.toList)))
  | unreadable (hstatus : e.succeeds = true)
    (h₁ : Json.readBytes? (e.bytes k₁) = none) (h₂ : Json.readBytes? (e.bytes k₂) = none)
  | read (f : Form) (hstatus : e.succeeds = true) (hf : e.body.Writes f)
    (hveils : ∀ h ∈ f.texts, h.Veils [] k₁.toList k₂.toList)
    (hcode : a.provider.finishCode? (f.fill k₁.toList) =
      a.provider.finishCode? (f.fill k₂.toList))

variable {a : Adapter} {k₁ k₂ : String} {e : EchoReply}

theorem errorBody_bytes (e : EchoReply) (key : String) :
    errorBody (e.bytes key) =
      (Json.read? (e.body.fill key)).getD (.text (e.body.fill key)) := by
  unfold errorBody bytes Text.Utf8.decode
  rw [Text.Utf8.scan_encode]
  simp only [Text.Utf8.finish, List.append_nil, Text.withReplacements_map_some,
    String.ofList_toList]
  rfl

/-- The body of a failed answer is what its text reads as. -/
theorem errorBody_of_readsAs {f : Form} (hf : e.body.ReadsAs k₁ k₂ f) (hk₁ : Foreign k₁.toList)
    (hk₂ : Foreign k₂.toList) :
    errorBody (e.bytes k₁) = f.fill k₁.toList ∧ errorBody (e.bytes k₂) = f.fill k₂.toList := by
  rw [errorBody_bytes, errorBody_bytes]
  cases hf with
  | raw h₁ h₂ =>
      rw [h₁, h₂]
      simp only [Option.getD_none, Form.fill, Template.ofList_fill_holed, and_self]
  | json h =>
      rw [h k₁ hk₁.fills, h k₂ hk₂.fills]
      exact ⟨rfl, rfl⟩

/-- A failed reply is classified by its status, its header fields and its body. -/
theorem classified_statusFailure (e : EchoReply) (a : Adapter) (now : Float) (key : String) :
    a.classified now (statusFailure (e.answer key) (e.bytes key)) =
      match a.serviceFailure now e.status (Headers.joined e.headers) (e.bytes key) with
      | .ok s => .service s
      | .error o => .outside o := rfl

/-- A failed answer that hides the key is the same failure with either. -/
theorem Hides.serviceFailure_eq (h : e.Hides a k₁ k₂) (hfailed : e.succeeds = false)
    (hlength : k₁.length = k₂.length) (hk₁ : Foreign k₁.toList) (hk₂ : Foreign k₂.toList)
    (now : Float) (headers : Headers) :
    (a.withKey k₁).serviceFailure now e.status headers (e.bytes k₁) =
      (a.withKey k₂).serviceFailure now e.status headers (e.bytes k₂) := by
  cases h with
  | failed f _ hf hlead₁ hlead₂ hveils hshown =>
      obtain ⟨hbody₁, hbody₂⟩ := errorBody_of_readsAs hf hk₁ hk₂
      refine a.serviceFailure_alike now e.status headers hlength hlead₁ hlead₂ ?_ ?_
      · rw [hbody₁, hbody₂]
        exact f.alike_of_veils hk₁ hk₂ hveils
      · rwa [hbody₁, hbody₂]
  | unreadable hstatus | read _ hstatus => exact absurd (hstatus.symm.trans hfailed) (by decide)

/-- An answer that hides the key is read alike with either. -/
theorem Hides.bodiesAlike (h : e.Hides a k₁ k₂) (hok : e.succeeds = true)
    (hk₁ : Foreign k₁.toList) (hk₂ : Foreign k₂.toList) :
    BodiesAlike a.provider (Quoting "" k₁ k₂) (e.bytes k₁) (e.bytes k₂) := by
  cases h with
  | failed _ hstatus => exact absurd (hstatus.symm.trans hok) (by decide)
  | unreadable _ h₁ h₂ => exact .unreadable h₁ h₂
  | read f _ hf hveils hcode =>
      exact .value (Json.readBytes?_encode_of_read? (hf k₁ hk₁.fills))
        (Json.readBytes?_encode_of_read? (hf k₂ hk₂.fills)) (f.alike_of_veils hk₁ hk₂ hveils) hcode

section

variable (hk₁ : Foreign k₁.toList) (hk₂ : Foreign k₂.toList)
  (hletter₁ : ∃ c ∈ k₁.toList, c.isAlpha = true ∧ c ≠ 's')
  (hletter₂ : ∃ c ∈ k₂.toList, c.isAlpha = true ∧ c ≠ 's')
  (hlead : (k₁.toList ++ k₂.toList).Disjoint (a.detailLead e.status).toList)
  (hspares : e.body.Spares (k₁.toList ++ k₂.toList))

include hk₁ hk₂ hletter₁ hletter₂ hlead hspares

/-- **A JSON reply that has no character of either key but in its hole does not tell one from the
other**, as far as its message shows them alike, and its finish code. -/
theorem hides_of_json (hjson : (Json.read? (e.body.fill (String.ofList [Holed.mark]))).isSome)
    (hshown : e.succeeds = false → ShownAlike k₁ k₂ maxDetail
      (errorDetail (errorBody (e.bytes k₁))) (errorDetail (errorBody (e.bytes k₂))))
    (hcode : e.succeeds = true → ∀ v w, Json.readBytes? (e.bytes k₁) = some v →
      Json.readBytes? (e.bytes k₂) = some w → a.provider.finishCode? v = a.provider.finishCode? w) :
    e.Hides a k₁ k₂ := by
  have hmark : Holed.mark ∉ k₁.toList ++ k₂.toList := by
    simp [hk₁.mark_notMem, hk₂.mark_notMem]
  cases hstatus : e.succeeds with
  | false =>
      obtain ⟨f, hf, hveils⟩ := Template.exists_writes_veils hspares hlead hjson hmark hletter₁
        hletter₂
      obtain ⟨hbody₁, hbody₂⟩ := errorBody_of_readsAs (.json hf) hk₁ hk₂
      have hshown := hshown hstatus
      rw [hbody₁, hbody₂] at hshown
      exact .failed f hstatus (.json hf)
        (not_infix_of_disjoint hk₁.ne_nil (List.disjoint_of_disjoint_append_left_left hlead))
        (not_infix_of_disjoint hk₂.ne_nil (List.disjoint_of_disjoint_append_left_right hlead))
        hveils hshown
  | true =>
      obtain ⟨f, hf, hveils⟩ := Template.exists_writes_veils hspares
        (List.disjoint_nil_right _) hjson hmark hletter₁ hletter₂
      exact .read f hstatus hf hveils (hcode hstatus _ _
        (Json.readBytes?_encode_of_read? (hf k₁ hk₁.fills))
        (Json.readBytes?_encode_of_read? (hf k₂ hk₂.fills)))

/-- The same of a failed answer that is raw text. -/
theorem hides_of_raw (hstatus : e.succeeds = false) (h₁ : Json.read? (e.body.fill k₁) = none)
    (h₂ : Json.read? (e.body.fill k₂) = none)
    (hshown : ShownAlike k₁ k₂ maxDetail (e.body.fill k₁) (e.body.fill k₂)) : e.Hides a k₁ k₂ := by
  have hraw : e.body.ReadsAs k₁ k₂ (.text e.body.holed) := .raw h₁ h₂
  have hveils : e.body.holed.Veils (a.detailLead e.status).toList k₁.toList k₂.toList :=
    Holed.veils_of_disjoint hlead
      (List.disjoint_append_right.mpr ⟨hspares.before, hspares.after⟩) hletter₁ hletter₂
  refine .failed _ hstatus hraw
    (not_infix_of_disjoint hk₁.ne_nil (List.disjoint_of_disjoint_append_left_left hlead))
    (not_infix_of_disjoint hk₂.ne_nil (List.disjoint_of_disjoint_append_left_right hlead))
    (List.forall_mem_singleton.mpr hveils) ?_
  simp only [Form.fill, Template.ofList_fill_holed]
  exact hshown

end

end EchoReply

/-! ## Calls -/

namespace Adapter

variable {a : Adapter} {k₁ k₂ : String} {e : EchoReply}

/-- What keeps an answer from arriving has nothing to do with the adapter. -/
theorem classified_failure (a : Adapter) (now : Float) (p : Phase) (limit : Number)
    (i : Interruption) : a.classified now (p.failure limit i) = p.failure limit i := by
  cases i with
  | outOfTime => rfl
  | unending => rfl
  | fault f message =>
      simp only [Phase.failure]
      cases f.nature <;> rfl

/-- Two responses that are read alike. -/
def ReadsAlike (a : Adapter) (w w' : WireResponse) : Prop :=
  RunsAlike (fun _ _ => True) (a.readResponse w.body) (a.readResponse w'.body)

/-- **An exchange fails alike with either key**, or brings an answer that is read alike. -/
theorem send_alike (a : Adapter) {w w' : WireRequest} (hwire : w.KeyAlike w')
    (h : e.Hides a k₁ k₂) (hlength : k₁.length = k₂.length) (hk₁ : Foreign k₁.toList)
    (hk₂ : Foreign k₂.toList) (now : Float) (limit : Number) :
    FailAlike a.ReadsAlike
      ((send w limit (e.reply k₁)).result.mapError ((a.withKey k₁).classified now))
      ((send w' limit (e.reply k₂)).result.mapError ((a.withKey k₂).classified now)) := by
  unfold send
  rcases w.encode_alike hwire with ⟨o, hw, hw'⟩ | ⟨sent, sent', hw, hw'⟩
  · rw [hw, hw']
    exact .error _
  · rw [hw, hw']
    have hbegin (key : String) : (e.reply key).begin { limit } =
        (Deadline.wait { limit } e.wait).map fun d => (d, e.answer key) := rfl
    simp only [hbegin]
    cases Deadline.wait { limit } e.wait with
    | error i =>
        show FailAlike _ (.error ((a.withKey k₁).classified now (wholeExchange.failure limit i)))
          (.error ((a.withKey k₂).classified now (wholeExchange.failure limit i)))
        rw [classified_failure, classified_failure]
        exact .error _
    | ok d =>
        show FailAlike _ (((e.answer k₁).response (e.bytes k₁ ++ [])).mapError _)
          (((e.answer k₂).response (e.bytes k₂ ++ [])).mapError _)
        rw [List.append_nil, List.append_nil]
        unfold Answer.response
        have hsucceeds (key : String) : (e.answer key).succeeds = e.succeeds := rfl
        rw [hsucceeds, hsucceeds]
        cases hstatus : e.succeeds with
        | true =>
            exact .ok (a.readResponse_alike (saysTheSame_quoting "" k₁ k₂)
              (h.bodiesAlike hstatus hk₁ hk₂))
        | false =>
            show FailAlike _ (.error ((a.withKey k₁).classified now _))
              (.error ((a.withKey k₂).classified now _))
            rw [e.classified_statusFailure, e.classified_statusFailure,
              h.serviceFailure_eq hstatus hlength hk₁ hk₂]
            exact .error _

/-- Where nothing comes, nothing comes with the other key either. -/
theorem send_silence_alike (a : Adapter) {w w' : WireRequest} (hwire : w.KeyAlike w') (now : Float)
    (limit : Number) :
    FailAlike a.ReadsAlike ((send w limit .silence).result.mapError ((a.withKey k₁).classified now))
      ((send w' limit .silence).result.mapError ((a.withKey k₂).classified now)) := by
  unfold send
  rcases w.encode_alike hwire with ⟨o, hw, hw'⟩ | ⟨sent, sent', hw, hw'⟩
  · rw [hw, hw']
    exact .error _
  · rw [hw, hw']
    show FailAlike _ (.error ((a.withKey k₁).classified now (wholeExchange.failure limit _)))
      (.error ((a.withKey k₂).classified now (wholeExchange.failure limit _)))
    rw [classified_failure, classified_failure]
    exact .error _

/-- What is done with responses that are read alike comes to the same. -/
theorem conclude_alike (a : Adapter) (c : Config) (attempts : Nat) {w w' : WireResponse}
    (h : a.ReadsAlike w w') :
    RunsAlike (fun _ _ => True) ((a.withKey k₁).conclude c attempts w)
      ((a.withKey k₂).conclude c attempts w') := by
  have hread : RunsAlike (fun _ _ => True)
      ((a.withKey k₁).readResponse w.body >>= fun r => pure (c.finalize r))
      ((a.withKey k₂).readResponse w'.body >>= fun r => pure (c.finalize r)) :=
    h.bind fun _ _ _ => runsAlike_pure trivial
  unfold conclude
  split_ifs
  · exact (runsAlike_self _).bind fun _ _ _ => hread
  · exact hread

end Adapter

namespace Outcome

variable {α β γ δ : Type} {R : α → β → Prop} {S : γ → δ → Prop} {o : Outcome α} {o' : Outcome β}

/-- Two outcomes that fail alike, or not, with the same ledger. -/
def EndsAlike (R : α → β → Prop) (o : Outcome α) (o' : Outcome β) : Prop :=
  FailAlike R o.result o'.result ∧ o.ledger = o'.ledger

theorem EndsAlike.andThen {f : α → Reading γ} {g : β → Reading δ} (h : EndsAlike R o o')
    (hfg : ∀ x y, R x y → RunsAlike S (f x) (g y)) :
    EndsAlike S (o.andThen f) (o'.andThen g) := by
  obtain ⟨hresult, hledger⟩ := h
  unfold Outcome.andThen
  generalize o.result = x, o'.result = y at hresult
  cases hresult with
  | error e => exact ⟨.error e, hledger⟩
  | @ok a b hab =>
      have hruns := hfg a b hab o.ledger
      dsimp only
      rw [← hledger]
      exact hruns

theorem EndsAlike.closeTransport (h : EndsAlike R o o') (t : Transport) :
    EndsAlike R (o.closeTransport t) (o'.closeTransport t) := by
  obtain ⟨hresult, hledger⟩ := h
  cases t with
  | shared => exact ⟨hresult, hledger⟩
  | own closing =>
      cases closing with
      | clean => exact ⟨hresult, hledger⟩
      | failing message => exact ⟨hresult, congrArg (Ledger.log · .warning _) hledger⟩
      | cancelled => exact ⟨.error _, hledger⟩

end Outcome

open Outcome

namespace Adapter

/-- **A call does not tell one key from another**, where the replies of the service do not. -/
theorem chat_alike (a : Adapter) (c : Config) (now : Float) {es : List EchoReply} {k₁ k₂ : String}
    (hlength : k₁.length = k₂.length) (hk₁ : Foreign k₁.toList) (hk₂ : Foreign k₂.toList)
    (hes : ∀ e ∈ es, e.Hides a k₁ k₂) (r : Request) (l : Ledger) :
    EndsAlike (fun _ _ => True) ((a.withKey k₁).chat c now (echoServer es k₁) r l)
      ((a.withKey k₂).chat c now (echoServer es k₂) r l) := by
  have hdispatch : RunsAlike WireRequest.KeyAlike ((a.withKey k₁).dispatch c r)
      ((a.withKey k₂).dispatch c r) :=
    (a.prepare_alike hk₁.alphanum hk₂.alphanum r c.model false).bind fun w w' hw =>
      (runsAlike_self _).bind fun _ _ _ => runsAlike_pure hw
  -- up to the first attempt the calls differ in header fields only, and after it in what is read
  obtain ⟨hresult, hledger⟩ := hdispatch l
  rw [chat_eq, chat_eq]
  revert hresult hledger
  cases ((a.withKey k₁).dispatch c r).run l with
  | mk x l₁ =>
      cases ((a.withKey k₂).dispatch c r).run l with
      | mk y l₂ =>
          rintro hresult (rfl : l₁ = l₂)
          cases hresult with
          | error f => exact ⟨.error f, rfl⟩
          | @ok w w' hwire =>
              have hexchange (k : Nat) : FailAlike a.ReadsAlike
                  ((send w c.timeout ((echoServer es k₁).reply k)).result.mapError
                    ((a.withKey k₁).classified now))
                  ((send w' c.timeout ((echoServer es k₂).reply k)).result.mapError
                    ((a.withKey k₂).classified now)) := by
                rcases echoServer_reply es k with hsilence | ⟨e, he, hreply⟩
                · rw [hsilence, hsilence]
                  exact a.send_silence_alike hwire now c.timeout
                · rw [hreply, hreply]
                  exact a.send_alike hwire (hes e he) hlength hk₁ hk₂ now c.timeout
              obtain ⟨hresult, hattempts, hledger⟩ := attempt_sameWay c now hexchange l₁
              dsimp only
              rw [← hattempts]
              exact EndsAlike.andThen ⟨hresult, hledger⟩ fun w w' hw => a.conclude_alike c _ hw

end Adapter

/--
**Errors and logs do not tell one key from another.**

A call with one key, to a service that quotes it, and the same call with another key of the same
length, to a service that quotes that one in the same places: they fail with the same failure, or
both give a response, and they leave the same ledger, with its log lines and its waits. The replies
of the service have to hide the key for that. A reply does that has no character of either key but
in its hole (`EchoReply.hides_of_json`, `EchoReply.hides_of_raw`), unless its message is cut within
the key, or its finish code has the key in it.
-/
theorem Session.chat_withKey (env : Environment) (now : Float) (t : Transport) (a : Adapter)
    (c : Config) (r : Request) (l : Ledger) {es : List EchoReply} {k₁ k₂ : String}
    (hlength : k₁.length = k₂.length) (hk₁ : Foreign k₁.toList) (hk₂ : Foreign k₂.toList)
    (hes : ∀ e ∈ es, e.Hides a k₁ k₂) :
    EndsAlike (fun _ _ => True)
      (Session.chat { environment := env, now, server := echoServer es k₁, transport := t }
        (.given (a.withKey k₁)) c r l)
      (Session.chat { environment := env, now, server := echoServer es k₂, transport := t }
        (.given (a.withKey k₂)) c r l) :=
  (a.chat_alike c now hlength hk₁ hk₂ hes r l).closeTransport t

/-! ## Two keys -/

/-- A call with some key, to a server that quotes it. -/
def echoCall (es : List EchoReply) (key : String) : Outcome Response :=
  { now := 0, server := echoServer es key : Session }.chat (.given (stranger.withKey key)) patient
    hello {}

/-- A key of two characters. -/
def twoTone (c d : Char) : String := String.ofList (List.replicate 4 c ++ List.replicate 8 d)

theorem toList_twoTone (c d : Char) :
    (twoTone c d).toList = List.replicate 4 c ++ List.replicate 8 d := String.toList_ofList

@[simp] theorem length_twoTone (c d : Char) : (twoTone c d).length = 12 := by
  rw [← String.length_toList, toList_twoTone]
  rfl

theorem twoTone_ne_nil (c d : Char) : (twoTone c d).toList ≠ [] := by
  rw [toList_twoTone]
  simp

/-- Characters that are in no word of this library. -/
def Rare (k : List Char) : Prop := ∀ c ∈ k, c = '7' ∨ c = 'W'

theorem rare_twoTone {c d : Char} (hc : c = '7' ∨ c = 'W') (hd : d = '7' ∨ d = 'W') :
    Rare (twoTone c d).toList := by
  intro x hx
  rw [toList_twoTone] at hx
  rcases List.mem_append.mp hx with hx | hx
  · rwa [List.eq_of_mem_replicate hx]
  · rwa [List.eq_of_mem_replicate hx]

theorem Rare.foreign {k : List Char} (hk : Rare k) (hne : k ≠ []) : Foreign k := by
  have hwords : ∀ w ∈ fieldWords ++ markerWords, '7' ∉ w.toList ∧ 'W' ∉ w.toList := by
    decide +kernel
  have hflags : ∀ w ∈ flagWords, '7' ∉ w.toList ∧ 'w' ∉ w.toList := by decide +kernel
  have hretry : '7' ∉ "RetryInfo".toList ∧ 'W' ∉ "RetryInfo".toList := by decide +kernel
  refine .of_disjoint hne ?_ ?_ ?_ ?_
  · intro c hc
    rcases hk c hc with rfl | rfl <;> decide
  · intro w hw c hc hmem
    rcases hk c hc with rfl | rfl
    · exact (hwords w hw).1 hmem
    · exact (hwords w hw).2 hmem
  · intro w hw c hc hmem
    obtain ⟨d, hd, rfl⟩ := List.mem_map.mp hc
    rcases hk d hd with rfl | rfl
    · exact (hflags w hw).1 hmem
    · exact (hflags w hw).2 hmem
  · intro c hmem hc
    rcases hk c hc with rfl | rfl
    · exact hretry.1 hmem
    · exact hretry.2 hmem

/-- Neither a rare character nor the start of an escape. -/
def isCommon (c : Char) : Bool := c != '7' && c != 'W' && c != '\\'

theorem Rare.disjoint {k cs : List Char} (hk : Rare k) (hcs : cs.all isCommon = true) :
    k.Disjoint cs := by
  intro c hc hmem
  have hcommon := List.all_eq_true.mp hcs c hmem
  rcases hk c hc with rfl | rfl <;> exact absurd hcommon (by decide)

theorem Rare.spares {k : List Char} (hk : Rare k) {t : Template}
    (ht : (t.before.toList ++ t.after.toList).all isCommon = true) : t.Spares k := by
  obtain ⟨hbefore, hafter⟩ := List.disjoint_append_right.mp (hk.disjoint ht)
  refine ⟨hbefore, hafter, fun ds c used hds _ => ?_⟩
  have hslash : '\\' ∉ t.before.toList ++ t.after.toList := fun hmem =>
    absurd (List.all_eq_true.mp ht _ hmem) (by decide)
  have hmem := hds.subset List.mem_cons_self
  simp only [Template.holed, Holed.fill, List.mem_append, List.mem_singleton] at hmem hslash
  rcases hmem with (hmem | hmark) | hmem
  · exact absurd (.inl hmem) hslash
  · exact absurd hmark (by decide)
  · exact absurd (.inr hmem) hslash

/-- A service that has too much to do. -/
def overloaded : EchoReply :=
  { status := 503
    body := ⟨"\x7b\"error\": \x7b\"message\": \"Too many calls with ", "\"\x7d\x7d"⟩ }

/-- A service that refuses a key. -/
def refused : EchoReply := { status := 400, body := ⟨"No access with ", ""⟩ }

/-- A call is tried again and then refused, and both answers quote the key. -/
theorem Session.chat_withKey_refused :
    EndsAlike (fun _ _ => True) (echoCall [overloaded, refused] (twoTone 'W' '7'))
      (echoCall [overloaded, refused] (twoTone '7' 'W')) := by
  have hrare₁ : Rare (twoTone 'W' '7').toList := rare_twoTone (.inr rfl) (.inl rfl)
  have hrare₂ : Rare (twoTone '7' 'W').toList := rare_twoTone (.inl rfl) (.inr rfl)
  have hrare : Rare ((twoTone 'W' '7').toList ++ (twoTone '7' 'W').toList) :=
    List.forall_mem_append.mpr ⟨hrare₁, hrare₂⟩
  have hletter₁ : ∃ c ∈ (twoTone 'W' '7').toList, c.isAlpha = true ∧ c ≠ 's' :=
    ⟨'W', by simp [toList_twoTone], by decide⟩
  have hletter₂ : ∃ c ∈ (twoTone '7' 'W').toList, c.isAlpha = true ∧ c ≠ 's' :=
    ⟨'W', by simp [toList_twoTone], by decide⟩
  have hforeign₁ := hrare₁.foreign (twoTone_ne_nil _ _)
  have hforeign₂ := hrare₂.foreign (twoTone_ne_nil _ _)
  refine Session.chat_withKey [] 0 .shared stranger patient hello {} (by simp) hforeign₁ hforeign₂
    ?_
  refine List.forall_mem_cons.mpr ⟨?_, List.forall_mem_singleton.mpr ?_⟩
  · refine EchoReply.hides_of_json hforeign₁ hforeign₂ hletter₁ hletter₂
      (hrare.disjoint (by decide +kernel)) (hrare.spares (by decide +kernel)) (by decide +kernel)
      (fun _ => ?_) (fun h => absurd h (by decide))
    exact shownAlike_of_length_le (by decide +kernel) _ _
  · refine EchoReply.hides_of_raw hforeign₁ hforeign₂ hletter₁ hletter₂
      (hrare.disjoint (by decide +kernel)) (hrare.spares (by decide +kernel)) rfl
      (by decide +kernel) (by decide +kernel) ?_
    exact shownAlike_of_length_le (by decide +kernel) _ _

/-! ## A key at the end of what is shown -/

namespace Adapter

/-- A call that the service refuses for good, without asking for a wait, says what the service
does. -/
theorem chat_refused_message (a : Adapter) (c : Config) (now : Float) {e : EchoReply}
    (es : List EchoReply) (key : String) (r : Request) {l l₁ : Ledger} {wire : WireRequest}
    {sent : SentRequest} {d : Deadline} (hdispatch : (a.dispatch c r).run l = (.ok wire, l₁))
    (hsent : wire.encode = .ok sent) (hwait : Deadline.wait { limit := c.timeout } e.wait = .ok d)
    (hstatus : e.succeeds = false)
    (hkind : a.provider.classify e.status (errorBody (e.bytes key)) = .permanent)
    (hasks : a.retryAfter now (errorBody (e.bytes key)) (Headers.joined e.headers) = .ok none) :
    (a.chat c now (echoServer (e :: es) key) r l).result.mapError Failure.message? =
      .error (some (a.failureMessage e.status (errorDetail (errorBody (e.bytes key))))) := by
  have hf : (send wire c.timeout ((echoServer (e :: es) key).reply 0)).result =
      .error (statusFailure (e.answer key) (e.bytes key)) := by
    have hbegin : (e.reply key).begin { limit := c.timeout } = .ok (d, e.answer key) := by
      show (Deadline.wait _ e.wait).map _ = _
      rw [hwait]
      rfl
    have hsucceeds : ¬ (e.answer key).succeeds = true := (Bool.not_eq_true _).mpr hstatus
    show (send wire c.timeout (e.reply key)).result = _
    unfold send
    rw [hsent, hbegin]
    show (e.answer key).response (e.bytes key ++ []) = _
    rw [Answer.response, if_neg hsucceeds, List.append_nil]
  obtain ⟨s, hs⟩ : ∃ s, a.serviceFailure now e.status (Headers.joined e.headers) (e.bytes key) =
      .ok s := by
    rw [serviceFailure_eq, hasks]
    exact ⟨_, rfl⟩
  obtain ⟨hmessage, hskind, -⟩ := serviceFailure_ok hs
  have hclassified : a.classified now (statusFailure (e.answer key) (e.bytes key)) = .service s := by
    rw [e.classified_statusFailure, hs]
  have hpermanent : (Failure.service s).kind = .permanent := hskind.trans hkind
  rw [(a.chat_failsForGood c now _ r hdispatch hf (by rw [hclassified]; rfl)
    (by rw [hclassified]; exact hpermanent)).1, hclassified, ← hmessage]
  rfl

end Adapter

theorem Template.Spares.marks {t : Template} {lead key : String} (h : t.Spares key.toList)
    (hkey : key.toList ≠ []) (hlead : key.toList.Disjoint lead.toList) : t.Marks lead key := by
  have hapart : t.holed.Apart lead.toList key.toList :=
    Holed.apart_of_disjoint hkey hlead (List.disjoint_append_right.mpr ⟨h.before, h.after⟩)
  show Text.OnlyBetween _ (lead ++ t.before).toList _
  rw [String.toList_append]
  exact hapart

/-- An answer that is `n` letters and then the key. -/
def spill (n : Nat) : EchoReply :=
  { status := 400, body := ⟨String.ofList (List.replicate n 'x'), ""⟩ }

theorem Rare.spares_spill {k : List Char} (hk : Rare k) (n : Nat) : (spill n).body.Spares k := by
  refine hk.spares ?_
  rw [List.all_append, spill, String.toList_ofList, List.all_replicate]
  simp [isCommon]

theorem errorBody_spill (n : Nat) (key : String) :
    errorBody ((spill (n + 1)).bytes key) = .text ((spill (n + 1)).body.fill key) := by
  have hraw : Json.read? ((spill (n + 1)).body.fill key) = none := by
    have htext : ((spill (n + 1)).body.fill key).toList =
        'x' :: (List.replicate n 'x' ++ key.toList) := by
      simp [spill, List.replicate_succ]
    rw [Json.read?, htext]
    rfl
  rw [EchoReply.errorBody_bytes, hraw]
  rfl

theorem spill_message (n : Nat) (key : String)
    (hencodes : (Groq.render (stranger.withKey key) hello "m" false).encode.toBool = true) :
    (echoCall [spill (n + 1)] key).result.mapError Failure.message? =
      .error (some ((stranger.withKey key).failureMessage 400
        ((spill (n + 1)).body.fill key))) := by
  obtain ⟨sent, hsent⟩ : ∃ sent,
      (Groq.render (stranger.withKey key) hello "m" false).encode = .ok sent := by
    cases h : (Groq.render (stranger.withKey key) hello "m" false).encode with
    | error f =>
        rw [h] at hencodes
        exact absurd hencodes (by simp [Except.toBool])
    | ok sent => exact ⟨sent, rfl⟩
  have hmessage := Adapter.chat_refused_message (stranger.withKey key) patient 0
    (e := spill (n + 1)) [] key hello (l := {}) rfl hsent rfl rfl (by rw [errorBody_spill]; rfl) rfl
  rw [errorBody_spill] at hmessage
  exact hmessage

/-- With 290 characters before it, ten characters of the key are shown. -/
theorem spill_shows_key :
    (spill 290).body.Spares ((twoTone 'W' '7').toList ++ (twoTone '7' 'W').toList) ∧
      (echoCall [spill 290] (twoTone 'W' '7')).result.mapError Failure.message? ≠
        (echoCall [spill 290] (twoTone '7' 'W')).result.mapError Failure.message? := by
  have hrare₁ : Rare (twoTone 'W' '7').toList := rare_twoTone (.inr rfl) (.inl rfl)
  have hrare₂ : Rare (twoTone '7' 'W').toList := rare_twoTone (.inl rfl) (.inr rfl)
  refine ⟨Rare.spares_spill (List.forall_mem_append.mpr ⟨hrare₁, hrare₂⟩) 290, fun hsame => ?_⟩
  have hlead : (stranger.detailLead 400).toList.all isCommon = true := by decide +kernel
  have hmarks₁ : (spill 290).body.Marks (stranger.detailLead 400) (twoTone 'W' '7') :=
    (hrare₁.spares_spill 290).marks (twoTone_ne_nil _ _) (hrare₁.disjoint hlead)
  have hmarks₂ : (spill 290).body.Marks (stranger.detailLead 400) (twoTone '7' 'W') :=
    (hrare₂.spares_spill 290).marks (twoTone_ne_nil _ _) (hrare₂.disjoint hlead)
  rw [spill_message 289 _ (by decide +kernel), spill_message 289 _ (by decide +kernel)] at hsame
  have hmessage := Option.some.inj (Except.error.inj hsame)
  have hshown :=
    (stranger.failureMessage_eq_iff 400 (.filled _ hmarks₁ hmarks₂) (by simp)).mp hmessage
  have hlength : (spill 290).body.before.length = 290 := by
    simp only [spill, String.length_ofList, List.length_replicate]
  rcases hshown _ rfl rfl with hwhole | hpart
  · rw [hlength] at hwhole
    simp [maxDetail] at hwhole
  · rw [hlength, toList_twoTone, toList_twoTone] at hpart
    exact absurd hpart (by decide)

end ChatClient
