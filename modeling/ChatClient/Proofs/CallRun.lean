import ChatClient.Chat.Call
import ChatClient.Proofs.AskedWaits
import ChatClient.Proofs.Consistency
import ChatClient.Proofs.RetryRun

/-!
# What a call comes to

A call is refused before anything is sent, or it sends one request some number of times and
then comes to an end. Which it is, how often the request is sent, and what the call ends with
can be said from the exchanges alone, one for each time that the server is asked: an exchange
brings an answer with a status of success, or a failure, and `Adapter.faultKind` says which
failures are worth another try.

What reading the last answer comes to does not depend on the attempts before it: they use up
random numbers, sleep and log, but they make no ids.
-/

namespace ChatClient

open Reading

/-! ## Exchanges -/

/-- The kinds of failure that an exchange may end with. -/
inductive ExchangeFault : Failure → Prop
  | status {message : String} {code : Int} {headers : Headers} {body : List UInt8}
      (h : ¬ (200 ≤ code ∧ code < 300)) : ExchangeFault (.status message code headers body)
  | timeout (message : String) (limit : Option Number) : ExchangeFault (.timeout message limit)
  | connection (message : String) (hint : Option String) : ExchangeFault (.connection message hint)
  | network (f : NetworkFault) : ExchangeFault (.outside (.network f))
  | unending : ExchangeFault (.outside .unending)

theorem Answer.succeeds_iff {a : Answer} : a.succeeds = true ↔ 200 ≤ a.status ∧ a.status < 300 := by
  simp [Answer.succeeds]

theorem Phase.failure_isFault (p : Phase) (limit : Number) (i : Interruption) :
    ExchangeFault (p.failure limit i) := by
  cases i with
  | outOfTime => exact .timeout _ _
  | unending => exact .unending
  | fault f message =>
      simp only [Phase.failure]
      cases f.nature with
      | time => exact .timeout _ _
      | connection => exact .connection _ _
      | neither => exact .network f

/-- What an exchange ends with, once its request can be encoded. -/
theorem send_result {r : WireRequest} {sent : SentRequest} (hsent : r.encode = .ok sent)
    (limit : Number) (reply : Reply) :
    (send r limit reply).sent = some sent ∧
      match (send r limit reply).result with
      | .ok w => 200 ≤ w.statusCode ∧ w.statusCode < 300
      | .error f => ExchangeFault f := by
  unfold send
  rw [hsent]
  cases reply.begin { limit } with
  | error i => exact ⟨rfl, wholeExchange.failure_isFault limit i⟩
  | ok begun =>
      obtain ⟨d, a⟩ := begun
      refine ⟨rfl, ?_⟩
      cases hbody : a.body d with
      | error i =>
          simp only [hbody]
          exact wholeExchange.failure_isFault limit i
      | ok body =>
          simp only [hbody]
          show match a.response body with
            | .ok w => 200 ≤ w.statusCode ∧ w.statusCode < 300
            | .error f => ExchangeFault f
          unfold Answer.response
          by_cases hsucceeds : a.succeeds = true
          · rw [if_pos hsucceeds]
            exact Answer.succeeds_iff.mp hsucceeds
          · rw [if_neg hsucceeds]
            exact .status fun h => hsucceeds (Answer.succeeds_iff.mpr h)

theorem send_fault {r : WireRequest} {sent : SentRequest} (hsent : r.encode = .ok sent)
    {limit : Number} {reply : Reply} {f : Failure} (hf : (send r limit reply).result = .error f) :
    ExchangeFault f := by
  have hresult := (send_result hsent limit reply).2
  rw [hf] at hresult
  exact hresult

/-- The same request is sent in each exchange. -/
theorem filterMap_sent {r : WireRequest} {sent : SentRequest} (hsent : r.encode = .ok sent)
    (limit : Number) (reply : Nat → Reply) (n : Nat) :
    ((List.range n).map fun k => send r limit (reply k)).filterMap (·.sent) =
      List.replicate n sent := by
  have hsents : (fun k => (send r limit (reply k)).sent) = fun _ => some sent :=
    funext fun k => (send_result hsent limit (reply k)).1
  rw [List.filterMap_map]
  show (List.range n).filterMap (fun k => (send r limit (reply k)).sent) = _
  rw [hsents]
  simp [List.map_const']

/-- Whether what an exchange ended with is worth another try: of an answer the service says it,
if only the wait that it asks for can be told, running out of time and a lost connection pass, and
nothing else does. -/
def Adapter.faultKind (a : Adapter) (now : Float) : Failure → FailureKind
  | .status _ code headers body =>
    match a.retryAfter now (errorBody body) headers with
    | .ok _ => a.provider.classify code (errorBody body)
    | .error _ => .permanent
  | .timeout _ _ | .connection _ _ => .transient
  | _ => .permanent

/-- An exchange ended with an answer that asks for a wait which cannot be told. -/
inductive Adapter.AsksInVain (a : Adapter) (now : Float) : Failure → Outside → Prop
  | status {message : String} {code : Int} {headers : Headers} {body : List UInt8} {o : Outside}
      (h : a.retryAfter now (errorBody body) headers = .error o) :
      AsksInVain a now (.status message code headers body) o

section Classified

variable {a : Adapter} {now : Float} {f : Failure}

/-- An answer without success is classified, with its status, unless it asks in vain. -/
theorem classified_status (a : Adapter) (now : Float) (message : String) (code : Int)
    (headers : Headers) (body : List UInt8) :
    (∃ s, a.serviceFailure now code headers body = .ok s ∧
      a.classified now (.status message code headers body) = .service s) ∨
    ∃ o, a.retryAfter now (errorBody body) headers = .error o ∧
      a.classified now (.status message code headers body) = .outside o := by
  cases h : a.serviceFailure now code headers body with
  | ok s => exact Or.inl ⟨s, rfl, by simp only [Adapter.classified, h]⟩
  | error o =>
      exact Or.inr ⟨o, Adapter.serviceFailure_error_iff.mp h, by simp only [Adapter.classified, h]⟩

theorem ExchangeFault.kind_classified (h : ExchangeFault f) :
    (a.classified now f).kind = a.faultKind now f := by
  cases h with
  | @status message code headers body _ =>
      rcases classified_status a now message code headers body with ⟨s, hs, hc⟩ | ⟨o, ho, hc⟩
      · obtain ⟨-, hkind, -, wait, hwait, -⟩ := Adapter.serviceFailure_ok hs
        simp only [hc, Failure.kind, hkind, Adapter.faultKind, hwait]
      · simp only [hc, Failure.kind, Adapter.faultKind, ho]
  | _ => rfl

/-- A classified answer keeps its status. -/
theorem ExchangeFault.statusCode_classified (h : ExchangeFault f) :
    (a.classified now f).statusCode? = f.statusCode? ∨
      ∃ o, a.AsksInVain now f o ∧ a.classified now f = .outside o := by
  cases h with
  | @status message code headers body _ =>
      rcases classified_status a now message code headers body with ⟨s, hs, hc⟩ | ⟨o, ho, hc⟩
      · refine Or.inl ?_
        rw [hc]
        exact (Adapter.serviceFailure_ok hs).2.2.1
      · exact Or.inr ⟨o, .status ho, hc⟩
  | _ => exact Or.inl rfl

theorem ExchangeFault.classified_ne (h : ExchangeFault f) :
    a.classified now f ≠ .outside .cancelled := by
  cases h with
  | @status message code headers body _ =>
      rcases classified_status a now message code headers body with ⟨s, -, hc⟩ | ⟨o, ho, hc⟩
      · simp [hc]
      · rcases Adapter.retryAfter_error ho with rfl | rfl <;> simp [hc]
  | _ => simp [Adapter.classified]

theorem ExchangeFault.hintsFloat (h : ExchangeFault f) : (a.classified now f).HintsFloat := by
  intro s hs
  cases h with
  | @status message code headers body _ =>
      rcases classified_status a now message code headers body with ⟨s', hs', hc⟩ | ⟨o, -, hc⟩
      · obtain rfl := Failure.service.inj (hc.symm.trans hs)
        obtain ⟨-, -, -, wait, -, hwait⟩ := Adapter.serviceFailure_ok hs'
        rw [hwait]
        cases wait with
        | none => exact Or.inl rfl
        | some x => exact Or.inr ⟨x, rfl⟩
      · exact absurd (hc.symm.trans hs) (by simp)
  | _ => exact absurd hs (by simp [Adapter.classified])

/-- The controller is told of nothing that it cannot deal with. -/
theorem classified_of_error {exchange : Nat → Except Failure WireResponse}
    (hfault : ∀ k f, exchange k = .error f → ExchangeFault f) {k : Nat}
    (h : (exchange k).mapError (a.classified now) = .error f) :
    f ≠ .outside .cancelled ∧ f.HintsFloat := by
  cases he : exchange k with
  | ok w =>
      rw [he] at h
      exact absurd h (by simp [Except.mapError])
  | error g =>
      rw [he] at h
      obtain rfl := Except.error.inj h
      exact ⟨(hfault k g he).classified_ne, (hfault k g he).hintsFloat⟩

end Classified

/-! ## Runs over ledgers that differ in other things -/

namespace RetryController

open RetryPolicy

variable {α : Type} {p : RetryPolicy} {outcome : Nat → Except Failure α} {l l' : Ledger} {n : Nat}

theorem drawnAfter_congr (h : SameDraws l l') (k : Nat) :
    SameDraws (p.drawnAfter outcome l k) (p.drawnAfter outcome l' k) := by
  induction k with
  | zero => exact h
  | succ k ih =>
      rw [drawnAfter, drawnAfter]
      cases outcome k with
      | ok a => exact ih
      | error f =>
          by_cases hdraws : (f.hint.isNone && p.drawsAt (k + 1 : Nat)) = true
          · simp only [if_pos hdraws]
            exact ⟨ih.1, congrArg (· + 1) ih.2⟩
          · simp only [if_neg hdraws]
            exact ih

theorem backoffDelay_congr (h : SameDraws l l') (k : Int) :
    (p.backoffDelay k l).map (·.1) = (p.backoffDelay k l').map (·.1) := by
  unfold backoffDelay
  rw [h.nextDraw]
  cases p.baseDelay k with
  | error e => rfl
  | ok base =>
      simp only [bind, Except.bind, pure, Except.pure]
      by_cases hzero : base.le .zero = true
      · rw [if_pos hzero, if_pos hzero]
        rfl
      · rw [if_neg hzero, if_neg hzero]
        by_cases hj : (!p.jitter) = true
        · rw [if_pos hj, if_pos hj]
          rfl
        · rw [if_neg hj, if_neg hj]
          cases l'.nextDraw.times base <;> rfl

/-- The records of a run need the random numbers of the ledger only. -/
theorem recordOf_congr (h : SameDraws l l') (n k : Nat) :
    recordOf p outcome l n k = recordOf p outcome l' n k := by
  unfold recordOf delayAfter
  simp only [backoffDelay_congr (drawnAfter_congr h k)]

/-- Waiting makes no ids. -/
theorem nextDelay_callIds {k : Nat} {f : Failure} {d : Number}
    (h : p.nextDelay k f l = .ok (d, l')) : l'.callIds = l.callIds := by
  have hdrawn : ∀ {k : Int} {d : Number}, p.backoffDelay k l = .ok (d, l') →
      l'.callIds = l.callIds := by
    intro k d h
    unfold backoffDelay at h
    cases hb : p.baseDelay k with
    | error e => rw [hb] at h; exact absurd h (by simp [bind, Except.bind])
    | ok base =>
        simp only [hb, bind, Except.bind, pure, Except.pure] at h
        split at h
        · exact congrArg Ledger.callIds (Prod.mk.inj (Except.ok.inj h)).2.symm
        · split at h
          · exact congrArg Ledger.callIds (Prod.mk.inj (Except.ok.inj h)).2.symm
          · split at h
            · exact absurd h (by simp)
            · exact (congrArg Ledger.callIds (Prod.mk.inj (Except.ok.inj h)).2).symm
  unfold nextDelay at h
  split at h
  · next asked _ =>
      cases hx : asked.asFloat with
      | error e => rw [hx] at h; exact absurd h (by simp [Except.map])
      | ok x =>
          rw [hx] at h
          exact (congrArg Ledger.callIds (Prod.mk.inj (Except.ok.inj h)).2).symm
  · exact hdrawn h

/-- A run makes no ids. -/
theorem runFrom_callIds (left k : Nat) (c : RetryController) (l : Ledger) :
    (runFrom outcome left k c l).ledger.callIds = l.callIds := by
  have hbackOff : ∀ (c : RetryController) (f : Failure) (d : Number) (l : Ledger),
      (c.backOff f d l).callIds = l.callIds := by
    intro c f d l
    unfold backOff
    by_cases hd : Number.zero.lt d = true
    · simp only [if_pos hd]
      rfl
    · simp only [if_neg hd]
      rfl
  induction left generalizing k c l with
  | zero =>
      rw [runFrom]
      cases outcome k with
      | ok a => rfl
      | error f =>
          simp only
          split
          · rfl
          · split <;> rfl
  | succ left ih =>
      rw [runFrom]
      cases outcome k with
      | ok a => rfl
      | error f =>
          simp only
          split
          · rfl
          · split
            · rfl
            · split
              · rfl
              · next d l' hdelay =>
                  have hl' := nextDelay_callIds hdelay
                  split
                  · exact (hbackOff _ f d l').trans hl'
                  · exact (ih _ _ _).trans ((hbackOff _ f d l').trans hl')

theorem run_callIds (c : RetryController) (outcome : Nat → Except Failure α) (l : Ledger) :
    (c.run outcome l).ledger.callIds = l.callIds := by
  unfold run
  split
  · exact runFrom_callIds _ _ _ _
  · rfl

/-- Where an attempt is allowed, there is one that ends the run. -/
theorem exists_least_ends {m : Int} (outcome : Nat → Except Failure α) (hm : 1 ≤ m) :
    ∃ n, IsLeast {k | 1 ≤ k ∧ Ends m outcome k} n := by
  classical
  have hends : ∃ k, 1 ≤ k ∧ Ends m outcome k :=
    ⟨m.toNat, by omega, Or.inr (Or.inr (by omega))⟩
  exact ⟨Nat.find hends, Nat.isLeast_find hends⟩

/-- A run comes to the attempt that ends it with all attempts before it tried again, and no
further attempt is allowed after it if it ends in a failure that might pass. -/
theorem run_reaches {m : Int} (hp : p.check = .ok ()) (hm : p.maxAttempts = .int m)
    (hnc : ∀ k, outcome k ≠ .error (.outside .cancelled))
    (hhint : ∀ k f, outcome k = .error f → f.HintsFloat) (hsleep : SleepsCompletely l)
    (hleast : IsLeast {k | 1 ≤ k ∧ Ends m outcome k} (n + 1))
    (hback : ∀ k f, k < n → outcome k = .error f → f.hint = none →
      ∃ r, p.backoffDelay (k + 1 : Nat) (p.drawnAfter outcome l k) = .ok r) :
    ∃ left c l', ({ policy := p } : RetryController).run outcome l = runFrom outcome left n c l' ∧
      Retried p outcome l (n + 1) n c l' ∧
        ∀ f, outcome n = .error f → f.kind ≠ .permanent → left = 0 := by
  obtain ⟨⟨-, hend⟩, hmin⟩ := hleast
  have hagain : ∀ k, k + 1 < n + 1 → ∃ f d, TriedAgain p outcome l k f d := by
    intro k hk
    refine triedAgain_of_not_ends (m := m) (fun he => ?_) (hnc k) (hhint k) fun f => hback k f (by omega)
    have hle : n + 1 ≤ k + 1 := hmin ⟨by omega, he⟩
    omega
  obtain ⟨c, l', hrun, hc⟩ :=
    runFrom_retries hagain hsleep n (m.toNat - 1 - n) (Nat.lt_succ_self n)
  refine ⟨m.toNat - 1 - n, c, l', ?_, hc, fun f ho hkind => ?_⟩
  · have hm1 := one_le_of_check hp hm
    have hle : n + 1 ≤ m.toNat := hmin ⟨by omega, Or.inr (Or.inr (by omega))⟩
    have hbound : p.attemptBound - (0 + 1) = m.toNat - 1 - n + n := by
      rw [attemptBound, hm]
      show m.toNat - (0 + 1) = _
      omega
    rw [← hrun, run, if_pos rfl]
    exact congrArg (runFrom outcome · 0 { policy := p } l) hbound
  · -- such a failure ends the run only where no attempt is left
    rcases hend with ⟨a, ha⟩ | ⟨g, hg, hgk⟩ | hlast
    · exact absurd (ha.symm.trans ho) (by simp)
    · obtain rfl := Except.error.inj (hg.symm.trans ho)
      exact absurd hgk hkind
    · omega

end RetryController

/-! ## What is read in the end -/

theorem Groq.steady_read (c : Groq.Call) : Steady c.read :=
  (steady_idOr c.id).bind fun _ => steady_pure _

theorem Groq.steady_response (c : Groq.Completion) : Steady c.response :=
  (steady_mapM Groq.steady_read _).bind fun _ =>
    (steady_finishReason .groq _).bind fun _ => steady_liftExcept _

theorem Gemini.steady_part (p : Gemini.PartPayload) : Steady p.read := by
  unfold Gemini.PartPayload.read
  cases p.functionCall with
  | none => exact steady_pure _
  | some f => exact (steady_idOr f.id).bind fun _ => steady_pure _

theorem Gemini.steady_response (g : Gemini.Generated) : Steady g.response := by
  have hparts : ∀ ps, Steady (Gemini.readParts ps) := fun ps =>
    (steady_mapM Gemini.steady_part ps).bind fun _ => steady_pure _
  unfold Gemini.Generated.response
  cases g.candidates with
  | nil =>
      cases g.blockReason? with
      | none => exact steady_malformed .gemini _
      | some reason => exact steady_liftExcept _
  | cons c others =>
      cases hreason : c.finishReason with
      | none => simp only [hreason]; exact steady_malformed .gemini _
      | some code =>
          simp only [hreason]
          exact (hparts c.parts).bind fun _ =>
            (steady_finishReason .gemini code).bind fun _ => steady_liftExcept _

/-- What a body comes to depends on the body, and on how many ids have been made before. -/
theorem steady_readResponse (a : Adapter) (body : List UInt8) : Steady (a.readResponse body) := by
  unfold Adapter.readResponse
  cases a.provider with
  | groq =>
      exact (steady_liftExcept _).bind fun v =>
        (steady_decode .groq _ v).bind fun c => Groq.steady_response c
  | gemini =>
      exact (steady_liftExcept _).bind fun v =>
        (steady_decode .gemini _ v).bind fun g => Gemini.steady_response g

/-- What is made of an answer, after however many attempts. -/
theorem conclude_result (a : Adapter) (c : Config) (attempts : Nat) (w : WireResponse)
    {l l' : Ledger} (hl : l'.callIds = l.callIds) :
    ((a.conclude c attempts w).run l').1 = (((a.readResponse w.body).run l).1).map c.finalize := by
  have hread : ∀ l'', l''.callIds = l.callIds →
      ((do return c.finalize (← a.readResponse w.body) : Reading Response).run l'').1 =
        (((a.readResponse w.body).run l).1).map c.finalize := by
    intro l'' hl''
    rw [run_bind, ← (steady_readResponse a w.body).run_eq hl'']
    cases (a.readResponse w.body).run l'' with
    | mk r l₁ => cases r <;> rfl
  unfold Adapter.conclude
  by_cases hmany : 1 < attempts
  · rw [if_pos hmany]
    exact hread _ hl
  · rw [if_neg hmany]
    exact hread _ hl

/-! ## The whole call -/

namespace Adapter

/-- Where no response is read, the answer is malformed. -/
theorem malformed_of_readResponse (a : Adapter) {body : List UInt8} {l : Ledger}
    {finalize : Response → Response} {f : Failure}
    (h : ((a.readResponse body).run l).1.map finalize = .error f) : IsMalformed a.provider f := by
  have hwell := readResponse_readsWell a body l
  cases hr : ((a.readResponse body).run l).1 with
  | ok r =>
      rw [hr] at h
      exact absurd h (by simp [Except.map])
  | error g =>
      rw [hr] at h hwell
      obtain rfl := Except.error.inj h
      exact hwell

/-- Exchange `k`, counted from one, is the last of a call that may make `m`. -/
def Closes (a : Adapter) (now : Float) (m : Int) (exchange : Nat → Except Failure WireResponse)
    (k : Nat) : Prop :=
  (∃ w, exchange (k - 1) = .ok w) ∨
    (∃ f, exchange (k - 1) = .error f ∧ a.faultKind now f = .permanent) ∨ (k : Int) = m

/-- The controller sees what ends a call as what ends its run. -/
theorem closes_iff {a : Adapter} {now : Float} {m : Int}
    {exchange : Nat → Except Failure WireResponse}
    (hfault : ∀ k f, exchange k = .error f → ExchangeFault f) (k : Nat) :
    a.Closes now m exchange k ↔
      RetryController.Ends m (fun k => (exchange k).mapError (a.classified now)) k := by
  unfold Closes RetryController.Ends
  have hkind := hfault (k - 1)
  cases he : exchange (k - 1) with
  | ok w => simp [he, Except.mapError]
  | error f => simp [he, Except.mapError, (hkind f he).kind_classified]

/-- How a call begins: the request is refused, or it is written and what is logged on the way
is put down. -/
theorem run_begin (a : Adapter) (r : Request) (model : String) (l : Ledger) :
    let begin : Reading WireRequest := do
      let wire ← a.prepare r model false
      Reading.log .debug (dispatchLine a model r)
      return wire
    match r.validate, a.render r model false with
    | .error e, _ => begin.run l = (.error (.ofObjection e), l)
    | .ok (), .error e => begin.run l = (.error (.ofObjection e), l)
    | .ok (), .ok (wire, logs) =>
      begin.run l = (.ok wire, (l.logAll logs).log .debug (dispatchLine a model r)) := by
  intro begin
  show match r.validate, a.render r model false with
    | .error e, _ => begin.run l = (.error (.ofObjection e), l)
    | .ok (), .error e => begin.run l = (.error (.ofObjection e), l)
    | .ok (), .ok (wire, logs) =>
      begin.run l = (.ok wire, (l.logAll logs).log .debug (dispatchLine a model r))
  unfold begin prepare
  cases r.validate with
  | error e => rfl
  | ok u =>
      cases a.render r model false with
      | error e => rfl
      | ok rendered => rfl

/-- A request that is not valid or cannot be written is refused, and nothing is done. -/
theorem chat_refused (a : Adapter) (c : Config) (now : Float) (server : Server) {r : Request}
    {l : Ledger} {e : Objection} (h : r.validate = .error e ∨
      r.validate = .ok () ∧ a.render r c.model false = .error e) :
    a.chat c now server r l = { result := .error (.ofObjection e), ledger := l } := by
  have hbegin := a.run_begin r c.model l
  unfold chat
  rcases h with hv | ⟨hv, hr⟩
  · simp only [hv] at hbegin
    simp only [hbegin]
  · simp only [hv, hr] at hbegin
    simp only [hbegin]

end Adapter

/-- Letting the transport go changes neither the result nor what was sent. -/
theorem Outcome.closeTransport_eq {α : Type} (o : Outcome α) {t : Transport}
    (ht : t ≠ .own .cancelled) :
    (o.closeTransport t).result = o.result ∧ (o.closeTransport t).requests = o.requests ∧
      (o.closeTransport t).attempts = o.attempts := by
  cases t with
  | shared => exact ⟨rfl, rfl, rfl⟩
  | own closing =>
      cases closing with
      | cancelled => exact absurd rfl ht
      | _ => exact ⟨rfl, rfl, rfl⟩

theorem Outcome.andThen_attempts {α β : Type} (o : Outcome α) (next : α → Reading β) :
    (o.andThen next).requests = o.requests ∧ (o.andThen next).attempts = o.attempts := by
  unfold Outcome.andThen
  cases o.result <;> exact ⟨rfl, rfl⟩

/-- A call that has begun: the same request again and again, up to the exchange that closes the
call, and what is made of that. -/
theorem Adapter.attempts_spec (a : Adapter) (c : Config) (now : Float) (server : Server)
    {wire : WireRequest} {sent : SentRequest} (hsent : wire.encode = .ok sent) (l l₀ : Ledger)
    {m : Int} (hp : c.retry.check = .ok ()) (hm : c.retry.maxAttempts = .int m)
    (hsleep : RetryController.SleepsCompletely l) (hdraws : RetryPolicy.SameDraws l l₀)
    (hids : l.callIds = l₀.callIds) :
    let exchange k := (send wire c.timeout (server.reply k)).result
    let outcome k := (exchange k).mapError (a.classified now)
    let o := attempt a c now (fun k => send wire c.timeout (server.reply k)) l
    let ended := o.andThen (a.conclude c o.attempts)
    ∃ n, IsLeast {k | 1 ≤ k ∧ a.Closes now m exchange k} n ∧
      ((∀ k f, k + 1 < n → outcome k = .error f → f.hint = none →
          ∃ d, c.retry.backoffDelay (k + 1 : Nat) (c.retry.drawnAfter outcome l₀ k) = .ok d) →
        ended.requests = List.replicate n sent ∧ ended.attempts = n ∧
          match exchange (n - 1) with
          | .ok w =>
            (200 ≤ w.statusCode ∧ w.statusCode < 300) ∧
              ended.result = ((a.readResponse w.body).run l₀).1.map c.finalize
          | .error f =>
            ended.result = .error (if a.faultKind now f = .permanent then a.classified now f else
              .retriesExhausted
                ("Gave up after " ++ toString n ++ " attempt(s): " ++
                  (a.classified now f).message?.getD "")
                n (a.classified now f)
                ((List.range n).filterMap (RetryController.recordOf c.retry outcome l₀ n))
                (a.classified now f).hint?)) := by
  intro exchange outcome o ended
  have hfault : ∀ k f, exchange k = .error f → ExchangeFault f := fun _ _ => send_fault hsent
  have hnc : ∀ k, outcome k ≠ .error (.outside .cancelled) :=
    fun _ hk => (classified_of_error hfault hk).1 rfl
  have hhint : ∀ k f, outcome k = .error f → f.HintsFloat :=
    fun _ _ hf => (classified_of_error hfault hf).2
  obtain ⟨n, hleast⟩ :=
    RetryController.exists_least_ends outcome (RetryController.one_le_of_check hp hm)
  have hsame : {k | 1 ≤ k ∧ a.Closes now m exchange k} =
      {k | 1 ≤ k ∧ RetryController.Ends m outcome k} := by
    ext k
    exact and_congr_right fun _ => closes_iff hfault k
  refine ⟨n, hsame ▸ hleast, fun hback => ?_⟩
  obtain ⟨j, rfl⟩ : ∃ j, n = j + 1 := ⟨n - 1, (Nat.sub_add_cancel hleast.1.1).symm⟩
  have hback' : ∀ k f, k < j → outcome k = .error f → f.hint = none →
      ∃ r, c.retry.backoffDelay (k + 1 : Nat) (c.retry.drawnAfter outcome l k) = .ok r := by
    intro k f hk hf hh
    obtain ⟨d, hd⟩ := hback k f (by omega) hf hh
    exact ⟨_, RetryPolicy.backoffDelay_ok (RetryController.drawnAfter_congr hdraws k) hd⟩
  obtain ⟨left, d, l', hrun, hretried, hleft⟩ :=
    RetryController.run_reaches hp hm hnc hhint hsleep hleast hback'
  obtain ⟨hcalls, hattempts, hhistory, -, hend⟩ :=
    RetryController.runFrom_last hretried (hnc j) hleft
  have hids' := RetryController.run_callIds { policy := c.retry } outcome l
  rw [← hrun] at hcalls hattempts hhistory hend
  obtain ⟨hrequests, hattempted⟩ := o.andThen_attempts (a.conclude c o.attempts)
  refine ⟨hrequests.trans ?_, hattempted.trans hattempts, ?_⟩
  · rw [← filterMap_sent hsent c.timeout server.reply (j + 1), ← hcalls]
    rfl
  · rw [Nat.add_sub_cancel]
    cases he : exchange j with
    | ok w =>
        rw [show outcome j = .ok w from congrArg (Except.mapError _) he] at hend
        have hresult : o.result = .ok w := hend.1
        have hstatus := (send_result hsent c.timeout (server.reply j)).2
        rw [show (send wire c.timeout (server.reply j)).result = .ok w from he] at hstatus
        refine ⟨hstatus, ?_⟩
        show (o.andThen (a.conclude c o.attempts)).result = _
        unfold Outcome.andThen
        rw [hresult]
        exact conclude_result a c o.attempts w (hids'.trans hids)
    | error f =>
        rw [show outcome j = .error (a.classified now f) from congrArg (Except.mapError _) he] at hend
        have hresult := hend.2
        have hrecords : (List.range (j + 1)).filterMap
            (RetryController.recordOf c.retry outcome l (j + 1)) = (List.range (j + 1)).filterMap
              (RetryController.recordOf c.retry outcome l₀ (j + 1)) :=
          congrArg (List.filterMap · _) (funext (RetryController.recordOf_congr hdraws (j + 1)))
        rw [hhistory, hrecords, (hfault j f he).kind_classified] at hresult
        show (o.andThen (a.conclude c o.attempts)).result = _
        unfold Outcome.andThen
        rw [show o.result = _ from hresult]
        rfl

/--
**A call, exactly.**

A request that is refused is not sent. One that is written and encoded is sent until an
exchange brings an answer of success, fails for good, or is the last one allowed; the answer is
read, without asking for another one if it cannot be, a failure for good goes through with its
status, and any other one ends in exhaustion.
-/
theorem chat_exact (s : Session) {selector : Selector} {c : Config} (r : Request) (l : Ledger)
    {a : Adapter} (ha : selector.resolve s.environment c = .ok a)
    (htransport : s.transport ≠ .own .cancelled) {m : Int} (hp : c.retry.check = .ok ())
    (hm : c.retry.maxAttempts = .int m) (hsleep : RetryController.SleepsCompletely l) :
    let o := s.chat selector c r l
    (∀ e, r.validate = .error e → o.result = .error (.ofObjection e) ∧ o.requests = []) ∧
    (∀ e, r.validate = .ok () → a.render r c.model false = .error e →
      o.result = .error (.ofObjection e) ∧ o.requests = []) ∧
    ∀ wire logs sent, r.validate = .ok () → a.render r c.model false = .ok (wire, logs) →
      wire.encode = .ok sent →
      let exchange k := (send wire c.timeout (s.server.reply k)).result
      let outcome k := (exchange k).mapError (a.classified s.now)
      ∃ n, IsLeast {k | 1 ≤ k ∧ a.Closes s.now m exchange k} n ∧
        ((∀ k f, k + 1 < n → outcome k = .error f → f.hint = none →
            ∃ d, c.retry.backoffDelay (k + 1 : Nat) (c.retry.drawnAfter outcome l k) = .ok d) →
          o.requests = List.replicate n sent ∧ o.attempts = n ∧
            match exchange (n - 1) with
            | .ok w =>
              (200 ≤ w.statusCode ∧ w.statusCode < 300) ∧
                o.result = ((a.readResponse w.body).run l).1.map c.finalize ∧
                  ∀ f, o.result = .error f → IsMalformed a.provider f
            | .error f =>
              ((a.classified s.now f).statusCode? = f.statusCode? ∨
                  ∃ why, a.AsksInVain s.now f why ∧ a.classified s.now f = .outside why) ∧
                o.result = .error (if a.faultKind s.now f = .permanent then a.classified s.now f else
                  .retriesExhausted
                    ("Gave up after " ++ toString n ++ " attempt(s): " ++
                      (a.classified s.now f).message?.getD "")
                    n (a.classified s.now f)
                    ((List.range n).filterMap (RetryController.recordOf c.retry outcome l n))
                    (a.classified s.now f).hint?)) := by
  intro o
  have hchat : o = (a.chat c s.now s.server r l).closeTransport s.transport := by
    show s.chat selector c r l = _
    rw [Session.chat, ha]
  obtain ⟨hresult, hrequests, hattempts⟩ :=
    (a.chat c s.now s.server r l).closeTransport_eq htransport
  rw [← hchat] at hresult hrequests hattempts
  refine ⟨fun e hv => ?_, fun e hv hr => ?_, fun wire logs sent hv hr hsent => ?_⟩
  · rw [hresult, hrequests, a.chat_refused c s.now s.server (.inl hv)]
    exact ⟨rfl, rfl⟩
  · rw [hresult, hrequests, a.chat_refused c s.now s.server (.inr ⟨hv, hr⟩)]
    exact ⟨rfl, rfl⟩
  · intro exchange outcome
    have hbegin := a.run_begin r c.model l
    simp only [hv, hr] at hbegin
    obtain ⟨l', hl'⟩ : ∃ l', l' = (l.logAll logs).log .debug (dispatchLine a c.model r) := ⟨_, rfl⟩
    have hchat' : a.chat c s.now s.server r l =
        let o := attempt a c s.now (fun k => send wire c.timeout (s.server.reply k)) l'
        o.andThen (a.conclude c o.attempts) := by
      unfold Adapter.chat
      simp only [hbegin, hl']
    have hsleep' : RetryController.SleepsCompletely l' := by
      rw [hl']
      exact hsleep
    obtain ⟨n, hleast, hend⟩ := a.attempts_spec c s.now s.server hsent l' l hp hm hsleep'
      (by rw [hl']; exact ⟨rfl, rfl⟩) (by rw [hl']; rfl)
    refine ⟨n, hleast, fun hback => ?_⟩
    obtain ⟨hsame, hcount, hcome⟩ := hend hback
    rw [← hchat'] at hsame hcount hcome
    refine ⟨hrequests.trans hsame, hattempts.trans hcount, ?_⟩
    rw [← hresult] at hcome
    cases he : exchange (n - 1) with
    | ok w =>
        rw [show (fun k => (send wire c.timeout (s.server.reply k)).result) (n - 1) = .ok w from he]
          at hcome
        obtain ⟨hstatus, hread⟩ := hcome
        refine ⟨hstatus, hread, fun f hf => ?_⟩
        rw [hread] at hf
        exact a.malformed_of_readResponse hf
    | error f =>
        rw [show (fun k => (send wire c.timeout (s.server.reply k)).result) (n - 1) = .error f from he]
          at hcome
        exact ⟨(send_fault hsent he).statusCode_classified, hcome⟩

/-- A server that cannot be reached at first, and then does not know the key. -/
def closedDoor : Session :=
  { now := 0
    server := { replies := [.fault (.int 0) .connectError "refused", .answer (.int 0) { status := 401 }] } }

/-- At most four attempts. -/
def patient : Config := { model := "m", retry := RetryController.doublingPolicy }

/-- A hello. -/
def hello : Request := { messages := [{ role := .text "user", content := .text "Hi" }] }

/-- Access with a key that is not known. -/
def stranger : Adapter :=
  { provider := .groq, credential := { provider := "groq", secret := "k" }, baseUrl := "https://x" }

theorem hello_encodes : ∃ sent, (Groq.render stranger hello "m" false).encode = .ok sent := by
  have hencodes : (Groq.render stranger hello "m" false).encode.toBool = true := by
    decide +kernel
  cases h : (Groq.render stranger hello "m" false).encode with
  | ok sent => exact ⟨sent, rfl⟩
  | error f =>
      rw [h] at hencodes
      exact absurd hencodes (by simp [Except.toBool])

/-- A lost connection is tried again, and an answer about the key is not. -/
theorem chat_exact_closedDoor :
    let o := closedDoor.chat (.given stranger) patient hello {}
    o.requests.length = 2 ∧ ∃ f, o.result = .error (.service f) ∧ f.statusCode = some 401 := by
  intro o
  obtain ⟨sent, hsent⟩ := hello_encodes
  have hvalid : hello.validate = .ok () := by cbv
  have hadapter : (Selector.given stranger).resolve closedDoor.environment patient = .ok stranger :=
    rfl
  obtain ⟨n, hleast, hend⟩ := (chat_exact closedDoor hello {} hadapter (by simp [closedDoor]) rfl rfl
    (by intro i _; simp)).2.2 (Groq.render stranger hello "m" false) _ sent hvalid rfl hsent
  have hfirst : (send (Groq.render stranger hello "m" false) patient.timeout
      (closedDoor.server.reply 0)).result =
        .error (.connection "Connection failed: ConnectError" none) := by
    unfold send
    rw [hsent]
    rfl
  have hsecond : ∃ message, (send (Groq.render stranger hello "m" false) patient.timeout
      (closedDoor.server.reply 1)).result = .error (.status message 401 [] []) := by
    unfold send
    rw [hsent]
    exact ⟨_, rfl⟩
  obtain ⟨message, hsecond⟩ := hsecond
  have hpermanent :
      stranger.faultKind closedDoor.now (.status message 401 [] []) = .permanent := rfl
  have hn : n = 2 := by
    refine hleast.unique ⟨⟨by omega, Or.inr (Or.inl ⟨_, hsecond, hpermanent⟩)⟩, fun k hk => ?_⟩
    obtain ⟨hk1, hk⟩ := hk
    by_contra hlt
    obtain rfl : k = 1 := by omega
    rcases hk with ⟨w, hw⟩ | ⟨f, hf, hkind⟩ | hk4
    · exact absurd (hfirst.symm.trans hw) (by simp)
    · obtain rfl := Except.error.inj (hfirst.symm.trans hf)
      exact absurd hkind (by simp [Adapter.faultKind])
    · omega
  subst hn
  obtain ⟨hrequests, -, hresult⟩ := hend fun k f hk hf _ => by
    obtain rfl : k = 0 := by omega
    exact ⟨_, rfl⟩
  simp only [show 2 - 1 = 1 from rfl, hsecond] at hresult
  rw [if_pos hpermanent] at hresult
  refine ⟨?_, _, hresult.2, rfl⟩
  rw [show o.requests = List.replicate 2 sent from hrequests]
  rfl

/-! ## A date that is too large -/

namespace Adapter

/-- What a call does before the first attempt. -/
def dispatch (a : Adapter) (c : Config) (r : Request) : Reading WireRequest := do
  let wire ← a.prepare r c.model false
  Reading.log .debug (dispatchLine a c.model r)
  return wire

theorem chat_eq (a : Adapter) (c : Config) (now : Float) (server : Server) (r : Request)
    (l : Ledger) :
    a.chat c now server r l =
      match (a.dispatch c r).run l with
      | (.error f, l) => { result := .error f, ledger := l }
      | (.ok wire, l) =>
        let o := attempt a c now (fun k => send wire c.timeout (server.reply k)) l
        o.andThen (a.conclude c o.attempts) := rfl

/-- A call whose first exchange fails for good is over. -/
theorem chat_failsForGood (a : Adapter) (c : Config) (now : Float) (server : Server)
    (r : Request) {l l₁ : Ledger} {wire : WireRequest} {f : Failure}
    (hdispatch : (a.dispatch c r).run l = (.ok wire, l₁))
    (hf : (send wire c.timeout (server.reply 0)).result = .error f)
    (hcancel : RetryController.isCancellation (a.classified now f) = false)
    (hkind : (a.classified now f).kind = .permanent) :
    (a.chat c now server r l).result = .error (a.classified now f) ∧
      (a.chat c now server r l).attempts = 1 := by
  have hretry : (a.classified now f).kind.isRetryable = false := by rw [hkind]; rfl
  obtain ⟨hresult, hattempts⟩ :
      (attempt a c now (fun k => send wire c.timeout (server.reply k)) l₁).result =
          .error (a.classified now f) ∧
        (attempt a c now (fun k => send wire c.timeout (server.reply k)) l₁).attempts = 1 := by
    unfold attempt RetryController.run
    dsimp only
    rw [if_pos rfl, RetryController.runFrom, hf]
    simp only [Except.mapError, hcancel, hretry, Bool.not_false, Bool.false_eq_true, if_true,
      if_false]
    exact ⟨trivial, rfl⟩
  rw [chat_eq, hdispatch]
  simp only [Outcome.andThen, hresult]
  exact ⟨rfl, hattempts⟩

end Adapter

/-- A server that is busy, and names a day that is too far off. -/
def distantDay : Session :=
  { now := 0
    server := { replies := [.answer (.int 0)
      { status := 503, headers := [("Retry-After", "Fri, 31 Dec 99999999999 23:59:59 GMT")] }] } }

/-- A busy server is not asked again where the day that it names is too far off to compute with. -/
theorem chat_overflows :
    stranger.provider.classify 503 (errorBody []) = .transient ∧
      let o := distantDay.chat (.given stranger) patient hello {}
      o.result = .error (.outside .overflow) ∧ o.attempts = 1 := by
  obtain ⟨sent, hsent⟩ := hello_encodes
  refine ⟨rfl, ?_⟩
  obtain ⟨message, headers, hfirst, hwait⟩ : ∃ message headers,
      (send (Groq.render stranger hello "m" false) patient.timeout
        (distantDay.server.reply 0)).result = .error (.status message 503 headers []) ∧
      stranger.retryAfter 0 (errorBody []) headers = .error .overflow := by
    unfold send
    rw [hsent]
    exact ⟨_, _, rfl, by decide +kernel⟩
  have hclassified : stranger.classified 0 (.status message 503 headers []) =
      .outside .overflow := by
    simp only [Adapter.classified, Adapter.serviceFailure_error_iff.mpr hwait]
  have hchat := stranger.chat_failsForGood patient 0 distantDay.server hello (l := {}) rfl hfirst
    (by rw [hclassified]; rfl) (by rw [hclassified]; rfl)
  rwa [hclassified] at hchat

end ChatClient
