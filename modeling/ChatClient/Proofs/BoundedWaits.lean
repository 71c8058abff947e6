import ChatClient.Proofs.AskedWaits
import ChatClient.Proofs.Delays
import ChatClient.Proofs.RetryRun

/-!
# Waits that are asked for are bounded

Whatever a failed answer says, the wait that is read out of it is a number that is not negative: a
duration has no sign, a number of seconds is looked at, and a date that has passed is no wait. It may
be infinite, since a duration may have any number of digits. The retry controller waits no longer
than its policy allows, so a service cannot make it wait for ever.
-/

namespace ChatClient

open Decimal Number

/-! ## Numbers that are not negative -/

namespace Number

variable {x : Float}

theorem zero_le_float_iff : zero.le (.float x) = true ↔ 0.0 ≤ x := by
  rw [le_iff, float_le_iff, order?_eq_some, order?_eq_some, worth_zero, worth?_zeroFloat]
  simp only [compare_lt_iff_lt, compare_eq_iff_eq, le_iff_lt_or_eq, and_or_left, exists_or]

theorem isNaN_of_zero_le (h : zero.le (.float x) = true) : x.isNaN = false := by
  by_contra hnan
  have hnone : (float x).worth? = none := worth_eq_none.mpr ⟨x, rfl, (Bool.not_eq_false _).mp hnan⟩
  obtain ⟨-, -, r, hr, -⟩ := le_iff.mp h
  rw [hnone] at hr
  exact absurd hr (by simp)

end Number

namespace RetryAfter

theorem zero_le_atLeastZero (x : Float) : zero.le (.float (atLeastZero x)) = true := by
  unfold atLeastZero
  split_ifs with h
  · rw [zero_le_float_iff, float_le_iff]
    exact .inl (float_lt_iff.mp h)
  · decide +kernel

/-- A duration is rounded from digits, without a sign. -/
theorem zero_le_of_writes {cs : List Char} {x : Float} (h : Writes cs x) :
    zero.le (.float x) = true := by
  have hseconds (ds es : List Char) : zero.le (.float (secondsOf ds es)) = true := by
    obtain ⟨r, hr, hworth⟩ := Numeral.worth_toFloat
      (n := ⟨false, Text.ofDigits (asciiDigits (ds ++ es)), -es.length⟩) rfl
    have hworth : (float (secondsOf ds es)).worth? = some r := hworth
    rw [le_of_worth worth_zero hworth]
    exact hr.nonneg
  cases h with
  | whole hds => exact hseconds _ _
  | point hds hes => exact hseconds _ _

end RetryAfter

namespace Adapter

variable {a : Adapter} {now : Float} {body : Json} {headers : Headers} {x : Float}

/-- A wait that is asked for is a number, and not negative. -/
theorem AsksFor.zero_le (h : a.AsksFor now body headers (.ok (some x))) :
    zero.le (.float x) = true := by
  cases h with
  | detail ha h =>
      obtain ⟨-, detail, -, -, hdetail, -⟩ := h
      obtain ⟨-, -, cs, hwrites, -⟩ := hdetail.delay
      exact RetryAfter.zero_le_of_writes hwrites
  | header ha h =>
      rcases h with ⟨-, -, value, -, -, -, -, hsays⟩ | ⟨-, hnone⟩
      · cases hsays with
        | seconds h hx => exact zero_le_float_iff.mpr hx
        | date hx h ht => exact RetryAfter.zero_le_atLeastZero _
      · exact absurd hnone (by simp)

end Adapter

/-! ## Delays -/

namespace RetryPolicy

variable {p : RetryPolicy}

theorem maxRetryAfter_of_check (hp : p.check = .ok ()) : p.maxRetryAfter.lt .zero = false := by
  simp only [check, bind_eq_ok] at hp
  obtain ⟨⟨⟩, -, ⟨⟩, -, ⟨⟩, -, ⟨⟩, -, hmax⟩ := hp
  rwa [checkBound_eq_ok, Bool.not_eq_true'] at hmax

/-- The controller waits as long as it is asked to, and no longer than its policy allows. -/
theorem nextDelay_within (hp : p.check = .ok ()) (hmax : p.maxRetryAfter.worth? ≠ none)
    {s : ServiceFailure} {x : Float} (hs : s.retryAfter = .float x)
    (hx : zero.le (.float x) = true) (k : ℕ) (l : Ledger) :
    ∃ d, p.nextDelay k (.service s) l = .ok (d, l) ∧ zero.le d = true ∧
      d.le p.maxRetryAfter = true := by
  obtain ⟨M, hM⟩ := Option.ne_none_iff_exists'.mp hmax
  obtain ⟨z, hz, r, hr, hzr⟩ := le_iff.mp hx
  obtain rfl := Option.some.inj (worth_zero.symm.trans hz)
  have hworth : ((float x).min p.maxRetryAfter).worth? = some (r ⊓ M) := by
    rw [worth_min hr, hM]
    rfl
  refine ⟨(float x).min p.maxRetryAfter, ?_, ?_, ?_⟩
  · have hasked : askedDelay? (.service s) = some (.float x) := by
      simp only [askedDelay?, hs, Json.quantity?, Json.number?, Option.filter_some, hx, if_true]
    rw [nextDelay, hasked]
    rfl
  · rw [le_of_worth worth_zero hworth]
    exact le_inf hzr (nonneg_of_not_lt_zero (maxRetryAfter_of_check hp) hM)
  · rw [le_of_worth hworth hM]
    exact inf_le_right

end RetryPolicy

/--
**How long a service makes the client wait, exactly.**

What is read out of a failed answer is what it asks for: for Gemini the first detail of the error that
is information about retries with a duration decides, otherwise the first `Retry-After` header field
does, in any letter case, with seconds or with a date. That fails just where the field holds a date
that is too large to compute with, or the first day of the calendar without a zone. Whatever is
asked for is a number that is not negative, and after a failure that carries it the next attempt
is made no later than the policy allows.
-/
theorem Adapter.retryAfter_exact (a : Adapter) (now : Float) (headers : Headers) :
    (∀ body r, a.retryAfter now body headers = r ↔ a.AsksFor now body headers r) ∧
    (∀ body x, a.retryAfter now body headers = .ok (some x) →
      zero.le (.float x) = true ∧ x.isNaN = false) ∧
    ∀ status bytes s, a.serviceFailure now status headers bytes = .ok s → s.retryAfter ≠ .null →
      ∀ (p : RetryPolicy) (k : ℕ) (l : Ledger), p.check = .ok () →
        (∀ y, p.maxRetryAfter = .float y → y.isNaN = false) →
        ∃ d, p.nextDelay k (.service s) l = .ok (d, l) ∧ zero.le d = true ∧
          d.le p.maxRetryAfter = true := by
  refine ⟨fun body r => retryAfter_eq_iff, fun body x h => ?_, ?_⟩
  · have hx := (retryAfter_eq_iff.mp h).zero_le
    exact ⟨hx, isNaN_of_zero_le hx⟩
  · intro status bytes s hs hhint p k l hp hnan
    obtain ⟨-, -, -, wait, hwait, hretry⟩ := serviceFailure_ok hs
    cases wait with
    | none => exact absurd hretry hhint
    | some x =>
        have hmax : p.maxRetryAfter.worth? ≠ none := fun hnone => by
          obtain ⟨y, hy, hynan⟩ := worth_eq_none.mp hnone
          exact absurd ((hnan y hy).symm.trans hynan) (by decide)
        exact RetryPolicy.nextDelay_within hp hmax hretry (retryAfter_eq_iff.mp hwait).zero_le k l

/-- Access to Gemini. -/
def geminiAccess : Adapter :=
  { provider := .gemini, credential := { provider := "gemini", secret := "k" }, baseUrl := "https://x" }

/-- An error of Gemini with a detail that is no information about retries and with one that asks for
some seconds. -/
def busyBody (delay : String) : String :=
  "\x7b\"error\": \x7b\"details\": [\x7b\"@type\": \"Help\", \"retryDelay\": \"1s\"\x7d, " ++
    "\x7b\"@type\": \"google.rpc.RetryInfo\", \"retryDelay\": \"" ++ delay ++ "\"\x7d]\x7d\x7d"

/-- A duration goes before a header field, and the wait is cut to what the policy allows. -/
theorem Adapter.retryAfter_exact_busy :
    let bytes := Text.Utf8.encode (busyBody "90s")
    let headers := [("retry-after", "1")]
    geminiAccess.AsksFor 0 (errorBody bytes) headers
        (.ok (some (RetryAfter.secondsOf ['9', '0'] []))) ∧
      ∃ s, geminiAccess.serviceFailure 0 503 headers bytes = .ok s ∧ s.retryAfter ≠ .null ∧
        RetryController.doublingPolicy.check = .ok () ∧ ∃ d,
          RetryController.doublingPolicy.nextDelay 1 (.service s) {} = .ok (d, {}) ∧
            zero.le d = true ∧ d.le (.int 60) = true := by
  intro bytes headers
  obtain ⟨hasks, hnumber, hdelay⟩ := geminiAccess.retryAfter_exact 0 headers
  have hwait : geminiAccess.retryAfter 0 (errorBody bytes) headers =
      .ok (some (RetryAfter.secondsOf ['9', '0'] [])) := by
    decide +kernel
  obtain ⟨s, hs⟩ : ∃ s, geminiAccess.serviceFailure 0 503 headers bytes = .ok s := by
    rw [serviceFailure_eq, hwait]
    exact ⟨_, rfl⟩
  have hhint : s.retryAfter ≠ .null := by
    obtain ⟨-, -, -, wait, hwait', hretry⟩ := serviceFailure_ok hs
    obtain rfl := Except.ok.inj (hwait.symm.trans hwait')
    rw [hretry]
    exact Json.noConfusion
  have hnan (y : Float) (hy : RetryController.doublingPolicy.maxRetryAfter = .float y) :
      y.isNaN = false := Number.noConfusion hy
  exact ⟨(hasks _ _).mp hwait, s, hs, hhint, rfl, hdelay 503 bytes s hs hhint _ 1 {} rfl hnan⟩

/-- The first day of the calendar without a zone is a date, and the wait up to it cannot be told. -/
theorem Adapter.retryAfter_firstDay :
    MailDate.read "1 Jan X 00:00:00 -1999".toList = .ok
        { year := 1, month := 1, day := 1, hour := 0, minute := 0, second := 0, zone := none } ∧
      geminiAccess.retryAfter 0 .null [("Retry-After", "1 Jan X 00:00:00 -1999")] =
        .error .badValue := by
  decide +kernel

end ChatClient
