import Mathlib.Data.List.Infix
import Mathlib.Data.List.TakeWhile
import Mathlib.Tactic.IntervalCases
import ChatClient.Proofs.Redaction

/-!
# The wait that a failed answer asks for

For Gemini the first detail of an error that is information about retries decides, if its duration
is well-formed; otherwise, and for Groq, the first header field of the right name does, with a number
of seconds or with a date. `Adapter.AsksFor` says this without searching and scanning, and what is
read out of an answer is just that.

It is no wait at all in two cases, both of them dates: a part of the date is too large to compute
with, or it is the first day of the calendar and has no zone.
-/

namespace ChatClient

open Text

/-! ## Durations -/

namespace RetryAfter

/-- At least one digit, of any script, and nothing else. -/
def AreDigits (cs : List Char) : Prop := cs ≠ [] ∧ ∀ c ∈ cs, isDecimal c = true

/-- The seconds that digits write, before and after a point. -/
def secondsOf (whole fraction : List Char) : Float :=
  Decimal.Numeral.toFloat
    ⟨false, ofDigits (Decimal.asciiDigits (whole ++ fraction)), -fraction.length⟩

/-- A text writes seconds: digits, and perhaps a point and more digits. -/
inductive Writes : List Char → Float → Prop
  | whole {ds : List Char} (hds : AreDigits ds) : Writes ds (secondsOf ds [])
  | point {ds es : List Char} (hds : AreDigits ds) (hes : AreDigits es) :
    Writes (ds ++ '.' :: es) (secondsOf ds es)

/-- A text is a duration: it writes seconds with an `s` behind them, and perhaps a line feed. -/
def IsDuration (s : String) (x : Float) : Prop :=
  ∃ cs, Writes cs x ∧ (s.toList = cs ++ ['s'] ∨ s.toList = cs ++ ['s', '\n'])

/-- A character as a digit of ASCII, if it is a digit. -/
def asciiDigit (c : Char) : Char := ((digitValue? c).map digitChar).getD c

theorem asciiDigits_eq (cs : List Char) : Decimal.asciiDigits cs = cs.map asciiDigit := rfl

theorem isDecimal_of_isAsciiDigit {c : Char} (h : isAsciiDigit c = true) : isDecimal c = true := by
  have hrange : 48 ≤ c.toNat ∧ c.toNat ≤ 57 := by
    simpa [isAsciiDigit, Char.le_def, UInt32.le_iff_toNat_le] using h
  rw [isDecimal, digitValue?, Option.isSome_map, List.find?_isSome]
  exact ⟨48, by decide, by simp only [Bool.and_eq_true, decide_eq_true_eq]; omega⟩

theorem isAsciiDigit_digitChar {n : ℕ} (h : n < 10) : isAsciiDigit (digitChar n) = true := by
  interval_cases n <;> decide

/-- The digits of all scripts become the digits of ASCII, and nothing else does. -/
theorem isAsciiDigit_asciiDigit (c : Char) : isAsciiDigit (asciiDigit c) = isDecimal c := by
  unfold asciiDigit isDecimal
  cases h : digitValue? c with
  | some n =>
      obtain ⟨z, hz, rfl⟩ := Option.map_eq_some_iff.mp h
      have hrow := List.find?_some hz
      simp only [Bool.and_eq_true, decide_eq_true_eq] at hrow
      exact isAsciiDigit_digitChar (by omega)
  | none =>
      have hnot : isDecimal c = false := by rw [isDecimal, h]; rfl
      show isAsciiDigit c = false
      by_contra hc
      exact absurd (isDecimal_of_isAsciiDigit ((Bool.not_eq_false _).mp hc)) (by simp [hnot])

theorem asciiDigit_of_not_isDecimal {c : Char} (h : isDecimal c = false) : asciiDigit c = c := by
  rw [isDecimal, Option.isSome_eq_false_iff, Option.isNone_iff_eq_none] at h
  rw [asciiDigit, h]
  rfl

theorem asciiDigit_eq_point_iff {c : Char} : asciiDigit c = '.' ↔ c = '.' := by
  constructor
  · intro h
    have hc : isDecimal c = false := by rw [← isAsciiDigit_asciiDigit, h]; decide
    rwa [asciiDigit_of_not_isDecimal hc] at h
  · rintro rfl
    decide

/-- Digits of any script at the start of a text are split off with what they are in ASCII. -/
theorem spanDigits_asciiDigits (cs : List Char) : Decimal.spanDigits (Decimal.asciiDigits cs) =
    ((cs.takeWhile isDecimal).map asciiDigit, (cs.dropWhile isDecimal).map asciiDigit) := by
  have hp : isAsciiDigit ∘ asciiDigit = isDecimal := funext isAsciiDigit_asciiDigit
  rw [asciiDigits_eq, Decimal.spanDigits, List.span_eq_takeWhile_dropWhile, List.takeWhile_map,
    List.dropWhile_map, hp]

theorem AreDigits.span {ds : List Char} (hds : AreDigits ds) (rest : List Char)
    (hrest : ∀ c ∈ rest.head?, isDecimal c = false) :
    (ds ++ rest).takeWhile isDecimal = ds ∧ (ds ++ rest).dropWhile isDecimal = rest := by
  rw [List.takeWhile_append_of_pos hds.2, List.dropWhile_append_of_pos hds.2]
  cases rest with
  | nil => simp
  | cons c cs =>
      have hc : ¬ isDecimal c = true := by rw [hrest c rfl]; decide
      rw [List.takeWhile_cons_of_neg hc, List.dropWhile_cons_of_neg hc, List.append_nil]
      exact ⟨rfl, rfl⟩

theorem all_isAsciiDigit_map (cs : List Char) :
    (cs.map asciiDigit).all isAsciiDigit = true ↔ ∀ c ∈ cs, isDecimal c = true := by
  rw [List.all_map, List.all_eq_true]
  simp only [Function.comp_apply, isAsciiDigit_asciiDigit]

/-- **A scan for seconds finds what a text writes.** -/
theorem seconds?_eq_some {cs : List Char} {x : Float} : seconds? cs = some x ↔ Writes cs x := by
  constructor
  · intro h
    have hcs := (List.takeWhile_append_dropWhile (p := isDecimal) (l := cs)).symm
    have hds : ∀ c ∈ cs.takeWhile isDecimal, isDecimal c = true := fun c => List.mem_takeWhile_imp
    unfold seconds? at h
    rw [spanDigits_asciiDigits] at h
    generalize cs.takeWhile isDecimal = ds, cs.dropWhile isDecimal = rest at h hcs hds
    subst hcs
    dsimp only at h
    split_ifs at h with hnil
    have hds : AreDigits ds := ⟨fun he => hnil (by rw [he]; rfl), hds⟩
    cases rest with
    | nil =>
        have hx : secondsOf ds [] = x := by
          simpa [secondsOf, asciiDigits_eq] using h
        rw [List.append_nil, ← hx]
        exact .whole hds
    | cons c es =>
        rw [List.map_cons] at h
        split at h
        · next heq => exact absurd heq (List.cons_ne_nil _ _)
        · next es' heq =>
          obtain ⟨hpoint, rfl⟩ := List.cons.inj heq
          obtain rfl := asciiDigit_eq_point_iff.mp hpoint
          split_ifs at h with hes
          obtain rfl := Option.some.inj h
          rw [all_isAsciiDigit_map] at hes
          have hes : AreDigits es := ⟨fun he => hes.1 (by rw [he]; rfl), hes.2⟩
          rw [← List.map_append, ← asciiDigits_eq, List.length_map]
          exact .point hds hes
        · exact absurd h (by simp)
  · intro h
    cases h with
    | @whole ds hds =>
        obtain ⟨htake, hdrop⟩ := hds.span [] (by simp)
        rw [List.append_nil] at htake hdrop
        unfold seconds?
        rw [spanDigits_asciiDigits, htake, hdrop]
        simp [secondsOf, asciiDigits_eq, hds.1]
    | @point ds es hds hes =>
        obtain ⟨htake, hdrop⟩ := hds.span ('.' :: es)
          (fun c hc => by obtain rfl := Option.some.inj hc; decide)
        unfold seconds?
        rw [spanDigits_asciiDigits, htake, hdrop, List.map_cons,
          show asciiDigit '.' = '.' by decide]
        have hall := (all_isAsciiDigit_map es).mpr hes.2
        simp [secondsOf, asciiDigits_eq, hds.1, hes.1, hall]

/-- What stands before the unit, whether a line feed follows or not. -/
theorem duration?_of_unit {s : String} {cs : List Char}
    (h : s.toList = cs ++ ['s'] ∨ s.toList = cs ++ ['s', '\n']) : duration? s = seconds? cs := by
  rcases h with h | h <;> simp [duration?, h]

/-- Without the unit a text is no duration. -/
theorem unit_of_duration? {s : String} {x : Float} (h : duration? s = some x) :
    ∃ cs, s.toList = cs ++ ['s'] ∨ s.toList = cs ++ ['s', '\n'] := by
  unfold duration? at h
  dsimp only at h
  split at h
  · next rest heq =>
    refine ⟨rest.reverse, ?_⟩
    rw [← List.reverse_reverse s.toList]
    split_ifs at heq with hfeed
    · obtain ⟨cs, hcs⟩ := List.head?_eq_some_iff.mp hfeed
      rw [hcs, List.tail_cons] at heq
      exact .inr (by simp [hcs, heq])
    · exact .inl (by simp [heq])
  · exact absurd h (by simp)

/-- **A text is read as a duration just if it is one.** -/
theorem duration?_eq_some {s : String} {x : Float} : duration? s = some x ↔ IsDuration s x := by
  constructor
  · intro h
    obtain ⟨cs, hcs⟩ := unit_of_duration? h
    rw [duration?_of_unit hcs, seconds?_eq_some] at h
    exact ⟨cs, h, hcs⟩
  · rintro ⟨cs, hwrites, hcs⟩
    rwa [duration?_of_unit hcs, seconds?_eq_some]

/-! ## Details of errors -/

/-- A detail of an error asks for a wait: it is information about retries, with a duration. -/
structure AsksInDetail (detail : Json) (x : Float) : Prop where
  retryInfo : ∃ kind, detail.field? "@type" = some (.text kind) ∧
    "RetryInfo".toList <:+: kind.toList
  delay : ∃ delay, detail.field? "retryDelay" = some (.text delay) ∧ IsDuration delay x

theorem ofDetail?_eq_some {detail : Json} {x : Float} :
    ofDetail? detail = some x ↔ AsksInDetail detail x := by
  constructor
  · intro h
    unfold ofDetail? at h
    split at h
    · next kind delay hkind hdelay =>
      split_ifs at h with hoccurs
      exact ⟨⟨kind, hkind, occurs_iff.mp hoccurs⟩, ⟨delay, hdelay, duration?_eq_some.mp h⟩⟩
    · exact absurd h (by simp)
  · rintro ⟨⟨kind, hkind, hinfix⟩, ⟨delay, hdelay, hduration⟩⟩
    simp only [ofDetail?, hkind, hdelay, if_pos (occurs_iff.mpr hinfix)]
    exact duration?_eq_some.mpr hduration

/-- The first detail of an error that asks for a wait. -/
def AsksInDetails (body : Json) (x : Float) : Prop :=
  ∃ before detail after,
    (errorObject body).get? "details" = some (.list (before ++ detail :: after)) ∧
      AsksInDetail detail x ∧ ∀ d ∈ before, ∀ y, ¬ AsksInDetail d y

theorem ofDetails?_eq_some {body : Json} {x : Float} :
    ofDetails? body = some x ↔ AsksInDetails body x := by
  have hnone (d : Json) : ofDetail? d = none ↔ ∀ y, ¬ AsksInDetail d y := by
    simp only [Option.eq_none_iff_forall_ne_some, ← ofDetail?_eq_some, ne_eq]
  constructor
  · intro h
    unfold ofDetails? at h
    split at h
    · next details hdetails =>
      obtain ⟨before, detail, after, rfl, hdetail, hbefore⟩ := List.findSome?_eq_some_iff.mp h
      exact ⟨before, detail, after, hdetails, ofDetail?_eq_some.mp hdetail,
        fun d hd => (hnone d).mp (hbefore d hd)⟩
    · exact absurd h (by simp)
  · rintro ⟨before, detail, after, hdetails, hdetail, hbefore⟩
    simp only [ofDetails?, hdetails]
    exact List.findSome?_eq_some_iff.mpr ⟨before, detail, after, rfl,
      ofDetail?_eq_some.mpr hdetail, fun d hd => (hnone d).mpr (hbefore d hd)⟩

end RetryAfter

/-! ## Dates -/

namespace MailDate

variable {s : Stamp} {cs : List Char}

theorem daysIn_pos (year : Int) (month : Nat) : 0 < daysIn year month := by
  unfold daysIn
  split <;> (try split) <;> omega

theorem daysBeforeMonth_succ (year : Int) {month : Nat} (h : 1 ≤ month) :
    daysBeforeMonth year (month + 1) = daysBeforeMonth year month + daysIn year month := by
  obtain ⟨m, rfl⟩ : ∃ m, month = m + 1 := ⟨month - 1, by omega⟩
  simp [daysBeforeMonth, List.range_succ]

/-- Before each month but the first there are days. -/
theorem daysBeforeMonth_pos (year : Int) {month : Nat} (h : 2 ≤ month) :
    0 < daysBeforeMonth year month := by
  induction month, h using Nat.le_induction with
  | base =>
      rw [daysBeforeMonth_succ year le_rfl, show daysBeforeMonth year 1 = 0 from rfl, zero_add]
      exact daysIn_pos year 1
  | succ month h ih =>
      rw [daysBeforeMonth_succ year (by omega)]
      exact add_pos ih (daysIn_pos year month)

theorem Stamp.isValid_iff : s.isValid = true ↔
    (1 ≤ s.year ∧ s.year ≤ 9999) ∧ (1 ≤ s.month ∧ s.month ≤ 12) ∧
      (1 ≤ s.day ∧ s.day ≤ daysIn s.year s.month) ∧ (0 ≤ s.hour ∧ s.hour < 24) ∧
        (0 ≤ s.minute ∧ s.minute < 60) ∧ 0 ≤ s.second ∧ s.second < 60 := by
  simp only [Stamp.isValid, Bool.and_eq_true, decide_eq_true_eq, and_assoc]

/-- The days are counted from the first day of the calendar. -/
theorem Stamp.days_eq_iff (h : s.isValid = true) :
    s.days = -epochDays ↔ s.year = 1 ∧ s.month = 1 ∧ s.day = 1 := by
  obtain ⟨⟨hyear, -⟩, ⟨hmonth, -⟩, ⟨hday, -⟩, -⟩ := Stamp.isValid_iff.mp h
  have hyears : 0 ≤ daysBeforeYear s.year ∧ (daysBeforeYear s.year = 0 → s.year = 1) := by
    simp only [daysBeforeYear]
    constructor <;> omega
  unfold Stamp.days
  constructor
  · intro hdays
    have hfirst : s.month = 1 := by
      by_contra hne
      have := daysBeforeMonth_pos s.year (show 2 ≤ s.month by omega)
      omega
    rw [hfirst, show daysBeforeMonth s.year 1 = 0 from rfl] at hdays
    exact ⟨hyears.2 (by omega), hfirst, by omega⟩
  · rintro ⟨h1, h2, h3⟩
    rw [h1, h2, h3]
    rfl

theorem checkZone_cases (zone : Int) :
    checkZone zone = .ok () ∨ checkZone zone = .error .noDate ∨
      checkZone zone = .error .tooLarge := by
  unfold checkZone
  split_ifs
  · exact .inr (.inr rfl)
  · exact .inl rfl
  · exact .inr (.inl rfl)

/-- What a check may come to. That a date has no moment is seen later. -/
theorem Stamp.check_cases (s : Stamp) :
    (s.check = .ok () ∧ s.isValid = true) ∨ s.check = .error .noDate ∨
      s.check = .error .tooLarge := by
  have hzone : s.zone.forM checkZone = .ok () ∨ s.zone.forM checkZone = .error .noDate ∨
      s.zone.forM checkZone = .error .tooLarge := by
    cases s.zone with
    | none => exact .inl rfl
    | some zone => exact checkZone_cases zone
  unfold Stamp.check
  rcases hzone with hzone | hzone | hzone
  · rw [hzone]
    cases s.parts.all isSmall with
    | false => exact .inr (.inr rfl)
    | true =>
        cases s.isValid with
        | false => exact .inr (.inl rfl)
        | true => exact .inl ⟨rfl, rfl⟩
  · rw [hzone]
    exact .inr (.inl rfl)
  · rw [hzone]
    exact .inr (.inr rfl)

/-- What reading a date may come to. -/
theorem read_cases (cs : List Char) :
    (∃ s, read cs = .ok s ∧ s.isValid = true) ∨ read cs = .error .noDate ∨
      read cs = .error .tooLarge := by
  unfold read
  cases stamp? cs with
  | none => exact .inr (.inl rfl)
  | some s =>
      rcases s.check_cases with ⟨h, hvalid⟩ | h | h
      · exact .inl ⟨s, by simp only [h]; rfl, hvalid⟩
      · exact .inr (.inl (by simp only [h]; rfl))
      · exact .inr (.inr (by simp only [h]; rfl))

theorem isValid_of_read (h : read cs = .ok s) : s.isValid = true := by
  rcases read_cases cs with ⟨s', h', hvalid⟩ | h' | h'
  · obtain rfl := Except.ok.inj (h'.symm.trans h)
    exact hvalid
  · exact absurd (h'.symm.trans h) (by simp)
  · exact absurd (h'.symm.trans h) (by simp)

/-- A text is a date whose moment cannot be told: a part of it is too large to compute with, or it
is the first day of the calendar and has no zone. -/
inductive Untold (cs : List Char) : Outside → Prop
  | tooLarge (h : read cs = .error .tooLarge) : Untold cs .overflow
  | firstDay {s : Stamp} (h : read cs = .ok s) (hzone : s.zone = none)
    (hday : s.year = 1 ∧ s.month = 1 ∧ s.day = 1) : Untold cs .badValue

/-- Without a zone the first day of the calendar has no moment. -/
theorem seconds_firstDay (h : read cs = .ok s) (hzone : s.zone = none)
    (hday : s.year = 1 ∧ s.month = 1 ∧ s.day = 1) : s.seconds = .error .firstDay := by
  simp only [Stamp.seconds, hzone]
  exact if_pos ((Stamp.days_eq_iff (isValid_of_read h)).mpr hday)

/-- Every other date has one. -/
theorem exists_seconds (h : read cs = .ok s)
    (hlater : ¬ (s.zone = none ∧ s.year = 1 ∧ s.month = 1 ∧ s.day = 1)) :
    ∃ t, s.seconds = .ok t := by
  unfold Stamp.seconds
  cases hzone : s.zone with
  | some zone => exact ⟨_, rfl⟩
  | none =>
      refine ⟨_, if_neg fun hdays => hlater ⟨hzone, ?_⟩⟩
      exact (Stamp.days_eq_iff (isValid_of_read h)).mp hdays

end MailDate

/-! ## Header fields -/

namespace RetryAfter

variable {now : Float} {value : String} {headers : Headers} {r : Except Outside (Option Float)}

/-- What the value of a header field asks for: a number of seconds if it is one, and otherwise the
time up to a date, if it is one. -/
inductive Says (now : Float) (value : String) : Except Outside (Option Float) → Prop
  | seconds {x : Float} (h : Decimal.ofText? (trim value.toList) = some x) (hx : 0.0 ≤ x) :
    Says now value (.ok (some x))
  | noSeconds {x : Float} (h : Decimal.ofText? (trim value.toList) = some x) (hx : ¬ 0.0 ≤ x) :
    Says now value (.ok none)
  | date {s : MailDate.Stamp} {t : Int} (hx : Decimal.ofText? (trim value.toList) = none)
    (h : MailDate.read (trim value.toList) = .ok s) (ht : s.seconds = .ok t) :
    Says now value (.ok (some (atLeastZero ((Number.int t).toFloat - now))))
  | noDate (hx : Decimal.ofText? (trim value.toList) = none)
    (h : MailDate.read (trim value.toList) = .error .noDate) : Says now value (.ok none)
  | untold {o : Outside} (hx : Decimal.ofText? (trim value.toList) = none)
    (h : MailDate.Untold (trim value.toList) o) : Says now value (.error o)

theorem ofDate_of_error {cs : List Char} {f : MailDate.Fault} (h : MailDate.read cs = .error f) :
    ofDate now cs = match f with
      | .noDate => .ok none
      | .tooLarge => .error .overflow
      | .firstDay => .error .badValue := by
  cases f <;> simp [ofDate, MailDate.moment, h, Except.bind]

theorem ofDate_of_ok {cs : List Char} {s : MailDate.Stamp} (h : MailDate.read cs = .ok s) :
    ofDate now cs = match s.seconds with
      | .ok t => .ok (some (atLeastZero ((Number.int t).toFloat - now)))
      | .error .noDate => .ok none
      | .error .tooLarge => .error .overflow
      | .error .firstDay => .error .badValue := by
  cases hs : s.seconds with
  | ok t => simp [ofDate, MailDate.moment, h, hs, Except.bind]
  | error f => cases f <;> simp [ofDate, MailDate.moment, h, hs, Except.bind]

/-- A blank value is neither a number nor a date. -/
theorem ofValue_eq : ofValue now value =
    match Decimal.ofText? (trim value.toList) with
    | some x => .ok (nonNegative? x)
    | none => ofDate now (trim value.toList) := by
  unfold ofValue
  cases trim value.toList with
  | nil => rfl
  | cons c cs => rfl

theorem says_ofValue (now : Float) (value : String) : Says now value (ofValue now value) := by
  rw [ofValue_eq]
  cases htext : Decimal.ofText? (trim value.toList) with
  | some x =>
      show Says now value (.ok (nonNegative? x))
      unfold nonNegative?
      split_ifs with hx
      · exact .seconds htext hx
      · exact .noSeconds htext hx
  | none =>
      show Says now value (ofDate now (trim value.toList))
      rcases MailDate.read_cases (trim value.toList) with ⟨s, hread, -⟩ | hread | hread
      · rw [ofDate_of_ok hread]
        by_cases hfirst : s.zone = none ∧ s.year = 1 ∧ s.month = 1 ∧ s.day = 1
        · rw [MailDate.seconds_firstDay hread hfirst.1 hfirst.2]
          exact .untold htext (.firstDay hread hfirst.1 hfirst.2)
        · obtain ⟨t, ht⟩ := MailDate.exists_seconds hread hfirst
          rw [ht]
          exact .date htext hread ht
      · rw [ofDate_of_error hread]
        exact .noDate htext hread
      · rw [ofDate_of_error hread]
        exact .untold htext (.tooLarge hread)

/-- **The value of a header field is read as what it says.** -/
theorem ofValue_eq_iff : ofValue now value = r ↔ Says now value r := by
  constructor
  · rintro rfl
    exact says_ofValue now value
  · intro h
    rw [ofValue_eq]
    cases h with
    | seconds h hx => simp only [h, nonNegative?, if_pos hx]
    | noSeconds h hx => simp only [h, nonNegative?, if_neg hx]
    | date hx h ht => simp only [hx, ofDate_of_ok h, ht]
    | noDate hx h => simp only [hx, ofDate_of_error h]
    | untold hx h =>
        cases h with
        | tooLarge h => simp only [hx, ofDate_of_error h]
        | firstDay h hzone hday => simp only [hx, ofDate_of_ok h, MailDate.seconds_firstDay h hzone hday]

/-- A header field says how long to wait: the first of its name, in any letter case. -/
def SaysInHeaders (now : Float) (headers : Headers) (r : Except Outside (Option Float)) : Prop :=
  (∃ before name value after, headers = before ++ (name, value) :: after ∧
    lower name = "retry-after" ∧ (∀ f ∈ before, lower f.1 ≠ "retry-after") ∧ Says now value r) ∨
  (∀ f ∈ headers, lower f.1 ≠ "retry-after") ∧ r = .ok none

theorem header?_eq_some : header? headers = some value ↔
    ∃ before name after, headers = before ++ (name, value) :: after ∧
      lower name = "retry-after" ∧ ∀ f ∈ before, lower f.1 ≠ "retry-after" := by
  simp only [header?, Option.map_eq_some_iff, Prod.exists, List.find?_eq_some_iff_append]
  simp only [beq_iff_eq, Bool.not_eq_true', beq_eq_false_iff_ne]
  constructor
  · rintro ⟨name, value, ⟨hname, before, after, rfl, hbefore⟩, rfl⟩
    exact ⟨before, name, after, rfl, hname, hbefore⟩
  · rintro ⟨before, name, after, rfl, hname, hbefore⟩
    exact ⟨name, value, ⟨hname, before, after, rfl, hbefore⟩, rfl⟩

theorem header?_eq_none : header? headers = none ↔ ∀ f ∈ headers, lower f.1 ≠ "retry-after" := by
  simp [header?]

theorem ofHeaders_eq_iff : ofHeaders now headers = r ↔ SaysInHeaders now headers r := by
  unfold ofHeaders SaysInHeaders
  cases hheader : header? headers with
  | some value =>
      obtain ⟨before, name, after, hheaders, hname, hbefore⟩ := header?_eq_some.mp hheader
      rw [ofValue_eq_iff]
      constructor
      · exact fun h => .inl ⟨before, name, value, after, hheaders, hname, hbefore, h⟩
      · rintro (⟨before', name', value', after', hheaders', hname', hbefore', h⟩ | ⟨hnone, -⟩)
        · obtain rfl := Option.some.inj (hheader.symm.trans
            (header?_eq_some.mpr ⟨before', name', after', hheaders', hname', hbefore'⟩))
          exact h
        · exact absurd (hheader.symm.trans (header?_eq_none.mpr hnone)) (by simp)
  | none =>
      have hnone := header?_eq_none.mp hheader
      constructor
      · exact fun h => .inr ⟨hnone, h.symm⟩
      · rintro (⟨before, name, value, after, rfl, hname, -⟩ | ⟨-, h⟩)
        · exact absurd hname (hnone (name, value) (by simp))
        · exact h.symm

end RetryAfter

/-- What a failed answer asks for. -/
inductive Adapter.AsksFor (a : Adapter) (now : Float) (body : Json) (headers : Headers) :
    Except Outside (Option Float) → Prop
  | detail {x : Float} (ha : a.provider = .gemini) (h : RetryAfter.AsksInDetails body x) :
    a.AsksFor now body headers (.ok (some x))
  | header {r : Except Outside (Option Float)}
    (ha : a.provider = .gemini → ∀ x, ¬ RetryAfter.AsksInDetails body x)
    (h : RetryAfter.SaysInHeaders now headers r) : a.AsksFor now body headers r

/-- **What is read out of a failed answer is what it asks for.** -/
theorem Adapter.retryAfter_eq_iff {a : Adapter} {now : Float} {body : Json} {headers : Headers}
    {r : Except Outside (Option Float)} :
    a.retryAfter now body headers = r ↔ a.AsksFor now body headers r := by
  unfold Adapter.retryAfter
  cases ha : a.provider with
  | groq =>
      rw [RetryAfter.ofHeaders_eq_iff]
      constructor
      · exact fun h => .header (by simp [ha]) h
      · rintro (⟨ha', -⟩ | ⟨-, h⟩)
        · exact absurd (ha.symm.trans ha') (by simp)
        · exact h
  | gemini =>
      cases hdetails : RetryAfter.ofDetails? body with
      | some x =>
          have hasks := RetryAfter.ofDetails?_eq_some.mp hdetails
          constructor
          · rintro rfl
            exact .detail ha hasks
          · rintro (⟨-, h⟩ | ⟨hnone, -⟩)
            · obtain rfl := Option.some.inj (hdetails.symm.trans (RetryAfter.ofDetails?_eq_some.mpr h))
              rfl
            · exact absurd hasks (hnone ha x)
      | none =>
          have hnone (x : Float) : ¬ RetryAfter.AsksInDetails body x := fun h =>
            absurd (hdetails.symm.trans (RetryAfter.ofDetails?_eq_some.mpr h)) (by simp)
          dsimp only
          rw [RetryAfter.ofHeaders_eq_iff]
          constructor
          · exact fun h => .header (fun _ => hnone) h
          · rintro (⟨-, h⟩ | ⟨-, h⟩)
            · exact absurd h (hnone _)
            · exact h

/-- Reading a wait goes wrong in two ways only. -/
theorem Adapter.retryAfter_error {a : Adapter} {now : Float} {body : Json} {headers : Headers}
    {o : Outside} (h : a.retryAfter now body headers = .error o) :
    o = .overflow ∨ o = .badValue := by
  cases Adapter.retryAfter_eq_iff.mp h with
  | header _ h =>
      rcases h with ⟨_, _, _, _, -, -, -, hsays⟩ | ⟨-, hnone⟩
      · cases hsays with
        | untold _ huntold =>
            cases huntold with
            | tooLarge _ => exact .inl rfl
            | firstDay _ _ _ => exact .inr rfl
      · exact absurd hnone (by simp)

end ChatClient
