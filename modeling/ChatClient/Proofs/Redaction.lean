import Mathlib.Data.List.Infix
import Mathlib.Tactic.SplitIfs
import ChatClient.Classification

/-!
# What redaction hides

The message of a failed answer quotes the service, and what is quoted may have the key in it. The
key is replaced in what is quoted, after that has been cut to its first characters. So the message
does not depend on the key where the key is quoted whole, or not at all; where the cut goes through
it, a part of the key is no key, and stands in the message as it is.
-/

namespace ChatClient

/-! ## Pieces of a text -/

/-- Two pieces of a text that overlap have a character in common. -/
theorem exists_mem_of_overlap (x m y before k after : List Char)
    (h : x ++ m ++ y = before ++ k ++ after) (hm : m ≠ []) (hk : k ≠ [])
    (hstart : x.length < before.length + k.length) (hend : before.length < x.length + m.length) :
    ∃ c ∈ m, c ∈ k := by
  have hmpos := List.length_pos_of_ne_nil hm
  have hkpos := List.length_pos_of_ne_nil hk
  -- both are where the later of them starts
  obtain ⟨p, hp⟩ : ∃ p, p = max x.length before.length := ⟨_, rfl⟩
  have hpm : p - x.length < m.length := by omega
  have hpk : p - before.length < k.length := by omega
  have hget := congrArg (fun cs => cs[p]?) h
  simp only [List.append_assoc] at hget
  rw [List.getElem?_append_right (by omega), List.getElem?_append_left hpm,
    List.getElem?_append_right (by omega), List.getElem?_append_left hpk,
    List.getElem?_eq_getElem hpm, List.getElem?_eq_getElem hpk] at hget
  have hsame := Option.some.inj hget
  exact ⟨_, List.getElem_mem hpm, hsame ▸ List.getElem_mem hpk⟩

/-- A mark does not reach into what has no character of it. -/
theorem infix_or_infix {m k before after : List Char} (hne : k ≠ []) (hdisjoint : m.Disjoint k)
    (h : m <:+: before ++ k ++ after) : m <:+: before ∨ m <:+: after := by
  obtain ⟨x, y, hxy⟩ := h
  by_cases hm : m = []
  · exact .inl (hm ▸ List.nil_infix)
  by_cases hbefore : x.length + m.length ≤ before.length
  · left
    have hprefix : x ++ m <+: before :=
      List.prefix_of_prefix_length_le (show x ++ m <+: x ++ m ++ y from ⟨y, rfl⟩)
        ⟨k ++ after, by simp [hxy]⟩ (by simpa using hbefore)
    exact (List.suffix_append x m).isInfix.trans hprefix.isInfix
  by_cases hafter : before.length + k.length ≤ x.length
  · right
    have hlength := congrArg List.length hxy
    simp only [List.length_append] at hlength
    have hsuffix : m ++ y <:+ after :=
      List.suffix_of_suffix_length_le (show m ++ y <:+ x ++ m ++ y from ⟨x, by simp⟩)
        ⟨before ++ k, hxy.symm⟩
        (by simp only [List.length_append]; omega)
    exact (List.prefix_append m y).isInfix.trans hsuffix.isInfix
  · obtain ⟨c, hcm, hck⟩ :=
      exists_mem_of_overlap x m y before k after hxy hm hne (by omega) (by omega)
    exact absurd hck (hdisjoint hcm)

/-! ## Replacing a mark -/

namespace Text

variable {mark new before after cs : List Char}

/-- A mark occurs in a text between `before` and `after`, and nowhere else. -/
def OnlyBetween (mark before after : List Char) : Prop :=
  ∀ x y, before ++ mark ++ after = x ++ mark ++ y → x = before

theorem after?_eq_none (h : ¬ mark <+: cs) : after? mark cs = none := by
  rw [Option.eq_none_iff_forall_ne_some]
  exact fun rest hrest => h ⟨rest, (after?_eq_some_iff.mp hrest).symm⟩

/-- A text can be cut at a mark just if the mark is in it. -/
theorem cut?_isSome_iff : (cut? mark cs).isSome = true ↔ mark <:+: cs := by
  induction cs with
  | nil =>
      rw [cut?, Option.isSome_map, List.infix_nil, Option.isSome_iff_exists]
      simp only [after?_eq_some_iff, List.nil_eq_append_iff]
      simp
  | cons c cs ih =>
      rw [List.infix_cons_iff, ← ih, cut?]
      cases hstart : after? mark (c :: cs) with
      | some rest => exact iff_of_true rfl (.inl ⟨rest, (after?_eq_some_iff.mp hstart).symm⟩)
      | none =>
          have hnot : ¬ mark <+: c :: cs := by
            intro ⟨rest, hrest⟩
            exact absurd (hstart.symm.trans (after?_eq_some_iff.mpr hrest.symm)) (by simp)
          simp [hnot]

theorem occurs_iff {m s : String} : occurs m s = true ↔ m.toList <:+: s.toList := cut?_isSome_iff

theorem replaceFrom_skip (ds : List Char) (n : Nat) (h : cs.length = n) :
    replaceFrom mark new n (cs ++ ds) = replaceFrom mark new 0 ds := by
  induction cs generalizing n with
  | nil =>
      subst h
      rfl
  | cons c cs ih =>
      subst h
      exact ih cs.length rfl

/-- Without the mark there is nothing to replace. -/
theorem replaceFrom_of_absent (h : ¬ mark <:+: cs) : replaceFrom mark new 0 cs = cs := by
  induction cs with
  | nil => rfl
  | cons c cs ih =>
      have hstart : ¬ mark <+: c :: cs := fun hp => h hp.isInfix
      have hrest : ¬ mark <:+: cs := fun hi => h (hi.trans (List.suffix_cons c cs).isInfix)
      rw [replaceFrom, after?_eq_none hstart, ih hrest]

/-- After its only occurrence the mark does not occur. -/
theorem OnlyBetween.not_infix_after (h : OnlyBetween mark before after) (hmark : mark ≠ []) :
    ¬ mark <:+: after := by
  rintro ⟨x, y, hxy⟩
  have hlength := congrArg List.length (h (before ++ mark ++ x) y (by simp [← hxy]))
  simp only [List.length_append] at hlength
  exact hmark (List.eq_nil_of_length_eq_zero (by omega))

theorem OnlyBetween.tail {c : Char} (h : OnlyBetween mark (c :: before) after) :
    OnlyBetween mark before after := by
  intro x y hxy
  have := h (c :: x) y (by simpa using hxy)
  exact (List.cons.inj this).2

/-- The same holds where less follows. -/
theorem OnlyBetween.of_prefix {shorter : List Char} (h : OnlyBetween mark before after)
    (hshorter : shorter <+: after) : OnlyBetween mark before shorter := by
  obtain ⟨rest, rfl⟩ := hshorter
  intro x y hxy
  exact h x (y ++ rest) (by rw [← List.append_assoc, hxy, List.append_assoc])

/-- The mark that ends first is replaced, and the search goes on behind it. -/
theorem replaceFrom_first (h : OnlyBetween mark before []) (hmark : mark ≠ [])
    (rest : List Char) :
    replaceFrom mark new 0 (before ++ mark ++ rest) =
      before ++ new ++ replaceFrom mark new 0 rest := by
  induction before with
  | nil =>
      obtain ⟨m, ms, rfl⟩ := List.exists_cons_of_ne_nil hmark
      have hfound : after? (m :: ms) (m :: (ms ++ rest)) = some rest :=
        after?_eq_some_iff.mpr rfl
      rw [List.nil_append, List.cons_append, replaceFrom, hfound]
      simp only [List.nil_append]
      rw [replaceFrom_skip rest _ (by simp)]
  | cons c before ih =>
      have hstart : ¬ mark <+: c :: (before ++ mark ++ rest) := by
        intro hp
        -- what begins here ends no later than the mark that ends first
        obtain ⟨y, hy⟩ : mark <+: c :: before ++ mark :=
          List.prefix_of_prefix_length_le hp ⟨rest, by simp⟩
            (by simp only [List.length_append]; omega)
        exact absurd (h [] y (by simpa using hy.symm)) (by simp)
      simp only [List.cons_append]
      rw [replaceFrom, after?_eq_none hstart]
      exact congrArg (c :: ·) (ih h.tail)

/-- The only occurrence of the mark is replaced. -/
theorem replaceFrom_of_onlyBetween (h : OnlyBetween mark before after) (hmark : mark ≠ []) :
    replaceFrom mark new 0 (before ++ mark ++ after) = before ++ new ++ after := by
  rw [replaceFrom_first (h.of_prefix List.nil_prefix) hmark,
    replaceFrom_of_absent (h.not_infix_after hmark)]

/-- In a beginning that ends before the mark does there is no mark. -/
theorem OnlyBetween.absent {cs : List Char} (h : OnlyBetween mark before after)
    (hcs : cs <+: before ++ mark ++ after) (hlength : cs.length < before.length + mark.length) :
    ¬ mark <:+: cs := by
  rintro ⟨x, y, rfl⟩
  obtain ⟨rest, hrest⟩ := hcs
  obtain rfl := h x (y ++ rest) (by rw [← hrest, List.append_assoc])
  simp only [List.length_append] at hlength
  omega

end Text

/-! ## Texts with a key in them -/

/-- A text with a hole. -/
structure Template where
  before : String
  after : String

namespace Template

/-- The text with a key in the hole. -/
def fill (t : Template) (key : String) : String := t.before ++ key ++ t.after

@[simp] theorem toList_fill (t : Template) (key : String) :
    (t.fill key).toList = t.before.toList ++ key.toList ++ t.after.toList := by
  simp [fill]

/-- After `lead`, the key stands in the hole and nowhere else. -/
def Marks (t : Template) (lead key : String) : Prop :=
  Text.OnlyBetween key.toList (lead ++ t.before).toList t.after.toList

end Template

/-- A beginning of a text, after `lead` and with a key replaced. -/
def quoted (key lead : String) (n : Nat) (s : String) : String :=
  Text.replaceAll key Credential.redactedText (lead ++ String.ofList (s.toList.take n))

theorem replaceAll_of_absent {key : String} (new : String) {s : String}
    (h : ¬ key.toList <:+: s.toList) : Text.replaceAll key new s = s := by
  unfold Text.replaceAll
  split_ifs
  · rfl
  · rw [Text.replaceFrom_of_absent h, String.ofList_toList]

/-- A key that is quoted whole is replaced. -/
theorem quoted_whole {t : Template} {lead key : String} (h : t.Marks lead key) (hkey : key ≠ "")
    {n : Nat} (hn : t.before.length + key.length ≤ n) :
    quoted key lead n (t.fill key) = lead ++ t.before ++ Credential.redactedText ++
      String.ofList (t.after.toList.take (n - (t.before.length + key.length))) := by
  have htext : (lead ++ String.ofList ((t.fill key).toList.take n)).toList =
      (lead ++ t.before).toList ++ key.toList ++
        t.after.toList.take (n - (t.before.length + key.length)) := by
    have hlength : (t.before.toList ++ key.toList).length = t.before.length + key.length := by
      simp only [List.length_append, String.length_toList]
    simp only [String.toList_append, String.toList_ofList, Template.toList_fill]
    rw [List.take_append, hlength, List.take_of_length_le (by omega)]
    simp only [List.append_assoc]
  have hmark : key.toList ≠ [] := by simpa using hkey
  rw [quoted, Text.replaceAll, if_neg (by simpa using hkey), htext,
    Text.replaceFrom_of_onlyBetween (Text.OnlyBetween.of_prefix h (List.take_prefix _ _)) hmark]
  simp only [String.ofList_append, String.ofList_toList]

/-- A key that is not quoted whole is not replaced. -/
theorem quoted_cut {t : Template} {lead key : String} (h : t.Marks lead key) {n : Nat}
    (hn : n < t.before.length + key.length) :
    quoted key lead n (t.fill key) =
      lead ++ String.ofList (t.before.toList.take n) ++
        String.ofList (key.toList.take (n - t.before.length)) := by
  have hle : n ≤ (t.before.toList ++ key.toList).length := by
    simp only [List.length_append, String.length_toList]
    omega
  have htext : (t.fill key).toList.take n =
      t.before.toList.take n ++ key.toList.take (n - t.before.length) := by
    rw [Template.toList_fill, List.take_append_of_le_length hle, List.take_append,
      String.length_toList]
  have hnone : ¬ key.toList <:+: (lead ++ String.ofList ((t.fill key).toList.take n)).toList := by
    refine Text.OnlyBetween.absent h ?_ ?_
    · simp only [String.toList_append, String.toList_ofList, Template.toList_fill,
        List.append_assoc]
      exact (List.prefix_append_right_inj _).mpr (List.take_prefix _ _)
    · simp only [String.toList_append, String.toList_ofList, List.length_append,
        List.length_take, String.length_toList]
      omega
  rw [quoted, replaceAll_of_absent _ hnone, htext, String.ofList_append, String.append_assoc]

/-- **When a quotation hides a key.** Two keys of one length give the same quotation just where it
has them whole, or has the same part of them. -/
theorem quoted_eq_iff {t : Template} {lead k₁ k₂ : String} (h₁ : t.Marks lead k₁)
    (h₂ : t.Marks lead k₂) (hlength : k₁.length = k₂.length) (hkey : k₁ ≠ "") (n : Nat) :
    quoted k₁ lead n (t.fill k₁) = quoted k₂ lead n (t.fill k₂) ↔
      t.before.length + k₁.length ≤ n ∨
        k₁.toList.take (n - t.before.length) = k₂.toList.take (n - t.before.length) := by
  by_cases hn : t.before.length + k₁.length ≤ n
  · have hkey₂ : k₂ ≠ "" := by
      rintro rfl
      exact hkey (String.length_eq_zero_iff.mp hlength)
    rw [quoted_whole h₁ hkey hn, quoted_whole h₂ hkey₂ (hlength ▸ hn), hlength]
    exact iff_of_true rfl (Or.inl (hlength ▸ hn))
  · rw [quoted_cut h₁ (by omega), quoted_cut h₂ (by omega)]
    constructor
    · intro h
      have hlist := congrArg String.toList h
      simp only [String.toList_append, String.toList_ofList] at hlist
      exact Or.inr (List.append_cancel_left hlist)
    · rintro (hle | hsame)
      · exact absurd hle hn
      · rw [hsame]

/-! ## Messages of failed answers -/

/-- Two texts that are the same without either key, or the same but for the key in a hole, which
stands nowhere else, also not where `lead` comes before the text. -/
inductive Echoed (lead k₁ k₂ : String) : String → String → Prop
  | plain {s : String} (h₁ : ¬ k₁.toList <:+: (lead ++ s).toList)
    (h₂ : ¬ k₂.toList <:+: (lead ++ s).toList) : Echoed lead k₁ k₂ s s
  | filled (t : Template) (h₁ : t.Marks lead k₁) (h₂ : t.Marks lead k₂) :
    Echoed lead k₁ k₂ (t.fill k₁) (t.fill k₂)

/-- The same part of the key, all of it or none is among the first `n` characters. -/
def ShownAlike (k₁ k₂ : String) (n : Nat) (s₁ s₂ : String) : Prop :=
  ∀ t : Template, s₁ = t.fill k₁ → s₂ = t.fill k₂ →
    t.before.length + k₁.length ≤ n ∨
      k₁.toList.take (n - t.before.length) = k₂.toList.take (n - t.before.length)

/-- Of a text that is not longer all is among them. -/
theorem shownAlike_of_length_le {k₁ s₁ : String} {n : Nat} (h : s₁.length ≤ n) (k₂ s₂ : String) :
    ShownAlike k₁ k₂ n s₁ s₂ := by
  rintro t rfl -
  simp only [Template.fill, String.length_append] at h
  exact .inl (by omega)

theorem Template.infix_fill (t : Template) (lead key : String) :
    key.toList <:+: (lead ++ t.fill key).toList :=
  ⟨(lead ++ t.before).toList, t.after.toList, by simp⟩

theorem Template.Marks.key_ne_empty {t : Template} {lead key : String} (h : t.Marks lead key)
    (hlead : lead ≠ "") : key ≠ "" := by
  rintro rfl
  have hnil := h [] ((lead ++ t.before).toList ++ t.after.toList) (by simp)
  rw [String.toList_append, eq_comm, List.append_eq_nil_iff] at hnil
  exact hlead (String.toList_eq_nil_iff.mp hnil.1)

/-- The key of a hole is in it and nowhere else, so the hole is where the key is. -/
theorem Template.Marks.eq {t u : Template} {lead key : String} (h : t.Marks lead key)
    (hsame : t.fill key = u.fill key) : t = u := by
  have hlists := congrArg String.toList hsame
  simp only [Template.toList_fill] at hlists
  have hbefore := h (lead ++ u.before).toList u.after.toList
    (by simp only [String.toList_append, List.append_assoc] at hlists ⊢; rw [hlists])
  simp only [String.toList_append] at hbefore
  have hbefore := List.append_cancel_left hbefore
  rw [hbefore] at hlists
  have hafter := List.append_cancel_left hlists
  obtain ⟨before, after⟩ := t
  obtain ⟨before', after'⟩ := u
  obtain rfl : before' = before := String.toList_inj.mp hbefore
  obtain rfl : after = after' := String.toList_inj.mp hafter
  rfl

namespace Adapter

/-- An adapter with another key. -/
def withKey (a : Adapter) (key : String) : Adapter :=
  { a with credential := { a.credential with secret := key } }

/-- What the message of a failed answer says before it quotes the service. -/
def failureLead (a : Adapter) (status : Int) : String :=
  a.name ++ " request failed (status=" ++ toString status ++ ")"

/-- The message of a failed answer with some detail. -/
def failureMessage (a : Adapter) (status : Int) (detail : String) : String :=
  if detail.isEmpty then a.redact (a.failureLead status)
  else quoted a.credential.secret (a.failureLead status ++ ": ") maxDetail detail

/-- The message of a failed answer is a redacted text. -/
theorem exists_redact_eq_failureMessage (a : Adapter) (status : Int) (detail : String) :
    ∃ s, a.failureMessage status detail = a.redact s := by
  unfold failureMessage
  split_ifs
  · exact ⟨_, rfl⟩
  · exact ⟨_, rfl⟩

/-- Everything that is known of the failure of an answer: it has the wait that is read out of the
answer, and is there unless reading that goes wrong. -/
theorem serviceFailure_eq (a : Adapter) (now : Float) (status : Int) (headers : Headers)
    (bytes : List UInt8) :
    a.serviceFailure now status headers bytes =
      (a.retryAfter now (errorBody bytes) headers).map fun wait =>
        { message := a.failureMessage status (errorDetail (errorBody bytes))
          kind := a.provider.classify status (errorBody bytes)
          hint := authHint? a.provider status
            (a.failureMessage status (errorDetail (errorBody bytes)))
          statusCode := some status
          retryAfter := (wait.map Json.float).getD .null
          provider := some a.name
          ofRateLimit := a.provider.classify status (errorBody bytes) = .rateLimited } := by
  have hmessage (detail : String) : a.redact (a.name ++ " request failed (status=" ++
      toString status ++ ")" ++ (if detail.isEmpty then "" else
        ": " ++ String.ofList (detail.toList.take maxDetail))) = a.failureMessage status detail := by
    show a.redact (a.failureLead status ++ _) = _
    unfold failureMessage
    split_ifs
    · rw [String.append_empty]
    · rw [quoted, ← String.append_assoc]
      rfl
  unfold serviceFailure
  dsimp only
  rw [hmessage]

/-- An answer without success is no failure of a service where the wait that it asks for cannot be
told. -/
theorem serviceFailure_error_iff {a : Adapter} {now : Float} {status : Int} {headers : Headers}
    {bytes : List UInt8} {o : Outside} : a.serviceFailure now status headers bytes = .error o ↔
      a.retryAfter now (errorBody bytes) headers = .error o := by
  rw [serviceFailure_eq]
  cases a.retryAfter now (errorBody bytes) headers <;> simp [Except.map]

/-- The parts of the failure that an answer without success is. -/
theorem serviceFailure_ok {a : Adapter} {now : Float} {status : Int} {headers : Headers}
    {bytes : List UInt8} {s : ServiceFailure}
    (h : a.serviceFailure now status headers bytes = .ok s) :
    s.message = a.failureMessage status (errorDetail (errorBody bytes)) ∧
      s.kind = a.provider.classify status (errorBody bytes) ∧ s.statusCode = some status ∧
        ∃ wait, a.retryAfter now (errorBody bytes) headers = .ok wait ∧
          s.retryAfter = (wait.map Json.float).getD .null := by
  rw [serviceFailure_eq] at h
  cases hwait : a.retryAfter now (errorBody bytes) headers with
  | error o => simp [hwait, Except.map] at h
  | ok wait =>
      rw [hwait] at h
      obtain rfl := Except.ok.inj h
      exact ⟨rfl, rfl, rfl, wait, rfl, rfl⟩

/-- Without the key there is nothing to hide. -/
theorem failureMessage_of_absent (a : Adapter) (status : Int) {detail : String}
    (h : ¬ a.credential.secret.toList <:+: (a.failureLead status ++ ": " ++ detail).toList) :
    a.failureMessage status detail =
      if detail.isEmpty then a.failureLead status
      else a.failureLead status ++ ": " ++ String.ofList (detail.toList.take maxDetail) := by
  unfold failureMessage
  split_ifs
  · refine replaceAll_of_absent _ fun hlead => h (hlead.trans ?_)
    rw [String.append_assoc, String.toList_append]
    exact (List.prefix_append _ _).isInfix
  · refine replaceAll_of_absent _ fun hquoted => h (hquoted.trans ?_)
    simp only [String.toList_append, String.toList_ofList]
    exact ((List.prefix_append_right_inj _).mpr (List.take_prefix _ _)).isInfix

theorem failureMessage_fill (a : Adapter) (status : Int) {t : Template} {key : String}
    (hkey : key ≠ "") :
    (a.withKey key).failureMessage status (t.fill key) =
      quoted key (a.failureLead status ++ ": ") maxDetail (t.fill key) := by
  have hfill : (t.fill key).isEmpty = false := by
    rw [← Bool.not_eq_true, String.isEmpty_iff]
    intro hnil
    have hlist := congrArg String.toList hnil
    simp only [Template.toList_fill, String.toList_empty, List.append_eq_nil_iff] at hlist
    exact hkey (String.toList_eq_nil_iff.mp hlist.1.2)
  rw [failureMessage, if_neg (by simp [hfill])]
  rfl

/-- **When the message of a failed answer hides the key.** -/
theorem failureMessage_eq_iff (a : Adapter) (status : Int) {k₁ k₂ d₁ d₂ : String}
    (h : Echoed (a.failureLead status ++ ": ") k₁ k₂ d₁ d₂) (hlength : k₁.length = k₂.length) :
    (a.withKey k₁).failureMessage status d₁ = (a.withKey k₂).failureMessage status d₂ ↔
      ShownAlike k₁ k₂ maxDetail d₁ d₂ := by
  have hlead : a.failureLead status ++ ": " ≠ "" := by simp
  cases h with
  | plain h₁ h₂ =>
      refine iff_of_true ?_ fun t ht _ => absurd (ht ▸ t.infix_fill _ k₁) h₁
      rw [failureMessage_of_absent (a.withKey k₁) status h₁,
        failureMessage_of_absent (a.withKey k₂) status h₂]
      rfl
  | filled t h₁ h₂ =>
      rw [a.failureMessage_fill status (h₁.key_ne_empty hlead),
        a.failureMessage_fill status (h₂.key_ne_empty hlead),
        quoted_eq_iff h₁ h₂ hlength (h₁.key_ne_empty hlead)]
      constructor
      · intro hshown u hu _
        rwa [← h₁.eq hu]
      · exact fun hshown => hshown t rfl rfl

end Adapter

end ChatClient
