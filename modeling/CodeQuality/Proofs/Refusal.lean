import CodeQuality.Journal
import CodeQuality.Proofs.Url.Place

/-!
# What a refusal becomes

The body of a refusal is any text. An object in JSON that lists errors explains the refusal with
their messages, and one with a message of its own with that; any other body explains it as a whole,
without the blanks around it, and one that is nothing but blanks leaves it to the phrase of the
status. The error keeps the status, and its kind and the event that is logged for it follow from the
code alone.

* `Text.trims_iff` — what trimming leaves of a text.
* `Refusal.explains_iff` — a refusal is explained with exactly one message.
* `ApiError.classified_ofResponse` — the kind of the error.
* `ApiError.explained_ofResponse` — the error for a refusal.
-/

namespace CodeQuality

open Json (Value member?)
open Http (Status)

namespace Text

/-- `core` is `cs` without the blanks at both ends. -/
structure Trims (cs core : List Char) : Prop where
  around : ∃ lead trail, cs = lead ++ core ++ trail ∧
    (∀ c ∈ lead, isBlank c = true) ∧ ∀ c ∈ trail, isBlank c = true
  begins : ∀ c ∈ core.head?, isBlank c = false
  ends : ∀ c ∈ core.getLast?, isBlank c = false

variable {p : Char → Bool} {cs core : List Char}

/-- What is left of a text does not end with what may be dropped. -/
theorem getLast?_dropEndWhile {c : Char} (h : c ∈ (dropEndWhile p cs).getLast?) : p c = false := by
  induction cs with
  | nil => nomatch h
  | cons d cs ih =>
    rw [dropEndWhile_cons] at h
    split at h
    · nomatch h
    · next hkept =>
      cases hcs : dropEndWhile p cs with
      | nil =>
        rw [hcs] at h hkept
        obtain rfl : d = c := Option.some.inj h
        simpa using hkept
      | cons x xs =>
        rw [hcs, List.getLast?_cons_cons] at h
        exact ih (hcs ▸ h)

/-- What is left of a text at its front does not begin with what may be dropped. -/
theorem head?_dropWhile {c : Char} (h : c ∈ (cs.dropWhile p).head?) : p c = false := by
  have hhead := List.head?_dropWhile_not p cs
  rw [Option.mem_def.mp h] at hhead
  exact hhead

/-- A text whose end is to be kept is kept. -/
theorem dropEndWhile_eq_of_getLast? {rest : List Char} (hends : ∀ c ∈ core.getLast?, p c = false)
    (hrest : ∀ c ∈ rest, p c = true) : dropEndWhile p (core ++ rest) = core := by
  rcases List.eq_nil_or_concat core with rfl | ⟨front, c, hcore⟩
  · exact dropEndWhile_eq_nil_iff.mpr hrest
  · obtain rfl : core = front ++ [c] := hcore.trans List.concat_eq_append
    have hc := hends c (by simp)
    rw [List.append_assoc, List.singleton_append, dropEndWhile_append_cons hc,
      dropEndWhile_eq_nil_iff.mpr hrest]

/-- What trimming leaves of a text begins and ends with no blank, and only blanks are missing. -/
theorem trims_iff {s : String} : Trims s.toList core ↔ trim s = String.ofList core := by
  constructor
  · rintro ⟨⟨lead, trail, hs, hlead, htrail⟩, hbegins, hends⟩
    refine congrArg String.ofList ?_
    cases core with
    | nil =>
      have hfront : dropBlanks s.toList = [] := by
        rw [hs, List.append_nil, ← List.append_nil (lead ++ trail)]
        exact dropWhile_append (List.forall_mem_append.mpr ⟨hlead, htrail⟩) nofun
      rw [hfront]
      rfl
    | cons c core =>
      have hfront : dropBlanks s.toList = (c :: core) ++ trail := by
        rw [hs, List.append_assoc]
        exact dropWhile_append hlead hbegins
      rw [hfront]
      exact dropEndWhile_eq_of_getLast? hends htrail
  · intro h
    obtain rfl := String.ofList_inj.mp h
    obtain ⟨trail, hcut, htrail⟩ := exists_dropEndWhile_append isBlank (dropBlanks s.toList)
    refine ⟨⟨s.toList.takeWhile isBlank, trail, ?_, fun c hc => ?_, htrail⟩, ?_, ?_⟩
    · rw [List.append_assoc, ← hcut]
      exact List.takeWhile_append_dropWhile.symm
    · exact List.all_eq_true.mp List.all_takeWhile c hc
    · intro c hc
      have hmem : c ∈ (dropBlanks s.toList).head? → isBlank c = false := head?_dropWhile
      refine hmem ?_
      rw [hcut, List.head?_append, Option.mem_def.mp hc]
      rfl
    · exact fun c hc => getLast?_dropEndWhile hc

end Text

namespace Json.Value

variable {v w : Value} {name s : String} {items : List Value}

/-- `v` is an object whose member `name` is the text `s`. -/
def HasText (v : Value) (name s : String) : Prop :=
  ∃ ms, v = .object ms ∧ member? name ms = some (.text s)

theorem asText?_eq_some_iff : v.asText? = some s ↔ v = .text s := by
  cases v <;> simp [asText?]

theorem asList?_eq_some_iff : v.asList? = some items ↔ v = .list items := by
  cases v <;> simp [asList?]

theorem get?_eq_some_iff : v.get? name = some w ↔
    ∃ ms, v = .object ms ∧ member? name ms = some w := by
  cases v <;> simp [get?]

theorem hasText_iff : v.HasText name s ↔ (v.get? name).bind asText? = some s := by
  simp only [Option.bind_eq_some_iff, asText?_eq_some_iff, exists_eq_right, get?_eq_some_iff]
  rfl

end Json.Value

namespace Refusal

/-- The messages of the elements that have one, in their order. -/
inductive Messages : List Value → List String → Prop where
  | nil : Messages [] []
  | message {v : Value} {s : String} {items : List Value} {messages : List String} :
    v.HasText "msg" s → Messages items messages → Messages (v :: items) (s :: messages)
  | other {v : Value} {items : List Value} {messages : List String} :
    (∀ s, ¬ v.HasText "msg" s) → Messages items messages → Messages (v :: items) messages

/-- The body is an object whose `errors` are a list with these messages. -/
def Lists (body : String) (messages : List String) : Prop :=
  ∃ ms items, Value.read body = .ok (.object ms) ∧ member? "errors" ms = some (.list items) ∧
    Messages items messages

/-- The body lists one message at least. -/
def ListsAny (body : String) : Prop := ∃ messages, messages ≠ [] ∧ Lists body messages

/-- The body is an object with a message of its own. -/
def Says (body s : String) : Prop := ∃ v, Value.read body = .ok v ∧ v.HasText "message" s

/-- What a refusal is explained with. -/
inductive Explains (status : Status) (body : String) : String → Prop where
  | listed {messages : List String} (hne : messages ≠ []) (hlists : Lists body messages) :
    Explains status body ("; ".intercalate messages)
  | said {s : String} (hlists : ¬ ListsAny body) (hspoken : Says body s) : Explains status body s
  | quoted {core : List Char} (hlists : ¬ ListsAny body) (hspoken : ∀ s, ¬ Says body s)
    (htrims : Text.Trims body.toList core) (hne : core ≠ []) :
    Explains status body (String.ofList core)
  | phrase {m : String} (hlists : ¬ ListsAny body) (hspoken : ∀ s, ¬ Says body s)
    (hblank : ∀ c ∈ body.toList, Text.isBlank c = true) (hreason : status.reason? = some m) :
    Explains status body m
  | silent (hlists : ¬ ListsAny body) (hspoken : ∀ s, ¬ Says body s)
    (hblank : ∀ c ∈ body.toList, Text.isBlank c = true) (hreason : status.reason? = none) :
    Explains status body "no response body"

section Explanation

variable {v : Value} {s body m : String} {messages : List String} {items : List Value}
  {status : Status}

theorem messages_iff :
    Messages items messages ↔
      messages = items.filterMap fun e => (e.get? "msg").bind Value.asText? := by
  induction items generalizing messages with
  | nil =>
    refine ⟨fun h => ?_, fun h => h ▸ .nil⟩
    cases h
    rfl
  | cons v items ih =>
    rw [List.filterMap_cons]
    constructor
    · intro h
      cases h with
      | message hv h => rw [Value.hasText_iff.mp hv, ih.mp h]
      | other hv h =>
        have hnone := Option.eq_none_iff_forall_ne_some.mpr fun s hs =>
          hv s (Value.hasText_iff.mpr hs)
        rw [hnone, ih.mp h]
    · intro h
      cases hv : (v.get? "msg").bind Value.asText? with
      | none =>
        rw [hv] at h
        exact .other (fun s hs => nomatch hv.symm.trans (Value.hasText_iff.mp hs)) (ih.mpr h)
      | some s =>
        rw [hv] at h
        exact h ▸ .message (Value.hasText_iff.mpr hv) (ih.mpr rfl)

/-- A body in JSON lists what is found in it, if that is anything. -/
theorem lists_iff (hv : Value.read body = .ok v) (hne : messages ≠ []) :
    Lists body messages ↔ ApiError.listed v = messages := by
  have hlisted : ApiError.listed v = messages ↔
      ∃ items, (v.get? "errors").bind Value.asList? = some items ∧ Messages items messages := by
    unfold ApiError.listed
    cases (v.get? "errors").bind Value.asList? with
    | none => simpa using hne.symm
    | some items => simpa [messages_iff] using eq_comm
  simp only [hlisted, Option.bind_eq_some_iff, Value.asList?_eq_some_iff, exists_eq_right,
    Value.get?_eq_some_iff]
  constructor
  · rintro ⟨ms, items, hread, herrors, hmessages⟩
    exact ⟨items, ⟨ms, Except.ok.inj (hv.symm.trans hread), herrors⟩, hmessages⟩
  · rintro ⟨items, ⟨ms, rfl, herrors⟩, hmessages⟩
    exact ⟨ms, items, hv, herrors, hmessages⟩

theorem listsAny_iff (hv : Value.read body = .ok v) : ListsAny body ↔ ApiError.listed v ≠ [] := by
  constructor
  · rintro ⟨messages, hne, hlists⟩
    exact (lists_iff hv hne).mp hlists ▸ hne
  · exact fun hne => ⟨_, hne, (lists_iff hv hne).mpr rfl⟩

theorem says_iff (hv : Value.read body = .ok v) :
    Says body s ↔ (v.get? "message").bind Value.asText? = some s := by
  rw [← Value.hasText_iff]
  constructor
  · rintro ⟨w, hw, hspoken⟩
    exact Except.ok.inj (hv.symm.trans hw) ▸ hspoken
  · exact fun hspoken => ⟨v, hv, hspoken⟩

/-- What a body says is what it lists, or else its own message. -/
theorem explanation?_eq_some_iff :
    ApiError.explanation? body = some m ↔
      (∃ messages, messages ≠ [] ∧ Lists body messages ∧ "; ".intercalate messages = m) ∨
        ¬ ListsAny body ∧ Says body m := by
  unfold ApiError.explanation?
  cases hv : Value.read body with
  | error failure =>
    have hlists : ∀ messages, ¬ Lists body messages :=
      fun _ ⟨_, _, hread, _⟩ => nomatch hv.symm.trans hread
    have hspoken : ¬ Says body m := fun ⟨_, hread, _⟩ => nomatch hv.symm.trans hread
    simp [hlists, hspoken]
  | ok v =>
    rw [listsAny_iff hv, says_iff hv]
    have hlists : (∃ messages, messages ≠ [] ∧ Lists body messages ∧
        "; ".intercalate messages = m) ↔
        ApiError.listed v ≠ [] ∧ "; ".intercalate (ApiError.listed v) = m := by
      constructor
      · rintro ⟨messages, hne, hlists, rfl⟩
        obtain rfl := (lists_iff hv hne).mp hlists
        exact ⟨hne, rfl⟩
      · exact fun ⟨hne, hm⟩ => ⟨_, hne, (lists_iff hv hne).mpr rfl, hm⟩
    rw [hlists, Classical.not_not]
    show ApiError.said v = some m ↔ _
    unfold ApiError.said
    cases ApiError.listed v with
    | nil => simp
    | cons first more => simp

theorem explanation?_eq_none_iff :
    ApiError.explanation? body = none ↔ ¬ ListsAny body ∧ ∀ s, ¬ Says body s := by
  simp only [Option.eq_none_iff_forall_ne_some, ne_eq, explanation?_eq_some_iff, not_or, not_and,
    not_exists]
  constructor
  · intro h
    have hlists : ¬ ListsAny body := fun ⟨messages, hne, hlists⟩ => (h _).1 messages hne hlists rfl
    exact ⟨hlists, fun s => (h s).2 hlists⟩
  · rintro ⟨hlists, hspoken⟩ m
    exact ⟨fun messages hne hmessages => absurd ⟨messages, hne, hmessages⟩ hlists,
      fun _ => hspoken m⟩

theorem isEmpty_trim_iff : (Text.trim body).isEmpty = true ↔
    ∀ c ∈ body.toList, Text.isBlank c = true := by
  have hnil : Text.Trims body.toList [] ↔ ∀ c ∈ body.toList, Text.isBlank c = true := by
    constructor
    · rintro ⟨⟨lead, trail, hbody, hlead, htrail⟩, -, -⟩
      rw [hbody, List.append_nil]
      exact List.forall_mem_append.mpr ⟨hlead, htrail⟩
    · exact fun h => ⟨⟨body.toList, [], by simp, h, nofun⟩, nofun, nofun⟩
  rw [← hnil, Text.trims_iff, String.isEmpty_iff]

/-- A body that says something explains the refusal with that. -/
theorem explains_iff_of_some {said : String} (hbody : ApiError.explanation? body = some said) :
    Explains status body m ↔ said = m := by
  constructor
  · intro h
    have hexplained : ApiError.explanation? body = some m := by
      cases h with
      | listed hne hlists => exact explanation?_eq_some_iff.mpr (.inl ⟨_, hne, hlists, rfl⟩)
      | said hlists hspoken => exact explanation?_eq_some_iff.mpr (.inr ⟨hlists, hspoken⟩)
      | quoted hlists hspoken | phrase hlists hspoken | silent hlists hspoken =>
        exact nomatch hbody.symm.trans (explanation?_eq_none_iff.mpr ⟨hlists, hspoken⟩)
    exact Option.some.inj (hbody.symm.trans hexplained)
  · rintro rfl
    rcases explanation?_eq_some_iff.mp hbody with ⟨_, hne, hlists, rfl⟩ | ⟨hlists, hspoken⟩
    · exact .listed hne hlists
    · exact .said hlists hspoken

/-- Any other body explains it as a whole, unless it is nothing but blanks. -/
theorem explains_iff_of_none (hbody : ApiError.explanation? body = none) :
    Explains status body m ↔ (if (Text.trim body).isEmpty then
      status.reason?.getD "no response body" else Text.trim body) = m := by
  obtain ⟨hlists, hspoken⟩ := explanation?_eq_none_iff.mp hbody
  constructor
  · intro h
    cases h with
    | listed hne h => exact absurd ⟨_, hne, h⟩ hlists
    | said _ h => exact absurd h (hspoken _)
    | quoted _ _ htrims hne =>
      have htrim := Text.trims_iff.mp htrims
      have hkept : ¬ (Text.trim body).isEmpty = true := by
        rw [htrim, String.isEmpty_iff]
        simpa using hne
      rw [if_neg hkept, htrim]
    | phrase _ _ hblank hreason | silent _ _ hblank hreason =>
      rw [if_pos (isEmpty_trim_iff.mpr hblank), hreason]
      rfl
  · rintro rfl
    split
    · next hempty =>
      have hblank := isEmpty_trim_iff.mp hempty
      cases hreason : status.reason? with
      | some phrase => exact .phrase hlists hspoken hblank hreason
      | none => exact .silent hlists hspoken hblank hreason
    · next hempty =>
      have hne : (Text.trim body).toList ≠ [] := by
        rw [String.isEmpty_iff] at hempty
        simpa using hempty
      have htrims : Text.Trims body.toList (Text.trim body).toList :=
        Text.trims_iff.mpr String.ofList_toList.symm
      exact String.ofList_toList (s := Text.trim body) ▸ .quoted hlists hspoken htrims hne

/-- A refusal is explained with exactly one message. -/
theorem explains_iff : Explains status body m ↔ ApiError.messageOf status body = m := by
  unfold ApiError.messageOf
  cases hbody : ApiError.explanation? body with
  | some said => exact explains_iff_of_some hbody
  | none => exact explains_iff_of_none hbody

end Explanation

/-- The kind of the error for a refusal that is explained with `m`. -/
inductive Classified (status : Status) (m : String) : ApiError → Prop where
  | badRequest (h : status.code = 400) : Classified status m (.badRequest m)
  | unauthorized (h : status.code = 401) : Classified status m (.unauthorized m)
  | forbidden (h : status.code = 403) : Classified status m (.forbidden m)
  | notFound (h : status.code = 404) : Classified status m (.notFound m)
  | server (h : 500 ≤ status.code ∧ status.code ≤ 599) : Classified status m (.server status m)
  | http (h : status.code ∉ [400, 401, 403, 404])
    (hserver : ¬ (500 ≤ status.code ∧ status.code ≤ 599)) : Classified status m (.http status m)

end Refusal

open Refusal

/-- What holds of the error for a refusal with this status and body. -/
structure ApiError.Explained (given : Status) (body : String) (e : ApiError) : Prop where
  /-- there is one message, which stands at the end of what is displayed, and the code gives the
  kind -/
  message : ∃ m, (∀ n, Explains given body n ↔ n = m) ∧ Classified given m e ∧
    ∃ front, e.message = front ++ m
  status : e.status? = some given
  /-- one event is logged: a warning with the status for a refusal of what the client asked -/
  logged : ∃ event : Event,
    (∀ j : Journal, j.report .logger e = { j with log := j.log ++ [event] }) ∧
      if 400 ≤ given.code ∧ given.code ≤ 499 then
        event.severity = .warning ∧ event.details = [("status", given.text)]
      else event.severity = .error ∧ event.details = []

namespace ApiError

variable {status : Status} {m : String} {e : ApiError}

theorem classified_ofResponse (status : Status) (body : String) :
    Classified status (messageOf status body) (ofResponse status body) := by
  unfold ofResponse
  split
  · next h => exact .badRequest h
  · next h => exact .unauthorized h
  · next h => exact .forbidden h
  · next h => exact .notFound h
  · next h400 h401 h403 h404 =>
    have hserver : status.isServerError = true ↔ 500 ≤ status.code ∧ status.code ≤ 599 := by
      simp [Status.isServerError]
      omega
    split
    · next h => exact .server (hserver.mp h)
    · next h =>
      refine .http ?_ (mt hserver.mpr h)
      simp only [List.mem_cons, List.not_mem_nil, or_false, not_or]
      exact ⟨h400, h401, h403, h404⟩

/-- The kind of the error tells the status again. -/
theorem status?_of_classified (h : Classified status m e) : e.status? = some status := by
  have hstatus {code : Nat} (hcode : status.code = code) : some ⟨code⟩ = some status :=
    hcode ▸ rfl
  cases h with
  | badRequest h | unauthorized h | forbidden h | notFound h => exact hstatus h
  | server | http => rfl

/-- The message stands at the end of what is displayed. -/
theorem message_of_classified (h : Classified status m e) : ∃ front, e.message = front ++ m := by
  cases h <;> exact ⟨_, rfl⟩

/-- What is logged for an error with a status follows from its code. -/
theorem logged_of_status? (h : e.status? = some status) :
    if 400 ≤ status.code ∧ status.code ≤ 499 then
      (Event.ofError e).severity = .warning ∧ (Event.ofError e).details = [("status", status.text)]
    else (Event.ofError e).severity = .error ∧ (Event.ofError e).details = [] := by
  have hclient : status.isClientError = true ↔ 400 ≤ status.code ∧ status.code ≤ 499 := by
    simp [Status.isClientError]
    omega
  simp only [Event.ofError, h, ← hclient]
  split <;> exact ⟨rfl, rfl⟩

/-- Whatever the status and the body of a refusal are, the error has the kind that the code gives,
keeps the status, ends with the one message that explains the refusal, and is logged as one event,
which is a warning with the status exactly if the code is from 400 to 499. -/
theorem explained_ofResponse (status : Status) (body : String) :
    Explained status body (ofResponse status body) := by
  have hkind := classified_ofResponse status body
  have hstatus := status?_of_classified hkind
  exact {
    message := ⟨messageOf status body, fun _ => explains_iff.trans eq_comm, hkind,
      message_of_classified hkind⟩
    status := hstatus
    logged := ⟨.ofError (ofResponse status body), fun _ => rfl, logged_of_status? hstatus⟩ }

end ApiError
end CodeQuality
