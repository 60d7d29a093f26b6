import CodeQuality.Proofs.Refusal
import CodeQuality.Run.Basic

/-!
# Refusals without a word

The message of an error is there to be read. The body of a refusal, where that has to stand for the
message, and the phrase of the status always have something to read in them. The messages that a
body brings itself are taken as they are: several of them have a separator between them, but a
single one may be nothing but blanks, and then the error has nothing to say either.

* `Text.Blank` — texts with nothing to read in them.
* `Refusal.Mute` — bodies that bring nothing but a blank message.
* `ApiError.readable_ofResponse` — the error for a refusal can be read unless its body is mute.
-/

namespace CodeQuality

open Http (Status)

namespace Text

/-- Is there nothing but blanks in a text? -/
def Blank (s : String) : Prop := ∀ c ∈ s.toList, isBlank c = true

instance (s : String) : Decidable (Blank s) :=
  List.decidableBAll (fun c => isBlank c = true) s.toList

/-- A text can be read if there is anything but a blank in it. -/
theorem not_blank_iff {s : String} : ¬ Blank s ↔ ∃ c ∈ s.toList, isBlank c = false := by
  simp [Blank]

/-- Texts with a mark between them can be read, unless there is one blank text alone. -/
theorem blank_intercalate_iff {separator : String} (hmark : ¬ Blank separator) {parts : List String}
    (hne : parts ≠ []) :
    Blank (separator.intercalate parts) ↔ ∃ part, parts = [part] ∧ Blank part := by
  match parts with
  | [] => exact absurd rfl hne
  | [part] => simp
  | part :: next :: parts =>
    have hread : ¬ Blank (separator.intercalate (part :: next :: parts)) := by
      intro h
      apply hmark
      intro c hc
      apply h
      rw [String.intercalate_cons_cons]
      simp [hc]
    exact iff_of_false hread (by simp)

end Text

namespace Refusal

open Text (Blank Trims)

variable {status : Status} {body s s' m : String} {messages messages' : List String}

/-- Does the body bring a single message, and nothing but blanks in it? -/
inductive Mute (body : String) : Prop where
  | listed {m : String} (hlists : Lists body [m]) (hblank : Blank m)
  | said {m : String} (hlists : ¬ ListsAny body) (hspoken : Says body m) (hblank : Blank m)

/-- A body lists its messages in one way. -/
theorem Lists.unique (h : Lists body messages) (h' : Lists body messages') :
    messages = messages' := by
  obtain ⟨ms, items, hread, herrors, hmessages⟩ := h
  obtain ⟨ms', items', hread', herrors', hmessages'⟩ := h'
  cases hread.symm.trans hread'
  cases herrors.symm.trans herrors'
  rw [messages_iff.mp hmessages, messages_iff.mp hmessages']

/-- A body has one message of its own. -/
theorem Says.unique (h : Says body s) (h' : Says body s') : s = s' := by
  obtain ⟨v, hread, hspoken⟩ := h
  obtain ⟨v', hread', hspoken'⟩ := h'
  cases hread.symm.trans hread'
  rw [Json.Value.hasText_iff] at hspoken hspoken'
  exact Option.some.inj (hspoken.symm.trans hspoken')

/-- A body without messages is not mute: it stands for the message itself. -/
theorem not_mute (hlists : ¬ ListsAny body) (hspoken : ∀ s, ¬ Says body s) : ¬ Mute body := by
  intro h
  cases h with
  | listed h => exact hlists ⟨_, List.cons_ne_nil _ _, h⟩
  | said _ h => exact hspoken _ h

theorem mute_iff_of_lists (hne : messages ≠ []) (hlists : Lists body messages) :
    Mute body ↔ ∃ m, messages = [m] ∧ Blank m := by
  constructor
  · intro h
    cases h with
    | listed h hblank => exact ⟨_, hlists.unique h, hblank⟩
    | said h => exact absurd ⟨messages, hne, hlists⟩ h
  · intro h
    obtain ⟨m, rfl, hblank⟩ := h
    exact .listed hlists hblank

theorem mute_iff_of_message (hlists : ¬ ListsAny body) (hspoken : Says body s) :
    Mute body ↔ Blank s := by
  constructor
  · intro h
    cases h with
    | listed h => exact absurd ⟨_, List.cons_ne_nil _ _, h⟩ hlists
    | said _ h hblank => exact hspoken.unique h ▸ hblank
  · intro hblank
    exact .said hlists hspoken hblank

/-- All phrases can be read. -/
theorem not_blank_of_reason? (h : status.reason? = some m) : ¬ Blank m := by
  have hall : ∀ reason ∈ Status.reasons, ¬ Blank reason.2 := by decide +kernel
  obtain ⟨front, later, hreasons, -⟩ := List.lookup_eq_some_iff.mp h
  apply hall (status.code, m)
  rw [hreasons]
  simp

/-- What trimming leaves begins with something to read. -/
theorem not_blank_of_trims {core : List Char} (htrims : Trims body.toList core) (hne : core ≠ []) :
    ¬ Blank (String.ofList core) := by
  obtain ⟨c, rest, rfl⟩ := List.exists_cons_of_ne_nil hne
  have hc := htrims.begins c rfl
  rw [Text.not_blank_iff]
  exact ⟨c, by simp, hc⟩

/-- There is nothing to read in the explanation of a refusal exactly if the body is mute. -/
theorem blank_iff_of_explains (h : Explains status body m) : Blank m ↔ Mute body := by
  cases h with
  | listed hne hlists =>
    rw [mute_iff_of_lists hne hlists]
    exact Text.blank_intercalate_iff (by decide) hne
  | said hlists hspoken => rw [mute_iff_of_message hlists hspoken]
  | quoted hlists hspoken htrims hne =>
    exact iff_of_false (not_blank_of_trims htrims hne) (not_mute hlists hspoken)
  | phrase hlists hspoken _ hreason =>
    exact iff_of_false (not_blank_of_reason? hreason) (not_mute hlists hspoken)
  | silent hlists hspoken => exact iff_of_false (by decide) (not_mute hlists hspoken)

end Refusal

namespace ApiError

open Refusal

/-- The message stands at the end of what is shown. -/
theorem chain_of_classified {status : Status} {m : String} {e : ApiError}
    (h : Classified status m e) : ∃ front, e.chain = front ++ m := by
  cases h <;> exact ⟨_, rfl⟩

/-- The one message that explains a refusal ends what is shown for it, and there is something to
read in it exactly if the body of the refusal is not mute. -/
theorem readable_ofResponse (status : Status) (body : String) :
    ∃ m, (∀ n, Explains status body n ↔ n = m) ∧ Classified status m (ofResponse status body) ∧
      (∃ front, (ofResponse status body).chain = front ++ m) ∧
      ((∃ c ∈ m.toList, Text.isBlank c = false) ↔ ¬ Mute body) := by
  have hkind := classified_ofResponse status body
  have hexplains : Explains status body (messageOf status body) := explains_iff.mpr rfl
  refine ⟨messageOf status body, fun n => explains_iff.trans eq_comm, hkind,
    chain_of_classified hkind, ?_⟩
  rw [← Text.not_blank_iff, blank_iff_of_explains hexplains]

/-- An empty message is taken as it is. -/
theorem not_readable_messageOf : ¬ ∀ (status : Status) (body : String), 100 ≤ status.code →
    status.code ≤ 999 → ∃ c ∈ (messageOf status body).toList, Text.isBlank c = false := by
  intro h
  have hempty : messageOf ⟨404⟩ "\x7b\"message\":\"\"\x7d" = "" := by decide +kernel
  obtain ⟨c, hc, -⟩ := h ⟨404⟩ "\x7b\"message\":\"\"\x7d" (by decide) (by decide)
  rw [hempty] at hc
  nomatch hc

end ApiError
end CodeQuality
