import CodeQuality.Proofs.Refusal
import CodeQuality.Settings
import Mathlib.Data.List.Basic

/-!
# Servers in their normal form

A server that is put in loses the blanks around it and the slashes at its end, and gets a scheme if
it has none. This is done once: a blank that stands before the slashes stays, and so do the slashes
of the scheme if there is nothing else. So the result has a scheme and no blank in front, but it is
in the normal form, which is the one that is left as it is, only if what was put in is tidy.

* `Server.Canonical` — the normal form.
* `Server.normalize_eq_self_iff` — the servers that are left as they are.
* `Server.canonical_normalize_iff` — the texts of which a normal form is made.
-/

namespace CodeQuality

namespace Text

variable {s front : String}

theorem startsWith_iff : startsWith front s = true ↔ front.toList <+: s.toList := by
  rw [startsWith, List.isPrefixOf_iff_prefix]

/-- A text that does not end with what may be dropped is kept. -/
theorem dropEndWhile_eq_self {p : Char → Bool} {cs : List Char}
    (h : ∀ c ∈ cs.getLast?, p c = false) : dropEndWhile p cs = cs := by
  have hkept := dropEndWhile_eq_of_getLast? h (List.forall_mem_nil _)
  rwa [List.append_nil] at hkept

/-- Trimming leaves a text that neither begins nor ends with a blank. -/
theorem trim_eq_self_iff : trim s = s ↔ (∀ c ∈ s.toList.head?, isBlank c = false) ∧
    ∀ c ∈ s.toList.getLast?, isBlank c = false := by
  have htrims : Trims s.toList s.toList ↔ trim s = s := by
    rw [trims_iff, String.ofList_toList]
  rw [← htrims]
  exact ⟨fun h => ⟨h.begins, h.ends⟩, fun h => ⟨⟨[], [], by simp, nofun, nofun⟩, h.1, h.2⟩⟩

end Text

namespace Server

open Text (dropEndWhile isBlank startsWith)

variable {x s : String}

/-- A server in the form in which it is to be kept. -/
structure Canonical (s : String) : Prop where
  scheme : startsWith "https://" s = true ∨ startsWith "http://" s = true
  trimmed : Text.trim s = s
  slash : s.toList.getLast? ≠ some '/'

/-- Is there a server in `x`, and nothing around it but blanks and, before those at the end,
slashes? -/
def Tidy (x : String) : Prop :=
  ∃ lead server slashes trail, x.toList = lead ++ (server ++ slashes) ++ trail ∧
    (∀ c ∈ lead, isBlank c = true) ∧ (∀ c ∈ slashes, c = '/') ∧ (∀ c ∈ trail, isBlank c = true) ∧
    server ≠ [] ∧ (∀ c ∈ server.head?, isBlank c = false) ∧
    ∀ c ∈ server.getLast?, isBlank c = false ∧ c ≠ '/'

/-- What is left of a server without blanks around it and slashes at its end. -/
def bare (x : String) : List Char := dropEndWhile (· = '/') (Text.trim x).toList

theorem normalize_eq (x : String) : normalizeServer x =
    if startsWith "https://" (String.ofList (bare x)) ||
        startsWith "http://" (String.ofList (bare x)) then String.ofList (bare x)
    else "https://" ++ String.ofList (bare x) := rfl

/-- A server always gets a scheme. -/
theorem scheme_normalize (x : String) :
    startsWith "https://" (normalizeServer x) = true ∨
      startsWith "http://" (normalizeServer x) = true := by
  rw [normalize_eq]
  split
  · next h => simpa using h
  · exact .inl (Text.startsWith_iff.mpr ⟨_, String.toList_append.symm⟩)

/-- In front of a scheme there is no blank. -/
theorem begins_of_scheme (h : startsWith "https://" s = true ∨ startsWith "http://" s = true) :
    ∀ c ∈ s.toList.head?, isBlank c = false := by
  intro c hc
  rcases h with h | h <;>
  · obtain ⟨rest, hrest⟩ := Text.startsWith_iff.mp h
    rw [← hrest] at hc
    cases hc
    decide

theorem getLast?_bare (x : String) : (bare x).getLast? ≠ some '/' := by
  intro h
  nomatch Text.getLast?_dropEndWhile h

/-- The end of a normal form is that of what is left of the server, if anything is left. -/
theorem canonical_normalize_iff_bare : Canonical (normalizeServer x) ↔
    bare x ≠ [] ∧ ∀ c ∈ (bare x).getLast?, isBlank c = false := by
  have hscheme := scheme_normalize x
  have hbegins := begins_of_scheme hscheme
  have hlast : bare x ≠ [] →
      (normalizeServer x).toList.getLast? = (bare x).getLast? := by
    intro hne
    rw [normalize_eq]
    split
    · rw [String.toList_ofList]
    · rw [String.toList_append, List.getLast?_append_of_ne_nil _ (by simpa using hne),
        String.toList_ofList]
  constructor
  · intro h
    have hne : bare x ≠ [] := by
      intro hnil
      have hbare : normalizeServer x = "https://" := by
        rw [normalize_eq, hnil]
        rfl
      exact h.slash (by rw [hbare]; decide)
    have hends := (Text.trim_eq_self_iff.mp h.trimmed).2
    rw [hlast hne] at hends
    exact ⟨hne, hends⟩
  · rintro ⟨hne, hends⟩
    refine ⟨hscheme, Text.trim_eq_self_iff.mpr ⟨hbegins, ?_⟩, ?_⟩
    · rwa [hlast hne]
    · rw [hlast hne]
      exact getLast?_bare x

/-- Around what is left of a server there were blanks, and slashes before those at its end. -/
theorem bare_spec (x : String) :
    ∃ lead slashes trail, x.toList = lead ++ (bare x ++ slashes) ++ trail ∧
      (∀ c ∈ lead, isBlank c = true) ∧ (∀ c ∈ slashes, c = '/') ∧ (∀ c ∈ trail, isBlank c = true) ∧
      (∀ c ∈ (bare x ++ slashes).head?, isBlank c = false) ∧
      ∀ c ∈ (bare x ++ slashes).getLast?, isBlank c = false := by
  have htrim : Text.Trims x.toList (Text.trim x).toList :=
    Text.trims_iff.mpr (String.ofList_toList).symm
  obtain ⟨lead, trail, hx, hlead, htrail⟩ := htrim.around
  obtain ⟨slashes, hcut, hslashes⟩ :=
    Text.exists_dropEndWhile_append (· = '/') (Text.trim x).toList
  rw [← bare] at hcut
  have hbegins := htrim.begins
  have hends := htrim.ends
  rw [hcut] at hx hbegins hends
  exact ⟨lead, slashes, trail, hx, hlead, fun c hc => by simpa using hslashes c hc, htrail, hbegins,
    hends⟩

/-- Something is left of a tidy text, and it ends with no blank. -/
theorem tidy_iff_bare :
    Tidy x ↔ bare x ≠ [] ∧ ∀ c ∈ (bare x).getLast?, isBlank c = false := by
  constructor
  · rintro ⟨lead, server, slashes, trail, hx, hlead, hslashes, htrail, hne, hbegins, hends⟩
    have htrim : Text.Trims x.toList (server ++ slashes) := by
      refine ⟨⟨lead, trail, hx, hlead, htrail⟩, ?_, ?_⟩
      · rwa [List.head?_append_of_ne_nil _ hne]
      · intro c hc
        by_cases hslash : slashes = []
        · rw [hslash, List.append_nil] at hc
          exact (hends c hc).1
        · rw [List.getLast?_append_of_ne_nil _ hslash] at hc
          rw [hslashes c (List.mem_of_getLast? hc)]
          decide
    have hbare : bare x = server := by
      rw [bare, Text.trims_iff.mp htrim, String.toList_ofList]
      exact Text.dropEndWhile_eq_of_getLast? (fun c hc => decide_eq_false (hends c hc).2)
        fun c hc => decide_eq_true (hslashes c hc)
    rw [hbare]
    exact ⟨hne, fun c hc => (hends c hc).1⟩
  · rintro ⟨hne, hends⟩
    obtain ⟨lead, slashes, trail, hx, hlead, hslashes, htrail, hbegins, -⟩ := bare_spec x
    rw [List.head?_append_of_ne_nil _ hne] at hbegins
    refine ⟨lead, bare x, slashes, trail, hx, hlead, hslashes, htrail, hne, hbegins,
      fun c hc => ⟨hends c hc, ?_⟩⟩
    rintro rfl
    exact getLast?_bare x hc

/-- Only tidy texts are brought into the normal form. -/
theorem canonical_normalize_iff : Canonical (normalizeServer x) ↔ Tidy x :=
  canonical_normalize_iff_bare.trans tidy_iff_bare.symm

/-- Where nothing is dropped, there is no blank at the end. -/
theorem ends_of_bare_eq (h : bare s = s.toList) :
    ∀ c ∈ (bare s).getLast?, isBlank c = false := by
  obtain ⟨lead, slashes, trail, hs, -, -, -, -, hends⟩ := bare_spec s
  have hslashes : slashes = [] := by
    have hlength := congrArg List.length hs
    simp only [h, List.length_append] at hlength
    exact List.eq_nil_of_length_eq_zero (by omega)
  rwa [hslashes, List.append_nil] at hends

/-- What is left of a server that gets back its scheme is a part of this scheme. -/
theorem prefix_of_scheme_added (h : s.toList = "https://".toList ++ bare s)
    (hscheme : startsWith "https://" (String.ofList (bare s)) = false) :
    bare s <+: "https://".toList := by
  obtain ⟨lead, slashes, trail, hs, hlead, -⟩ := bare_spec s
  have hnone : lead = [] := by
    cases lead with
    | nil => rfl
    | cons c lead =>
      have hstarts : startsWith "https://" s = true := Text.startsWith_iff.mpr ⟨_, h.symm⟩
      have hbegins := begins_of_scheme (.inl hstarts) c (by rw [hs]; rfl)
      rw [hlead c List.mem_cons_self] at hbegins
      nomatch hbegins
  rw [hnone, List.nil_append, List.append_assoc, h] at hs
  have hbare : bare s <+: "https://".toList ++ bare s := by
    rw [hs]
    exact List.prefix_append _ _
  have hadded : "https://".toList <+: "https://".toList ++ bare s := List.prefix_append _ _
  refine (List.prefix_or_prefix_of_prefix hbare hadded).resolve_right fun hlong => ?_
  have hstarts : startsWith "https://" (String.ofList (bare s)) = true :=
    Text.startsWith_iff.mpr (by rwa [String.toList_ofList (l := bare s)])
  rw [hstarts] at hscheme
  nomatch hscheme

/-- The normal form is the one that is left as it is. -/
theorem normalize_eq_self_iff : normalizeServer s = s ↔ Canonical s := by
  constructor
  · intro h
    rw [← h, canonical_normalize_iff_bare]
    rw [normalize_eq] at h
    split at h
    · next hscheme =>
      have hbare : bare s = s.toList := by rw [← String.toList_ofList (l := bare s), h]
      refine ⟨?_, ends_of_bare_eq hbare⟩
      intro hnil
      rw [hnil] at hscheme
      nomatch hscheme
    · next hscheme =>
      have htext : s.toList = "https://".toList ++ bare s := by
        rw [← String.toList_ofList (l := bare s), ← String.toList_append, h]
      have hfront := prefix_of_scheme_added htext (by simp_all)
      refine ⟨?_, fun c hc => ?_⟩
      · -- Of a scheme alone its colon is left.
        intro hnil
        rw [hnil] at h
        rw [← h] at hnil
        nomatch hnil
      · exact Text.forall_of_all (P := fun c => isBlank c = false) (by decide) c
          (hfront.subset (List.mem_of_getLast? hc))
  · intro h
    have hbare : bare s = s.toList := by
      rw [bare, h.trimmed]
      apply Text.dropEndWhile_eq_self
      rintro _ hc
      apply decide_eq_false
      rintro rfl
      exact h.slash hc
    have hscheme := h.scheme
    rw [normalize_eq, hbare, String.ofList_toList, if_pos (by simpa using hscheme)]

end Server
end CodeQuality
