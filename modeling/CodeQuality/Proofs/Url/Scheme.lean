import CodeQuality.Client
import CodeQuality.Proofs.Steps
import CodeQuality.Proofs.Url.Reader

/-!
# Schemes

What is appended to a URL does not touch its scheme: a client sends its requests by the scheme of
its base, whatever that is.

* `Url.scheme_of_read` — the scheme of a text.
* `Client.scheme_endpoint` — the scheme of a call.
-/

namespace CodeQuality
namespace Url

variable {cs rest scheme : List Char} {u : Url} {c : Char}

/-- Is this a scheme as it is read: a letter first, and no capital? -/
structure IsScheme (scheme : List Char) : Prop where
  head : (scheme.head?).any Char.isAlpha = true
  chars : ∀ c ∈ scheme, isSchemeChar c = true ∧ c.toLower = c

/-- Letters and digits are of ASCII, and no controls there. -/
theorem ascii_of_isAlphanum (h : c.isAlphanum = true) : 0x20 < c.toNat ∧ c.toNat < 0x80 := by
  delta Char.isAlphanum Char.isAlpha Char.isUpper Char.isLower Char.isDigit at h
  simp only [Bool.or_eq_true, Bool.and_eq_true, decide_eq_true_eq, ge_iff_le,
    UInt32.le_iff_toNat_le] at h
  have hbetween {low high : Nat} (hlow : 0x20 < low) (hhigh : high < 0x80)
      (hc : low ≤ c.toNat ∧ c.toNat ≤ high) : 0x20 < c.toNat ∧ c.toNat < 0x80 := by omega
  rcases h with (h | h) | h
  · exact hbetween (by decide) (by decide) h
  · exact hbetween (by decide) (by decide) h
  · exact hbetween (by decide) (by decide) h

/-- A capital becomes a small letter, and all else stays. -/
theorem toLower_cases (c : Char) :
    c.toLower = c ∨ c.toLower.isAlpha = true ∧ c.toLower.toLower = c.toLower := by
  by_cases hupper : 65 ≤ c.toNat ∧ c.toNat ≤ 90
  · right
    have hletters : ∀ n, n ≤ 90 → 65 ≤ n → (Char.ofNat n).toLower.isAlpha = true ∧
        (Char.ofNat n).toLower.toLower = (Char.ofNat n).toLower := by decide +kernel
    have hc := hletters c.toNat hupper.2 hupper.1
    rwa [Char.ofNat_toNat] at hc
  · left
    unfold Char.toLower
    rw [dif_neg]
    simpa [UInt32.le_iff_toNat_le] using hupper

theorem toLower_toLower (c : Char) : c.toLower.toLower = c.toLower := by
  rcases toLower_cases c with h | ⟨-, h⟩
  · rw [h, h]
  · exact h

theorem isSchemeChar_toLower (h : isSchemeChar c = true) : isSchemeChar c.toLower = true := by
  rcases toLower_cases c with hsame | ⟨hletter, -⟩
  · rwa [hsame]
  · simp [isSchemeChar, Char.isAlphanum, hletter]

theorem isAlpha_toLower (h : c.isAlpha = true) : c.toLower.isAlpha = true := by
  rcases toLower_cases c with hsame | ⟨hletter, -⟩
  · rwa [hsame]
  · exact hletter

/-- The scheme that is split off is one. -/
theorem isScheme_of_splitScheme (h : splitScheme cs = some (scheme, rest)) : IsScheme scheme := by
  unfold splitScheme at h
  split at h
  · next hhead =>
    split at h
    · cases h
      constructor
      · cases cs with
        | nil => nomatch hhead
        | cons c cs =>
          have hletter : c.isAlpha = true := hhead
          have hscheme : isSchemeChar c = true := by simp [isSchemeChar, Char.isAlphanum, hletter]
          rw [List.takeWhile_cons, if_pos hscheme]
          exact isAlpha_toLower hletter
      · intro c hc
        obtain ⟨d, hd, rfl⟩ := List.mem_map.mp hc
        have hscheme : isSchemeChar d = true := List.all_eq_true.mp List.all_takeWhile d hd
        exact ⟨isSchemeChar_toLower hscheme, toLower_toLower d⟩
    · nomatch h
  · nomatch h

namespace IsScheme

theorem splitScheme_append (h : IsScheme scheme) (rest : List Char) :
    splitScheme (scheme ++ ':' :: rest) = some (scheme, rest) := by
  have hscheme : ∀ c ∈ scheme, isSchemeChar c = true := fun c hc => (h.chars c hc).1
  have hcolon : ∀ c, (':' :: rest).head? = some c → isSchemeChar c = false := by
    rintro _ ⟨⟩
    rfl
  have hlower : scheme.map Char.toLower = scheme := by
    rw [List.map_congr_left fun c hc => (h.chars c hc).2, List.map_id']
  have hhead : ((scheme ++ ':' :: rest).head?).any Char.isAlpha = true := by
    have hletter := h.head
    cases scheme with
    | nil => nomatch hletter
    | cons c cs => exact hletter
  unfold splitScheme
  rw [if_pos hhead, Text.dropWhile_append hscheme hcolon, Text.takeWhile_append hscheme hcolon,
    hlower]
  rfl

theorem visible (h : IsScheme scheme) : Visible (scheme ++ [':']) := by
  apply Visible.append
  · intro c hc
    have hscheme := (h.chars c hc).1
    have hblank : ∀ n ≤ 0x20, isSchemeChar (Char.ofNat n) = false := by decide
    rcases Nat.lt_or_ge 0x20 c.toNat with hlow | hlow
    · exact hlow
    · have hnone := hblank c.toNat hlow
      rw [Char.ofNat_toNat, hscheme] at hnone
      nomatch hnone
  · exact .cons (by decide) .nil

/-- What counts of a text that begins with a scheme begins with this scheme. -/
theorem significant_append (h : IsScheme scheme) (rest : List Char) :
    ∃ later, significant (String.ofList (scheme ++ ':' :: rest)) = scheme ++ ':' :: later := by
  have hvisible := h.visible
  have hchars : scheme ++ ':' :: rest = (scheme ++ [':']) ++ rest := by simp
  have hfront : ((scheme ++ [':']) ++ rest).dropWhile (fun c => decide (c.toNat ≤ 0x20)) =
      (scheme ++ [':']) ++ rest := by
    have hfirst := hvisible.dropWhile
    rw [List.dropWhile_append, hfirst, if_neg (by simp)]
  have hend : ∃ kept, (((scheme ++ [':']) ++ rest).reverse.dropWhile
      (fun c => decide (c.toNat ≤ 0x20))).reverse = (scheme ++ [':']) ++ kept := by
    have hreverse : Visible (scheme ++ [':']).reverse :=
      fun c hc => hvisible c (List.mem_reverse.mp hc)
    rw [List.reverse_append, List.dropWhile_append, hreverse.dropWhile]
    split
    · exact ⟨[], by rw [List.reverse_reverse, List.append_nil]⟩
    · exact ⟨_, by rw [List.reverse_append, List.reverse_reverse]⟩
  obtain ⟨kept, hkept⟩ := hend
  refine ⟨kept.filter fun c => !(c = '\t' || c = '\n' || c = '\r'), ?_⟩
  unfold significant
  dsimp only
  rw [String.toList_ofList, hchars, hfront, hkept, List.filter_append, hvisible.filter]
  simp

end IsScheme

/-- The scheme of a URL is that of the text it is read from. -/
theorem scheme_of_read {s : String} (h : read s = .ok u) :
    ∃ rest, splitScheme (significant s) = some (u.scheme, rest) := by
  unfold read at h
  split at h
  · nomatch h
  · next scheme rest hsplit =>
    have hscheme : u.scheme = scheme := by
      split at h
      · exact readFile_scheme h
      · split at h
        · exact readServer_scheme h
        · split at h
          · exact readServer_scheme h
          · cases h
            exact withTail_scheme rfl rfl _
          · cases h
            exact withTail_scheme rfl rfl _
    exact ⟨rest, by rw [hscheme]; exact hsplit⟩

end Url

/-- A call goes by the scheme of the base, whatever its path is. -/
theorem Client.scheme_endpoint {c : Client} {base path : String} {url : Url}
    (hbase : Url.read base = .ok c.baseUrl) (h : c.endpoint path = .ok url) :
    url.scheme = c.baseUrl.scheme := by
  obtain ⟨_, hsplit⟩ := Url.scheme_of_read hbase
  have hscheme := Url.isScheme_of_splitScheme hsplit
  obtain ⟨_, hurl⟩ := Url.scheme_of_read (mapError_ok_iff.mp h)
  -- Neither the slashes that are dropped nor what is appended touch the front of the text.
  obtain ⟨tail, htail⟩ : ∃ tail, appendPath c.baseUrl.text path =
      String.ofList (c.baseUrl.scheme ++ ':' :: tail) := by
    have hkept : ∀ d ∈ c.baseUrl.scheme ++ [':'], decide (d = '/') = false := by
      intro d hd
      apply decide_eq_false
      rintro rfl
      rcases List.mem_append.mp hd with hd | hd
      · nomatch (hscheme.chars '/' hd).1
      · nomatch List.mem_singleton.mp hd
    obtain ⟨server, hchars⟩ : ∃ server, c.baseUrl.chars = (c.baseUrl.scheme ++ [':']) ++ server :=
      ⟨_, List.append_cons ..⟩
    refine ⟨Text.dropEndWhile (· = '/') server ++
      ("/" ++ Text.trimStartWhile (· = '/') path).toList, String.toList_injective ?_⟩
    rw [appendPath, Text.trimEndWhile, Url.text, String.toList_append, String.toList_append,
      String.toList_ofList, String.toList_ofList, String.toList_ofList, hchars,
      Text.dropEndWhile_append hkept]
    simp
  obtain ⟨later, hlater⟩ := hscheme.significant_append tail
  rw [htail, hlater, hscheme.splitScheme_append] at hurl
  exact (Prod.mk.inj (Option.some.inj hurl)).1.symm

end CodeQuality
