import CodeQuality.Proofs.Text.Composed
import CodeQuality.Proofs.Url.Server
import Mathlib.Data.List.Basic

/-!
# Characters that no host holds

Controls and blanks may stand around the name of a server, but not in it. Those of ASCII are
forbidden in the ASCII form, and the others are not valid before they come into that form; none of
them is mapped to anything else, composed or left out, so that it is found where it is checked.

* `Domain.toAscii?_eq_none` — no domain is made of a text with such a character.
* `Url.not_readHost_of_barred` — no host ends with one.
* `Url.not_names_of_barred` — nor does a server.
-/

namespace CodeQuality

namespace Text

/-- The numbers of the blanks outside ASCII. -/
def farBlanks : List Nat :=
  [0x85, 0xA0, 0x1680, 0x2000, 0x2001, 0x2002, 0x2003, 0x2004, 0x2005, 0x2006, 0x2007, 0x2008,
    0x2009, 0x200A, 0x2028, 0x2029, 0x202F, 0x205F, 0x3000]

/-- Is `c` a control or a blank? -/
def isBarred (c : Char) : Bool := c.toNat ≤ 0x20 || isBlank c

variable {c : Char} {cs : List Char}

/-- A control or a blank is one of ASCII or one of a few others. -/
theorem barred_cases (h : isBarred c = true) : c.toNat ≤ 0x20 ∨ c.toNat ∈ farBlanks := by
  simp [isBarred, isBlank] at h
  simp [farBlanks]
  omega

theorem mem_farBlanks_cases {n : Nat} (h : n ∈ farBlanks) :
    0x80 ≤ n ∧ (n < 0x1100 ∨ 0x11FF < n ∧ n < 0xAC00) := by
  have hall : ∀ n ∈ farBlanks, 0x80 ≤ n ∧ (n < 0x1100 ∨ 0x11FF < n ∧ n < 0xAC00) := by decide
  exact hall n h

theorem isBarred_of_isBlank (h : isBlank c = true) : isBarred c = true :=
  Bool.or_eq_true_iff.mpr (.inr h)

/-- No letter, no digit and no sign of ASCII is a control or a blank. -/
theorem outside_of_barred (h : isBarred c = true) : c.toNat ≤ 0x20 ∨ 0x80 ≤ c.toNat :=
  (barred_cases h).imp_right fun hfar => (mem_farBlanks_cases hfar).1

/-- Is `n` above the controls, and not within or next to the blanks? -/
def isClear (n : Nat) : Bool :=
  0x20 < n && (n < 0x2000 || 0x205F < n) && !(n == 0x85 || n == 0xA0 || n == 0x1680 || n == 0x3000)

theorem ne_of_isClear {n : Nat} (hn : isClear n = true) (h : isBarred c = true) : n ≠ c.toNat := by
  simp [isClear] at hn
  simp [isBarred, isBlank] at h
  omega

/-- No control and no blank is composed with anything. -/
theorem isInert_of_barred (h : isBarred c = true) : Composed.IsInert c := by
  have htable : ∀ entry ∈ Composed.pairs,
      isClear entry.1 ∧ ∀ pair ∈ entry.2, isClear pair.1 ∧ isClear pair.2 := by decide +kernel
  refine Composed.isInert_of_unlisted ?_ fun entry hentry => ?_
  · rcases barred_cases h with hlow | hfar
    · exact .inl (by omega)
    · exact (mem_farBlanks_cases hfar).2
  · obtain ⟨hsecond, hfirsts⟩ := htable entry hentry
    exact ⟨ne_of_isClear hsecond h, fun pair hpair =>
      ⟨ne_of_isClear (hfirsts pair hpair).1 h, ne_of_isClear (hfirsts pair hpair).2 h⟩⟩

end Text

namespace Domain

open Text (isBarred farBlanks)

variable {b : Char} {cs name : List Char}

/-! ### The tables -/

/-- Do the characters of an entry leave out all blanks? -/
def Spares (entry : Nat × String) : Prop :=
  ∀ n ∈ farBlanks, n < entry.1 ∨ entry.1 + (Text.split ' ' entry.2.toList).length ≤ n

theorem spares_cons {first : Nat} {cs : List Char} {entries : List (Nat × String)}
    (h : ∀ n ∈ List.range' first (Text.split ' ' cs).length, farBlanks.contains n = false)
    (hrest : ∀ entry ∈ entries, Spares entry) :
    ∀ entry ∈ (first, String.ofList cs) :: entries, Spares entry := by
  refine List.forall_mem_cons.mpr ⟨fun n hn => ?_, hrest⟩
  rw [String.toList_ofList]
  rcases Nat.lt_or_ge n first with hlow | hlow
  · exact .inl hlow
  · refine .inr (Nat.ge_of_not_lt fun hhigh => ?_)
    have hnone := h n (List.mem_range'_1.mpr ⟨hlow, hhigh⟩)
    rw [List.contains_iff_mem.mpr hn] at hnone
    nomatch hnone

theorem spares_of_behind {entries : List (Nat × String)} (h : ∀ entry ∈ entries, 0x3000 < entry.1) :
    ∀ entry ∈ entries, Spares entry := by
  have hlast : ∀ n ∈ farBlanks, n ≤ 0x3000 := by decide
  exact fun entry hentry n hn => .inl (Nat.lt_of_le_of_lt (hlast n hn) (h entry hentry))

set_option maxRecDepth 4000 in
theorem spares_mappedTexts : ∀ entry ∈ mappedTexts, Spares entry := by
  unfold mappedTexts
  -- The entries up to the last blank are taken one by one: their texts are known only then.
  iterate 182 refine spares_cons (by decide +kernel) ?_
  exact spares_of_behind (by decide +kernel)

theorem ofTexts?_eq_none {n : Nat} (h : n ∈ farBlanks) : ofTexts? n = none := by
  refine List.findSome?_eq_none_iff.mpr fun entry hentry => ?_
  rcases spares_mappedTexts entry hentry n h with hlow | hhigh
  · exact if_neg (by omega)
  · exact (if_pos (by omega)).trans (List.getElem?_eq_none (by omega))

/-- Every control and every blank stands for itself. -/
theorem fold_eq_self (h : isBarred b = true) : fold b = [b] := by
  rcases Text.barred_cases h with hlow | hfar
  · have hlower : b.toLower = b := by
      unfold Char.toLower
      rw [dif_neg]
      simp [UInt32.le_iff_toNat_le]
      intro hletter
      have hletter : 65 ≤ b.toNat := hletter
      omega
    rw [fold, if_pos (by omega), hlower]
  · have hruns : ∀ n ∈ farBlanks, ofRun? n = none := by decide +kernel
    have hdropped : ∀ n ∈ farBlanks, Text.inRanges droppedRanges (Char.ofNat n) = false := by
      decide +kernel
    have hnone := hdropped b.toNat hfar
    rw [Char.ofNat_toNat] at hnone
    have hascii := (Text.mem_farBlanks_cases hfar).1
    unfold fold
    rw [if_neg (by omega), hnone, if_neg Bool.false_ne_true, hruns b.toNat hfar,
      ofTexts?_eq_none hfar]
    rfl

/-- A control or a blank is either of ASCII, and forbidden there, or not valid. -/
theorem forbidden_or_invalid (h : isBarred b = true) :
    isAscii b = true ∧ isForbidden b = true ∨
      isAscii b = false ∧ Text.inRanges invalidRanges b = true := by
  rcases Text.barred_cases h with hlow | hfar
  · exact .inl ⟨by simp [isAscii]; omega, by simp [isForbidden]; omega⟩
  · have hinvalid : ∀ n ∈ farBlanks, Text.inRanges invalidRanges (Char.ofNat n) = true := by
      decide +kernel
    have hb := hinvalid b.toNat hfar
    rw [Char.ofNat_toNat] at hb
    have hascii := (Text.mem_farBlanks_cases hfar).1
    exact .inr ⟨by simp [isAscii]; omega, hb⟩

/-! ### Domains -/

/-- A control or a blank is found again when all characters stand for themselves. -/
theorem mem_folded (h : isBarred b = true) (hb : b ∈ cs) : b ∈ folded cs := by
  refine Text.mem_composed (Text.isInert_of_barred h) (List.mem_flatMap.mpr ⟨b, hb, ?_⟩)
  rw [fold_eq_self h]
  exact List.mem_singleton_self b

/-- What is written for a label has a control or a blank in it only if the label is of ASCII
there. -/
theorem mem_ascii_of_label? {label : Label} (h : isBarred b = true) (hb : b ∈ cs)
    (hlabel : label? cs = some label) : isForbidden b = true ∧ b ∈ label.ascii := by
  have hascii (hall : cs.all isAscii = true) : isForbidden b = true := by
    rcases forbidden_or_invalid h with ⟨-, hforbidden⟩ | ⟨hnone, -⟩
    · exact hforbidden
    · rw [List.all_eq_true.mp hall b hb] at hnone
      nomatch hnone
  unfold label? at hlabel
  split at hlabel
  · split at hlabel
    · split at hlabel
      · next hguard =>
        cases hlabel
        simp only [Bool.and_eq_true] at hguard
        exact ⟨hascii hguard.1, hb⟩
      · nomatch hlabel
    · nomatch hlabel
  · split at hlabel
    · next hall =>
      cases hlabel
      exact ⟨hascii hall, hb⟩
    · split at hlabel
      · next hvalid =>
        cases hlabel
        rcases forbidden_or_invalid h with ⟨hascii, hforbidden⟩ | ⟨-, hinvalid⟩
        · -- The characters of ASCII come first in Punycode.
          refine ⟨hforbidden, List.mem_append_right _ (List.mem_append_left _ ?_)⟩
          exact List.mem_append_left _ (List.mem_filter.mpr ⟨hb, hascii⟩)
        · have hnone : cs.any (Text.inRanges invalidRanges) = true :=
            List.any_eq_true.mpr ⟨b, hb, hinvalid⟩
          simp [isValidLabel, hnone] at hvalid
      · nomatch hlabel

/-- No domain is made of a text with a control or a blank in it. -/
theorem toAscii?_eq_none (h : isBarred b = true) (hb : b ∈ cs) : toAscii? cs = none := by
  refine Option.eq_none_iff_forall_not_mem.mpr fun name hname => ?_
  obtain ⟨labels, hlabels, hguard⟩ := Option.bind_eq_some_iff.mp hname
  have hpart : ∃ part ∈ Text.split '.' (folded cs), b ∈ part := by
    have hfolded := mem_folded h hb
    rw [← Text.join_split '.' (folded cs)] at hfolded
    refine (Text.mem_join hfolded).resolve_left ?_
    rintro rfl
    nomatch h
  obtain ⟨part, hpart, hb⟩ := hpart
  have hlabel : label? part ∈ labels.map some :=
    mapM_some_iff.mp hlabels ▸ List.mem_map_of_mem hpart
  obtain ⟨label, hmem, hlabel⟩ := List.mem_map.mp hlabel
  obtain ⟨hforbidden, hascii⟩ := mem_ascii_of_label? h hb hlabel.symm
  split at hguard
  · nomatch hguard
  · next hclean =>
    simp only [Bool.or_eq_true, not_or, List.any_eq_true, not_exists, not_and] at hclean
    exact hclean.2 label hmem b hascii hforbidden

theorem ofOctets?_eq_none (h : isBarred b = true) (octets : List UInt8) :
    ofOctets? (octets ++ String.utf8EncodeChar b) = none := by
  refine Option.eq_none_iff_forall_not_mem.mpr fun name hname => ?_
  obtain ⟨text, htext, hname⟩ := Option.bind_eq_some_iff.mp hname
  rw [toAscii?_eq_none h (Text.mem_of_ofOctets? htext)] at hname
  nomatch hname

end Domain

namespace Url

open Text (isBarred)

variable {b : Char} {cs server scheme : List Char} {u : Url} {host : Host}

/-! ### Hosts -/

section Barred

variable (h : isBarred b = true)
include h

theorem ne_of_barred {c : Char} (hc : isBarred c = false) : b ≠ c := by
  rintro rfl
  rw [h] at hc
  nomatch hc

theorem not_endsServer_of_barred : endsServer true b = false := by
  have hslash := ne_of_barred h (show isBarred '/' = false by decide)
  have hbackslash := ne_of_barred h (show isBarred '\\' = false by decide)
  have hquery := ne_of_barred h (show isBarred '?' = false by decide)
  have hfragment := ne_of_barred h (show isBarred '#' = false by decide)
  simp [endsServer, isSlash, hslash, hbackslash, hquery, hfragment]

theorem not_isDigit_of_barred : b.isDigit = false := by
  have hcases := Text.outside_of_barred h
  simp [Char.isDigit, UInt32.le_iff_toNat_le]
  intro hlow
  have hlow : 48 ≤ b.toNat := hlow
  show 57 < b.toNat
  omega

theorem hexValue?_of_barred : Percent.hexValue? b = none := by
  have hcases := Text.outside_of_barred h
  have hout {first last : Char} (hfirst : 0x20 < first.toNat) (hlast : last.toNat < 0x80) :
      ¬(first ≤ b && b ≤ last) = true := by
    simp only [Bool.and_eq_true, decide_eq_true_eq, not_and]
    intro hlow hhigh
    have hlow : first.toNat ≤ b.toNat := hlow
    have hhigh : b.toNat ≤ last.toNat := hhigh
    omega
  rw [Percent.hexValue?, if_neg (hout (by decide) (by decide)),
    if_neg (hout (by decide) (by decide)), if_neg (hout (by decide) (by decide))]

end Barred

/-- No host ends with a control or a blank. -/
theorem not_readHost_of_barred (h : isBarred b = true) : readHost (cs ++ [b]) ≠ .ok host := by
  intro hread
  unfold readHost at hread
  split at hread
  · next rest heq =>
    split at hread
    · next hlast =>
      have hlast : (cs ++ [b]).getLast? = some ']' := by
        rw [heq, List.getLast?_cons, hlast]
        rfl
      rw [List.getLast?_concat] at hlast
      exact ne_of_barred h (by decide) (Option.some.inj hlast)
    · nomatch hread
  · rw [Percent.decode_append (hexValue?_of_barred h) (ne_of_barred h (by decide)),
      Domain.ofOctets?_eq_none h] at hread
    nomatch hread

/-! ### Servers -/

theorem splitHost_eq_append (special inBrackets : Bool) (cs : List Char) :
    (splitHost special inBrackets cs).1 ++ (splitHost special inBrackets cs).2 = cs := by
  induction cs generalizing inBrackets with
  | nil => rfl
  | cons c cs ih =>
    rw [splitHost]
    split
    · rfl
    · exact congrArg (c :: ·) (ih _)

theorem head?_splitHost (special inBrackets : Bool) (cs : List Char) :
    ∀ c ∈ (splitHost special inBrackets cs).2.head?, endsServer special c = true ∨ c = ':' := by
  induction cs generalizing inBrackets with
  | nil => nofun
  | cons c cs ih =>
    rw [splitHost]
    split
    · next hends =>
      rintro _ ⟨⟩
      simp at hends
      exact hends.imp_right And.left
    · exact ih _

section Barred

variable (h : isBarred b = true) (hserver : ∀ c ∈ server, endsServer true c = false)
include h hserver

theorem not_endsServer_concat : ∀ c ∈ server ++ [b], endsServer true c = false := by
  intro c hc
  rcases List.mem_append.mp hc with hc | hc
  · exact hserver c hc
  · rw [List.mem_singleton.mp hc]
    exact not_endsServer_of_barred h

/-- A control or a blank at the end of a server stands behind the user. -/
theorem exists_splitUser_concat : ∃ front, (splitUser true (server ++ [b])).2 = front ++ [b] := by
  have hall := not_endsServer_concat h hserver
  have hself : (server ++ [b]).takeWhile (!endsServer true ·) = server ++ [b] :=
    List.takeWhile_eq_self_iff.mpr fun c hc => by rw [hall c hc]; rfl
  unfold splitUser
  rw [hself]
  dsimp only
  split
  · -- What stands behind the last sign is not empty.
    have hhost : 1 ≤ ((server ++ [b]).reverse.takeWhile (· ≠ '@')).reverse.length := by
      have hne : b ≠ '@' := ne_of_barred h (by decide)
      simp [hne]
    rw [List.drop_append_of_le_length (by simp at hhost ⊢; omega)]
    exact ⟨_, rfl⟩
  · exact ⟨server, rfl⟩

/-- No port ends with a control or a blank. -/
theorem not_readPort_of_barred {port : Option Nat × List Char} :
    readPort scheme (server ++ [b]) ≠ .ok port := by
  have hrest : (server ++ [b]).dropWhile Char.isDigit ≠ [] := by
    intro hnil
    have hdigit := List.dropWhile_eq_nil_iff.mp hnil b (by simp)
    rw [not_isDigit_of_barred h] at hdigit
    nomatch hdigit
  obtain ⟨c, rest, hc⟩ := List.exists_cons_of_ne_nil hrest
  have hmem : c ∈ server ++ [b] := (List.dropWhile_sublist _).mem (hc ▸ List.mem_cons_self)
  intro hread
  unfold readPort at hread
  dsimp only at hread
  split at hread
  · nomatch hread
  · rw [hc, List.head?_cons, Option.any_some, not_endsServer_concat h hserver c hmem, Bool.not_false,
      if_pos rfl] at hread
    nomatch hread

/-- No server ends with a control or a blank. -/
theorem not_names_of_barred (hspecial : isSpecialScheme scheme = true) :
    ¬ Names scheme (server ++ [b]) u := by
  have hall := not_endsServer_concat h hserver
  rw [names_iff hspecial]
  rintro ⟨-, -, ⟨host, hhost, -⟩, rest, hport⟩
  obtain ⟨front, hfront⟩ := exists_splitUser_concat h hserver
  obtain ⟨user, huser⟩ := exists_append_splitUser true (server ++ [b])
  rw [hfront] at huser
  have hparts := splitHost_eq_append true false (front ++ [b])
  have hhead := head?_splitHost true false (front ++ [b])
  rw [hostPart, hfront] at hhost hport
  cases hbehind : (splitHost true false (front ++ [b])).2 with
  | nil =>
    rw [hbehind, List.append_nil] at hparts
    rw [hparts] at hhost
    exact not_readHost_of_barred h hhost
  | cons c port =>
    rw [hbehind] at hparts hhead hport
    have hmem {d : Char} (hd : d ∈ c :: port) : d ∈ server ++ [b] := by
      rw [huser, ← hparts]
      exact List.mem_append_right _ (List.mem_append_right _ hd)
    obtain rfl : c = ':' := by
      refine (hhead c rfl).resolve_left ?_
      rw [hall c (hmem List.mem_cons_self)]
      exact Bool.false_ne_true
    have hlast : (':' :: port).getLast? = some b := by
      have hlast := congrArg List.getLast? hparts
      rwa [List.getLast?_append_of_ne_nil _ (List.cons_ne_nil _ _), List.getLast?_concat] at hlast
    obtain ⟨digits, hdigits⟩ : ∃ digits, port = digits ++ [b] := by
      cases port with
      | nil => exact absurd (Option.some.inj hlast).symm (ne_of_barred h (by decide))
      | cons d port =>
        rw [List.getLast?_cons_cons] at hlast
        exact List.getLast?_eq_some_iff.mp hlast
    rw [portBehind_colon, hdigits] at hport
    refine not_readPort_of_barred h (fun d hd => hall d (hmem ?_)) hport
    rw [hdigits]
    exact List.mem_cons_of_mem _ (List.mem_append_left _ hd)

end Barred

end Url
end CodeQuality
