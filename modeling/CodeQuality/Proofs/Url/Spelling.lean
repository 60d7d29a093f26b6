import CodeQuality.Proofs.Normal
import CodeQuality.Proofs.Url.Barred
import CodeQuality.Proofs.Url.Scheme

/-!
# Servers that are spelled out

A server may be put in as a complete URL. Bringing it into its normal form takes away what stands
around it, and that may be more than reading a URL takes away; but none of it can be part of a
server. A URL whose scheme is spelled in small letters, with two slashes behind it, therefore leads
to the same server as before.

* `Url.names_of_append` — slashes, controls and blanks behind a server.
* `Url.read_normalize` — the server that a URL in its normal form leads to.
* `Url.normalize_of_not_spelledOut` — what becomes of any other URL.
-/

namespace CodeQuality

namespace Text

variable {p : Char → Bool} {cs rest : List Char}

/-- The end of a text is dropped at the front of the text in reverse. -/
theorem reverse_dropWhile_reverse (p : Char → Bool) (cs : List Char) :
    (cs.reverse.dropWhile p).reverse = dropEndWhile p cs := by
  obtain ⟨dropped, hcs, hdropped⟩ := exists_dropEndWhile_append p cs
  have hends : ∀ c ∈ (dropEndWhile p cs).reverse.head?, p c = false := by
    rw [List.head?_reverse]
    exact fun c hc => getLast?_dropEndWhile hc
  have hreverse : cs.reverse = dropped.reverse ++ (dropEndWhile p cs).reverse := by
    rw [← List.reverse_append, ← hcs]
  rw [hreverse, dropWhile_append (fun c hc => hdropped c (List.mem_reverse.mp hc)) hends,
    List.reverse_reverse]

end Text

namespace Url

open Text (isBarred isBlank dropEndWhile startsWith)

variable {cs front tail scheme lead : List Char} {u : Url} {x : String} {c : Char}

/-! ### Behind a server -/

/-- May `c` stand around a server without being a part of it? -/
def IsOuter (c : Char) : Prop := c = '/' ∨ isBarred c = true

theorem isOuter_of_mem_append (hcs : ∀ c ∈ cs, c = '/') (htail : ∀ c ∈ tail, isBlank c = true) :
    ∀ c ∈ cs ++ tail, IsOuter c :=
  List.forall_mem_append.mpr
    ⟨fun c hc => .inl (hcs c hc), fun c hc => .inr (Text.isBarred_of_isBlank (htail c hc))⟩

/-- Slashes, controls and blanks behind a server do not tell which one it is. -/
theorem names_of_append (hspecial : isSpecialScheme scheme = true)
    (htail : ∀ c ∈ tail, IsOuter c) (h : Names scheme (cs ++ tail) u) :
    Names scheme cs u := by
  obtain ⟨server, rest, rfl, hserver, hends⟩ := exists_server cs
  cases rest with
  | cons c rest =>
    have hlonger : ∀ d ∈ (c :: rest ++ tail).head?, endsServer true d = true := hends
    rw [List.append_assoc, names_append_iff hspecial hserver hlonger] at h
    rwa [names_append_iff hspecial hserver hends]
  | nil =>
    rw [List.append_nil] at h ⊢
    -- Up to the first slash behind it there are controls and blanks only.
    have hbarred : ∀ c ∈ tail.takeWhile (· ≠ '/'), isBarred c = true := by
      intro c hc
      have hne : c ≠ '/' := by simpa using List.all_eq_true.mp List.all_takeWhile c hc
      exact (htail c ((List.takeWhile_sublist _).mem hc)).resolve_left hne
    have hslash : ∀ c ∈ (tail.dropWhile (· ≠ '/')).head?, endsServer true c = true := by
      intro c hc
      have hc : c = '/' := by simpa using Text.head?_dropWhile hc
      rw [hc]
      rfl
    have hinside : ∀ c ∈ server ++ tail.takeWhile (· ≠ '/'), endsServer true c = false := by
      intro c hc
      rcases List.mem_append.mp hc with hc | hc
      · exact hserver c hc
      · exact not_endsServer_of_barred (hbarred c hc)
    rw [← List.takeWhile_append_dropWhile (p := (· ≠ '/')) (l := tail), ← List.append_assoc,
      names_append_iff hspecial hinside hslash] at h
    rcases List.eq_nil_or_concat (tail.takeWhile (· ≠ '/')) with hnil | ⟨blanks, b, hb⟩
    · rwa [hnil, List.append_nil] at h
    · rw [hb, List.concat_eq_append] at hbarred hinside
      rw [hb, List.concat_eq_append, ← List.append_assoc] at h
      have hfront : ∀ c ∈ server ++ blanks, endsServer true c = false := by
        intro c hc
        refine hinside c ?_
        rw [← List.append_assoc]
        exact List.mem_append_left _ hc
      exact absurd h (not_names_of_barred (hbarred b (by simp)) hfront hspecial)

theorem names_of_dropWhile_append (hspecial : isSpecialScheme scheme = true)
    (htail : ∀ c ∈ tail, IsOuter c)
    (h : Names scheme ((cs ++ tail).dropWhile (isSlash true)) u) :
    Names scheme (cs.dropWhile (isSlash true)) u := by
  rw [List.dropWhile_append] at h
  split at h
  · next hnil =>
    rw [List.isEmpty_iff.mp hnil]
    exact names_of_append hspecial (fun c hc => htail c ((List.dropWhile_sublist _).mem hc)) h
  · exact names_of_append hspecial htail h

/-- Without any character there is no server. -/
theorem not_names_nil (hspecial : isSpecialScheme scheme = true) : ¬ Names scheme [] u := by
  rw [names_iff hspecial]
  rintro ⟨-, -, ⟨host, hhost, -⟩, -⟩
  have hnone : readHost (hostPart []).1 = .error .emptyHost := rfl
  rw [hnone] at hhost
  nomatch hhost

/-! ### What counts of a text -/

/-- Is `c` dropped at either end of a text? -/
def isEdge (c : Char) : Bool := c.toNat ≤ 0x20

/-- Is `c` left out wherever it stands? -/
def isBreak (c : Char) : Bool := c = '\t' || c = '\n' || c = '\r'

theorem isBarred_of_isEdge (h : isEdge c = true) : isBarred c = true :=
  Bool.or_eq_true_iff.mpr (.inl h)

theorem significant_eq (s : String) : significant s =
    (dropEndWhile isEdge (s.toList.dropWhile isEdge)).filter (!isBreak ·) := by
  rw [← Text.reverse_dropWhile_reverse]
  rfl

theorem isBreak_of_not_isEdge (h : isEdge c = false) : isBreak c = false := by
  have hne {d : Char} (hd : isEdge d = true) : c ≠ d := by
    rintro rfl
    rw [hd] at h
    nomatch h
  have htab : c ≠ '\t' := hne (by decide)
  have hline : c ≠ '\n' := hne (by decide)
  have hreturn : c ≠ '\r' := hne (by decide)
  simp [isBreak, htab, hline, hreturn]

/-- A character that is no edge counts. -/
theorem significant_cons (hx : x.toList.dropWhile isEdge = c :: cs) :
    ∃ later, significant x = c :: later := by
  have hc : isEdge c = false := Text.head?_dropWhile (by rw [hx]; rfl)
  refine ⟨(dropEndWhile isEdge cs).filter (!isBreak ·), ?_⟩
  rw [significant_eq, hx, Text.dropEndWhile_cons, hc, Bool.and_false, if_neg Bool.false_ne_true,
    List.filter_cons_of_pos (by rw [isBreak_of_not_isEdge hc]; rfl)]

theorem not_isAlpha_of_isBarred (h : isBarred c = true) : c.isAlpha = false := by
  by_contra hletter
  have hascii := ascii_of_isAlphanum (c := c) (by simp_all [Char.isAlphanum])
  have hcases := Text.outside_of_barred h
  omega

/-- The first character of a URL that counts is a letter. -/
theorem isAlpha_of_read (h : read x = .ok u) :
    ∃ c cs, x.toList.dropWhile isEdge = c :: cs ∧ c.isAlpha = true := by
  obtain ⟨rest, hsplit⟩ := scheme_of_read h
  cases hx : x.toList.dropWhile isEdge with
  | nil =>
    rw [significant_eq, hx] at hsplit
    nomatch hsplit
  | cons c cs =>
    obtain ⟨later, hlater⟩ := significant_cons hx
    rw [hlater] at hsplit
    unfold splitScheme at hsplit
    split at hsplit
    · next hletter => exact ⟨c, cs, rfl, hletter⟩
    · nomatch hsplit

/-- The blanks in front of a URL are of ASCII, or it would not begin with a letter. -/
theorem isEdge_of_read (h : read x = .ok u) (hx : x.toList = lead ++ cs)
    (hlead : ∀ c ∈ lead, isBlank c = true) : ∀ c ∈ lead, isEdge c = true := by
  by_contra hsome
  obtain ⟨c, behind, hc⟩ : ∃ c behind, lead.dropWhile isEdge = c :: behind :=
    List.exists_cons_of_ne_nil fun hnil => hsome (List.dropWhile_eq_nil_iff.mp hnil)
  obtain ⟨d, later, hdrop, hletter⟩ := isAlpha_of_read h
  rw [hx, List.dropWhile_append, hc] at hdrop
  obtain rfl : c = d := (List.cons_eq_cons.mp hdrop).1
  have hblank := hlead c ((List.dropWhile_sublist _).mem (hc ▸ List.mem_cons_self))
  rw [not_isAlpha_of_isBarred (Text.isBarred_of_isBlank hblank)] at hletter
  nomatch hletter

/-- What counts of a text with slashes and blanks at its end. -/
theorem exists_significant (hx : x.toList = lead ++ front ++ tail)
    (hlead : ∀ c ∈ lead, isEdge c = true) (hfront : front ≠ [])
    (hbegins : ∀ c ∈ front.head?, isEdge c = false)
    (htail : ∀ c ∈ tail, IsOuter c) :
    ∃ later, significant x = significant (String.ofList front) ++ later ∧
      ∀ c ∈ later, IsOuter c := by
  have hself : front.dropWhile isEdge = front := Text.dropWhile_eq_self hbegins
  have hdrop : x.toList.dropWhile isEdge = front ++ tail := by
    rw [hx, List.append_assoc]
    refine Text.dropWhile_append hlead ?_
    rwa [List.head?_append_of_ne_nil _ hfront]
  rw [significant_eq, significant_eq, hdrop, String.toList_ofList, hself]
  by_cases hall : dropEndWhile isEdge tail = []
  · rw [Text.dropEndWhile_append_of_all (Text.dropEndWhile_eq_nil_iff.mp hall)]
    exact ⟨[], (List.append_nil _).symm, nofun⟩
  · obtain ⟨dropped, hcut, hdropped⟩ := Text.exists_dropEndWhile_append isEdge front
    refine ⟨(dropped ++ dropEndWhile isEdge tail).filter (!isBreak ·), ?_, fun c hc => ?_⟩
    · rw [Text.dropEndWhile_append_of_ne_nil hall, ← List.filter_append, ← List.append_assoc,
        ← hcut]
    · rcases List.mem_append.mp (List.mem_of_mem_filter hc) with hc | hc
      · exact .inr (isBarred_of_isEdge (hdropped c hc))
      · exact htail c (Text.mem_of_mem_dropEndWhile hc)

/-! ### URLs that are spelled out -/

/-- Is the scheme of a URL spelled in small letters, with two slashes behind it? -/
def SpelledOut (x : String) : Prop :=
  startsWith "https://" (Text.trim x) = true ∨ startsWith "http://" (Text.trim x) = true

/-- Is this a scheme of the web? -/
def IsWebScheme (scheme : List Char) : Prop := scheme = "https".toList ∨ scheme = "http".toList

theorem isWebScheme_of_isWeb (h : u.isWeb = true) : IsWebScheme u.scheme := by
  simpa [isWeb, or_comm, IsWebScheme] using h

/-- A scheme with what stands between it and the server. -/
def lettering (scheme : List Char) : List Char := scheme ++ [':', '/', '/']

theorem spelledOut_iff :
    SpelledOut x ↔ ∃ scheme, IsWebScheme scheme ∧ lettering scheme <+: (Text.trim x).toList := by
  unfold SpelledOut
  rw [Text.startsWith_iff, Text.startsWith_iff]
  constructor
  · rintro (h | h)
    · exact ⟨_, .inl rfl, h⟩
    · exact ⟨_, .inr rfl, h⟩
  · rintro ⟨scheme, rfl | rfl, h⟩
    · exact .inl h
    · exact .inr h

section WebScheme

variable (hscheme : IsWebScheme scheme)
include hscheme

theorem not_isEdge_of_mem_lettering : ∀ c ∈ lettering scheme, isEdge c = false := by
  rcases hscheme with rfl | rfl <;> exact Text.forall_of_all (by decide)

theorem not_isEdge_of_head? (cs : List Char) :
    ∀ c ∈ (lettering scheme ++ cs).head?, isEdge c = false := by
  intro c hc
  refine not_isEdge_of_mem_lettering hscheme c ?_
  rcases hscheme with rfl | rfl <;> (cases hc; decide)

theorem isSpecialScheme_of_isWebScheme : isSpecialScheme scheme = true := by
  rcases hscheme with rfl | rfl <;> decide

theorem read_of_splitScheme {s : String} (h : splitScheme (significant s) = some (scheme, cs)) :
    read s = readServer scheme (cs.dropWhile (isSlash true)) := by
  have hfile : isFileScheme scheme = false := by
    rcases hscheme with rfl | rfl <;> decide
  rw [read, h]
  dsimp only
  rw [hfile, isSpecialScheme_of_isWebScheme hscheme, if_neg Bool.false_ne_true, if_pos rfl]

theorem read_of_significant {s : String} (h : significant s = lettering scheme ++ cs) :
    read s = readServer scheme (cs.dropWhile (isSlash true)) := by
  have hsplit : splitScheme (significant s) = some (scheme, '/' :: '/' :: cs) := by
    rw [h]
    rcases hscheme with rfl | rfl <;> rfl
  rw [read_of_splitScheme hscheme hsplit]
  rfl

/-- All of the lettering counts. -/
theorem significant_lettering (cs : List Char) :
    significant (String.ofList (lettering scheme ++ cs)) =
      lettering scheme ++ (dropEndWhile isEdge cs).filter (!isBreak ·) := by
  have hvisible := not_isEdge_of_mem_lettering hscheme
  have hfront : (lettering scheme ++ cs).dropWhile isEdge = lettering scheme ++ cs :=
    Text.dropWhile_eq_self (not_isEdge_of_head? hscheme cs)
  have hkept : (lettering scheme).filter (!isBreak ·) = lettering scheme :=
    List.filter_eq_self.mpr fun c hc => by rw [isBreak_of_not_isEdge (hvisible c hc)]; rfl
  rw [significant_eq, String.toList_ofList, hfront, Text.dropEndWhile_append hvisible,
    List.filter_append, hkept]

/-- The lettering stays in the normal form, if a server stands behind it. -/
theorem normalize_lettering {server slashes : List Char}
    (hx : (Text.trim x).toList = lettering scheme ++ (server ++ slashes)) (hne : server ≠ [])
    (hcut : dropEndWhile (· = '/') (server ++ slashes) = server) :
    normalizeServer x = String.ofList (lettering scheme ++ server) := by
  have hbare : Server.bare x = lettering scheme ++ server := by
    rw [Server.bare, hx, Text.dropEndWhile_append_of_ne_nil (by rwa [hcut]), hcut]
  have hstarts : startsWith (String.ofList (lettering scheme))
      (String.ofList (lettering scheme ++ server)) = true := by
    rw [Text.startsWith_iff, String.toList_ofList, String.toList_ofList]
    exact List.prefix_append _ _
  rw [Server.normalize_eq, hbare, if_pos]
  rw [Bool.or_eq_true]
  rcases hscheme with rfl | rfl
  · exact .inl hstarts
  · exact .inr hstarts

end WebScheme

/-- A URL that is spelled out leads to the same server in its normal form. -/
theorem read_normalize (h : read x = .ok u) (hspelled : SpelledOut x) :
    ∃ v, read (normalizeServer x) = .ok v ∧ v.SameServer u := by
  obtain ⟨scheme, hscheme, behind, hbehind⟩ := spelledOut_iff.mp hspelled
  have hspecial := isSpecialScheme_of_isWebScheme hscheme
  obtain ⟨slashes, hcut, hslashes⟩ := Text.exists_dropEndWhile_append (· = '/') behind
  generalize hserver : dropEndWhile (· = '/') behind = server at hcut
  rw [hcut] at hbehind hserver
  have htrims : Text.Trims x.toList (Text.trim x).toList :=
    Text.trims_iff.mpr (String.ofList_toList).symm
  obtain ⟨lead, trail, hx, hlead, htrail⟩ := htrims.around
  have hx : x.toList = lead ++ (lettering scheme ++ server) ++ (slashes ++ trail) := by
    rw [hx, ← hbehind]
    simp only [List.append_assoc]
  have htail := isOuter_of_mem_append (fun c hc => of_decide_eq_true (hslashes c hc)) htrail
  have hedges := isEdge_of_read h (hx.trans (List.append_assoc ..)) hlead
  obtain ⟨later, hlater, hends⟩ := exists_significant hx hedges (by simp [lettering])
    (not_isEdge_of_head? hscheme server) htail
  rw [significant_lettering hscheme, List.append_assoc] at hlater
  -- What has been read names the server, and so does the front of it that is left.
  have hnames := names_of_dropWhile_append hspecial hends
    ⟨u, (read_of_significant hscheme hlater).symm.trans h, .refl u⟩
  have hne : server ≠ [] := by
    rintro rfl
    exact not_names_nil hspecial hnames
  obtain ⟨v, hv, hsame⟩ := hnames
  refine ⟨v, ?_, hsame⟩
  rw [normalize_lettering hscheme hbehind.symm hne hserver,
    read_of_significant hscheme (significant_lettering hscheme server), hv]

/-- What is left of a URL that is not spelled out stands behind a scheme. -/
theorem normalize_of_not_spelledOut (h : ¬ SpelledOut x) :
    normalizeServer x = String.ofList (lettering "https".toList ++ Server.bare x) := by
  obtain ⟨slashes, hcut, -⟩ := Text.exists_dropEndWhile_append (· = '/') (Text.trim x).toList
  have hbare : Server.bare x <+: (Text.trim x).toList := ⟨slashes, hcut.symm⟩
  have hnone : ¬ (startsWith "https://" (String.ofList (Server.bare x)) ||
      startsWith "http://" (String.ofList (Server.bare x))) = true := by
    rw [Bool.or_eq_true, Text.startsWith_iff, Text.startsWith_iff,
      String.toList_ofList (l := Server.bare x)]
    rintro (hstarts | hstarts)
    · exact h (.inl (Text.startsWith_iff.mpr (hstarts.trans hbare)))
    · exact h (.inr (Text.startsWith_iff.mpr (hstarts.trans hbare)))
  rw [Server.normalize_eq, if_neg hnone]
  refine String.toList_injective ?_
  rw [String.toList_append, String.toList_ofList (l := Server.bare x),
    String.toList_ofList (l := lettering _ ++ _)]
  rfl

end Url
end CodeQuality
