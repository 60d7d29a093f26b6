import CodeQuality.Proofs.Url.Regular

/-!
# URLs read back

The text of a regular URL is read as that URL, part by part: none of its parts holds a character
that could end it, and none is changed by being read.

* `splitUser_userChars`, `readPort_portChars`, `readPath_chars`, `withTail_chars` — the parts.
* `read_text` — a regular URL is read from its text.
-/

namespace CodeQuality
namespace Url

variable {cs rest tail : List Char} {segment : List Char} {segments : List (List Char)} {u : Url}

/-! ### The path -/

theorem splitSegments_append (h : ∀ c ∈ segment, isSlash true c = false) (rest : List Char) :
    splitSegments true (segment ++ '/' :: rest) = segment :: splitSegments true rest := by
  induction segment with
  | nil => rfl
  | cons c segment ih =>
    have hc := h c List.mem_cons_self
    have ih := ih fun d hd => h d (List.mem_cons_of_mem _ hd)
    rw [List.cons_append, splitSegments, hc, if_neg Bool.false_ne_true, ih]

theorem splitSegments_eq_singleton (h : ∀ c ∈ segment, isSlash true c = false) :
    splitSegments true segment = [segment] := by
  induction segment with
  | nil => rfl
  | cons c segment ih =>
    have hc := h c List.mem_cons_self
    have ih := ih fun d hd => h d (List.mem_cons_of_mem _ hd)
    rw [splitSegments, hc, if_neg Bool.false_ne_true, ih]

theorem splitSegments_chars (hsegment : ∀ c ∈ segment, isSlash true c = false)
    (h : ∀ segment ∈ segments, ∀ c ∈ segment, isSlash true c = false) :
    splitSegments true (segment ++ segments.flatMap ('/' :: ·)) = segment :: segments := by
  induction segments generalizing segment with
  | nil => rw [List.flatMap_nil, List.append_nil, splitSegments_eq_singleton hsegment]
  | cons next later ih =>
    have ih := ih (h next List.mem_cons_self) fun s hs => h s (List.mem_cons_of_mem _ hs)
    rw [List.flatMap_cons, List.cons_append, splitSegments_append hsegment, ih]

/-- Segments that stand for themselves are kept. -/
theorem appendSegments_regular (read : List (List Char))
    (h : ∀ segment ∈ segments, RegularSegment segment) :
    appendSegments false read segments = read.reverse ++ segments := by
  induction segments generalizing read with
  | nil => rw [appendSegments, List.append_nil]
  | cons segment segments ih =>
    have hsegment := h segment List.mem_cons_self
    have ih := ih (segment :: read) fun s hs => h s (List.mem_cons_of_mem _ hs)
    rw [appendSegments, hsegment.notAbove, hsegment.notHere]
    simp only [Bool.false_eq_true, if_false, Bool.false_and]
    rw [ih, List.reverse_cons, List.append_assoc]
    rfl

theorem readPath_chars (hweb : u.isWeb = true) (hne : segments ≠ [])
    (h : ∀ segment ∈ segments, RegularSegment segment) :
    readPath u.scheme (UrlPath.segments segments).chars = .segments segments := by
  obtain ⟨segment, later, rfl⟩ := List.exists_cons_of_ne_nil hne
  have hsplit : splitSegments true (segment ++ later.flatMap ('/' :: ·)) = segment :: later :=
    splitSegments_chars (fun c hc => ((h segment List.mem_cons_self).clean c hc).2)
      fun s hs c hc => ((h s (List.mem_cons_of_mem _ hs)).clean c hc).2
  have hencode : (segment :: later).map (Percent.encode Percent.inPath) = segment :: later := by
    refine (List.map_congr_left fun s hs => ?_).trans (List.map_id _)
    exact Percent.encode_eq_self fun c hc => ((h s hs).clean c hc).1
  have hchars : (UrlPath.segments (segment :: later)).chars =
      '/' :: (segment ++ later.flatMap ('/' :: ·)) := rfl
  have hslash : isSlash true '/' = true := rfl
  unfold readPath
  rw [hchars, isSpecialScheme_of_isWeb hweb, isFileScheme_of_isWeb hweb]
  simp only [hslash, if_true]
  unfold readSegments
  rw [hsplit, hencode, appendSegments_regular [] h]
  rfl

/-- The path ends where the query or the fragment begins. -/
theorem splitPath_chars (h : ∀ segment ∈ segments, RegularSegment segment)
    (htail : ∀ c ∈ tail.head?, c = '?' ∨ c = '#') :
    splitPath ((UrlPath.segments segments).chars ++ tail) =
      ((UrlPath.segments segments).chars, tail) := by
  have hinside : ∀ c ∈ (UrlPath.segments segments).chars, (c ≠ '?' && c ≠ '#') = true := by
    intro c hc
    obtain ⟨segment, hsegment, hc⟩ := List.mem_flatMap.mp hc
    rcases List.mem_cons.mp hc with rfl | hc
    · decide
    · have hclean := ((h segment hsegment).clean c hc).1
      simp [Percent.inPath] at hclean
      simp [hclean]
  have hend : ∀ c ∈ tail.head?, (c ≠ '?' && c ≠ '#') = false := by
    intro c hc
    rcases htail c hc with rfl | rfl <;> rfl
  exact Prod.ext (Text.takeWhile_append hinside hend) (Text.dropWhile_append hinside hend)

/-! ### Query and fragment -/

theorem head?_tail (u : Url) :
    ∀ c ∈ (u.queryChars ++ u.fragmentChars).head?, c = '?' ∨ c = '#' := by
  intro c hc
  unfold queryChars fragmentChars at hc
  cases hq : u.query with
  | some query =>
    rw [hq] at hc
    exact .inl (Option.some.inj hc).symm
  | none =>
    rw [hq] at hc
    cases hf : u.fragment with
    | some fragment =>
      rw [hf] at hc
      exact .inr (Option.some.inj hc).symm
    | none =>
      rw [hf] at hc
      nomatch hc

/-- Query and fragment are read as they have been written. -/
theorem withTail_chars (h : u.Regular) :
    withTail { u with query := none, fragment := none } (u.queryChars ++ u.fragmentChars) = u := by
  have hspecial := isSpecialScheme_of_isWeb h.web
  have hfragment (fragment : List Char) (hf : u.fragment = some fragment) :
      Percent.encode Percent.inFragment fragment = fragment :=
    Percent.encode_eq_self (h.fragment fragment hf)
  have hquery (query : List Char) (hq : u.query = some query) :
      Percent.encode Percent.inSpecialQuery query = query :=
    Percent.encode_eq_self (h.query query hq)
  have hhash (query : List Char) (hq : u.query = some query) : ∀ c ∈ query, c ≠ '#' := by
    intro c hc he
    have := h.query query hq c hc
    rw [he] at this
    exact absurd this (by decide)
  obtain ⟨scheme, username, password, host, port, path, query, fragment⟩ := u
  dsimp only at hspecial hfragment hquery hhash
  unfold withTail queryChars fragmentChars
  rw [hspecial]
  -- The query ends at the `#` of the fragment, if there is one.
  cases query with
  | none =>
    cases fragment with
    | none => rfl
    | some fragment => simp [hfragment]
  | some query =>
    have hquery := hquery query rfl
    have hhash : ∀ c ∈ query, decide (c ≠ '#') = true :=
      fun c hc => decide_eq_true (hhash query rfl c hc)
    have hend : ∀ c ∈ ((fragment.map ('#' :: ·)).getD []).head?, decide (c ≠ '#') = false := by
      cases fragment <;> simp
    simp only [Option.map_some, Option.getD_some, List.cons_append,
      Text.takeWhile_append hhash hend, Text.dropWhile_append hhash hend, if_true, hquery]
    cases fragment with
    | none => rfl
    | some fragment => simp [hfragment]

/-! ### The server -/

/-- User name and password without the sign that ends them. -/
def userText (u : Url) : List Char :=
  u.username ++ if u.password.isEmpty then [] else ':' :: u.password

theorem not_endsServer_of_inUserInfo {c : Char} (h : Percent.inUserInfo c = false) :
    endsServer true c = false ∧ c ≠ '@' ∧ c ≠ ':' := by
  simp [Percent.inUserInfo, Percent.inPath] at h
  simp [endsServer, isSlash, h]

theorem not_endsServer_of_mem_userText (h : u.Regular) {c : Char} (hc : c ∈ u.userText) :
    endsServer true c = false ∧ c ≠ '@' := by
  rcases List.mem_append.mp hc with hc | hc
  · obtain ⟨hends, hsign, -⟩ := not_endsServer_of_inUserInfo (h.username c hc)
    exact ⟨hends, hsign⟩
  · split at hc
    · nomatch hc
    · rcases List.mem_cons.mp hc with rfl | hc
      · decide
      · obtain ⟨hends, hsign, -⟩ := not_endsServer_of_inUserInfo (h.password c hc)
        exact ⟨hends, hsign⟩

theorem not_endsServer_of_isHostChar {c : Char} (h : Host.isHostChar c = true) :
    endsServer true c = false ∧ c ≠ '@' := by
  have hne (d : Char) (hd : Host.isHostChar d = false) : c ≠ d := by
    rintro rfl
    rw [hd] at h
    nomatch h
  refine ⟨?_, hne '@' (by decide)⟩
  simp [endsServer, isSlash, hne '/' (by decide), hne '\\' (by decide), hne '?' (by decide),
    hne '#' (by decide)]

theorem readUser_userText (h : u.Regular) : readUser u.userText = (u.username, u.password) := by
  have hname : ∀ c ∈ u.username, decide (c ≠ ':') = true := fun c hc =>
    decide_eq_true (not_endsServer_of_inUserInfo (h.username c hc)).2.2
  have hrest : ∀ c ∈ (if u.password.isEmpty then [] else ':' :: u.password).head?,
      decide (c ≠ ':') = false := by
    split <;> simp
  have hpassword : (if u.password.isEmpty then [] else ':' :: u.password).drop 1 = u.password := by
    split
    · next he => rw [List.isEmpty_iff.mp he]; rfl
    · rfl
  unfold readUser userText
  rw [Text.takeWhile_append hname hrest, Text.dropWhile_append hname hrest, hpassword]
  simp only [Percent.encode_eq_self h.username, Percent.encode_eq_self h.password]

/-- User information that is not written is not read either. -/
theorem readUser_getD (h : u.Regular) :
    readUser
        ((if u.username.isEmpty && u.password.isEmpty then none else some u.userText).getD []) =
      (u.username, u.password) := by
  split
  · next hempty =>
    simp only [Bool.and_eq_true, List.isEmpty_iff] at hempty
    rw [hempty.1, hempty.2]
    rfl
  · exact readUser_userText h

theorem noUser_getD (u : Url) :
    decide ((if u.username.isEmpty && u.password.isEmpty then none else some u.userText) =
      some []) = false := by
  apply decide_eq_false
  split
  · simp
  · next hempty =>
    intro he
    apply hempty
    have he := Option.some.inj he
    unfold userText at he
    obtain ⟨hname, hpassword⟩ := List.append_eq_nil_iff.mp he
    split at hpassword
    · next hnone => rw [hname, hnone]; rfl
    · nomatch hpassword

section User

variable (hcs : ∀ c ∈ cs, endsServer true c = false ∧ c ≠ '@')
  (htail : ∀ c ∈ tail.head?, endsServer true c = true)
include hcs htail

theorem splitUser_none : splitUser true (cs ++ tail) = (none, cs ++ tail) := by
  have hinside : ∀ c ∈ cs, (!endsServer true c) = true := fun c hc => by simp [(hcs c hc).1]
  have hend : ∀ c ∈ tail.head?, (!endsServer true c) = false := fun c hc => by simp [htail c hc]
  have hsign : cs.contains '@' = false := by
    simp
    exact fun hmem => (hcs _ hmem).2 rfl
  unfold splitUser
  rw [Text.takeWhile_append hinside hend]
  simp only [hsign, Bool.false_eq_true, if_false]

/-- What stands before the last `@` is the user information. -/
theorem splitUser_some {user : List Char} (huser : ∀ c ∈ user, endsServer true c = false) :
    splitUser true (user ++ '@' :: cs ++ tail) = (some user, cs ++ tail) := by
  have hinside : ∀ c ∈ user ++ '@' :: cs, (!endsServer true c) = true := by
    intro c hc
    rcases List.mem_append.mp hc with hc | hc
    · simp [huser c hc]
    · rcases List.mem_cons.mp hc with rfl | hc
      · decide
      · simp [(hcs c hc).1]
  have hend : ∀ c ∈ tail.head?, (!endsServer true c) = false := fun c hc => by simp [htail c hc]
  have hsign : (user ++ '@' :: cs).contains '@' = true := by simp
  -- The host is found from behind, up to the last `@`; all else is counted by its length.
  have hhost : ((user ++ '@' :: cs).reverse.takeWhile (· ≠ '@')).reverse = cs := by
    rw [List.reverse_append, List.reverse_cons, List.append_assoc,
      Text.takeWhile_append (by simpa using fun c hc => (hcs c hc).2) (by simp),
      List.reverse_reverse]
  have hlength : (user ++ '@' :: cs).length = user.length + 1 + cs.length := by grind
  have htake : (user ++ '@' :: cs).take user.length = user := List.take_left
  have hdrop : (user ++ '@' :: cs ++ tail).drop (user.length + 1) = cs ++ tail := by
    rw [List.append_assoc, List.drop_append]
    simp
  unfold splitUser
  rw [Text.takeWhile_append hinside hend]
  simp only [hsign, if_true, hhost, hlength]
  rw [show user.length + 1 + cs.length - cs.length - 1 = user.length by omega,
    show user.length + 1 + cs.length - cs.length = user.length + 1 by omega, htake, hdrop]

theorem splitUser_userChars (h : u.Regular) :
    splitUser true (u.userChars ++ (cs ++ tail)) =
      (if u.username.isEmpty && u.password.isEmpty then none else some u.userText, cs ++ tail) := by
  unfold userChars
  by_cases hempty : (u.username.isEmpty && u.password.isEmpty) = true
  · rw [if_pos hempty, if_pos hempty]
    rw [List.nil_append]
    exact splitUser_none hcs htail
  · have htext : u.username ++ (if u.password.isEmpty then [] else ':' :: u.password) ++ ['@'] ++
        (cs ++ tail) = u.userText ++ '@' :: cs ++ tail := by
      simp [userText]
    rw [if_neg hempty, if_neg hempty, htext]
    exact splitUser_some hcs htail fun c hc => (not_endsServer_of_mem_userText h hc).1

end User

theorem readPort_portChars {port : Nat} (hport : port ≤ 65535)
    (hdefault : defaultPort? u.scheme ≠ some port)
    (htail : ∀ c ∈ tail.head?, endsServer true c = true) :
    readPort u.scheme (Text.numeral port ++ tail) = .ok (some port, tail) := by
  have hdigits : ∀ c ∈ Text.numeral port, c.isDigit = true :=
    fun c hc => Text.isDigit_of_mem_numeral hc
  have hend : ∀ c ∈ tail.head?, c.isDigit = false :=
    fun c hc => not_isDigit_of_endsServer (htail c hc)
  have hany : tail.head?.any (fun c => !endsServer true c) = false := by
    cases hhead : tail.head? with
    | none => rfl
    | some c => simp [htail c hhead]
  unfold readPort
  rw [Text.takeWhile_append hdigits hend, Text.dropWhile_append hdigits hend]
  simp only [Text.numeralValue_numeral, hany]
  rw [if_neg (by omega), if_neg Bool.false_ne_true,
    if_neg (by simp [Text.numeral_ne_nil, hdefault])]

theorem not_endsServer_of_mem_portChars {c : Char} (hc : c ∈ u.portChars) :
    endsServer true c = false ∧ c ≠ '@' := by
  unfold portChars at hc
  split at hc
  · rcases List.mem_cons.mp hc with rfl | hc
    · decide
    · obtain ⟨n, hn, rfl⟩ := Domain.exists_digit (Text.isDigit_of_mem_numeral hc)
      have hdigit : ∀ n < 10, endsServer true (Char.ofNat (48 + n)) = false ∧
          Char.ofNat (48 + n) ≠ '@' := by decide
      exact hdigit n hn
  · nomatch hc

/-- Nothing inside host and port ends them, nor is it taken for user information. -/
theorem not_endsServer_of_mem_server {host : Host} (h : host.Regular) :
    ∀ c ∈ host.chars ++ u.portChars, endsServer true c = false ∧ c ≠ '@' := by
  intro c hc
  rcases List.mem_append.mp hc with hc | hc
  · exact not_endsServer_of_isHostChar (Host.isHostChar_of_mem h c hc)
  · exact not_endsServer_of_mem_portChars hc

/-- What comes behind scheme and slashes is read as it has been written. -/
theorem readServer_chars (h : u.Regular) {host : Host} (hhost : u.host = some host)
    (hregular : host.Regular) :
    readServer u.scheme (u.userChars ++ (host.chars ++ (u.portChars ++
      (u.path.chars ++ (u.queryChars ++ u.fragmentChars))))) = .ok u := by
  obtain ⟨segments, hpath, hne, hsegments⟩ := h.path
  have hspecial := isSpecialScheme_of_isWeb h.web
  have hsplitPath := splitPath_chars hsegments (head?_tail u)
  have hreadPath := readPath_chars h.web hne hsegments
  obtain ⟨ds, htail⟩ : ∃ ds, u.path.chars ++ (u.queryChars ++ u.fragmentChars) = '/' :: ds := by
    obtain ⟨segment, later, rfl⟩ := List.exists_cons_of_ne_nil hne
    rw [hpath]
    exact ⟨_, rfl⟩
  have hends : ∀ c ∈ ('/' :: ds).head?, endsServer true c = true := by
    intro c hc
    cases hc
    rfl
  have huser := splitUser_userChars (not_endsServer_of_mem_server (u := u) hregular) hends h
  rw [List.append_assoc] at huser
  have hhostEnd : ∀ c ∈ (u.portChars ++ '/' :: ds).head?,
      (endsServer true c || c = ':') = true := by
    intro c hc
    unfold portChars at hc
    cases hp : u.port <;> (rw [hp] at hc; cases hc; rfl)
  have hhostChars := Host.splitHost_chars hregular hhostEnd
  have hnotEmpty : decide (host = Host.empty) = false := by
    apply decide_eq_false
    rintro rfl
    exact hregular
  have hname : host.chars.isEmpty = false := by
    simpa using Host.chars_ne_nil hregular
  have hresult : withTail
      { scheme := u.scheme, username := u.username, password := u.password, host := some host,
        port := u.port, path := readPath u.scheme (splitPath ('/' :: ds)).1 }
      (splitPath ('/' :: ds)).2 = u := by
    rw [← htail, hpath, hsplitPath, hreadPath, ← hpath, ← hhost]
    exact withTail_chars h
  -- Each part is split off the front of what is left, and the path begins where the server ends.
  rw [htail]
  unfold readServer
  simp only [hspecial, huser, hhostChars, readUser_getD h, Host.readHost_chars hregular,
    noUser_getD u, hname, hnotEmpty, Bool.and_false, Bool.false_and, Bool.false_eq_true, if_true,
    if_false, bind, Except.bind]
  cases hport : u.port with
  | none =>
    have hchars : u.portChars = [] := by rw [portChars, hport]
    rw [hport] at hresult
    rw [hchars]
    exact congrArg Except.ok hresult
  | some port =>
    have hchars : u.portChars = ':' :: Text.numeral port := by rw [portChars, hport]
    obtain ⟨hle, hdefault⟩ := h.port port hport
    rw [hport] at hresult
    rw [hchars]
    simp only [List.cons_append, readPort_portChars hle hdefault hends]
    exact congrArg Except.ok hresult

/-! ### Characters that count -/

/-- Are these neither blanks nor controls? -/
def Visible (cs : List Char) : Prop := ∀ c ∈ cs, 0x20 < c.toNat

theorem Visible.nil : Visible [] := fun _ hc => nomatch hc

theorem Visible.cons {c : Char} (hc : 0x20 < c.toNat) (h : Visible cs) : Visible (c :: cs) := by
  intro d hd
  rcases List.mem_cons.mp hd with rfl | hd
  · exact hc
  · exact h d hd

theorem Visible.append (h : Visible cs) (hrest : Visible rest) : Visible (cs ++ rest) := by
  intro c hc
  rcases List.mem_append.mp hc with hc | hc
  · exact h c hc
  · exact hrest c hc

theorem Visible.dropWhile (h : Visible cs) :
    cs.dropWhile (fun c => decide (c.toNat ≤ 0x20)) = cs := by
  cases cs with
  | nil => rfl
  | cons c cs =>
    have hc := h c List.mem_cons_self
    rw [List.dropWhile_cons, if_neg (by simpa using hc)]

/-- There are no line breaks among visible characters. -/
theorem Visible.filter (h : Visible cs) :
    (cs.filter fun c => !(c = '\t' || c = '\n' || c = '\r')) = cs := by
  rw [List.filter_eq_self]
  intro c hc
  have hc := h c hc
  have hne (d : Char) (hd : d.toNat ≤ 0x20) : c ≠ d := by
    rintro rfl
    omega
  simp [hne '\t' (by decide), hne '\n' (by decide), hne '\r' (by decide)]

/-- In a visible text all characters count. -/
theorem significant_eq_self {s : String} (h : Visible s.toList) : significant s = s.toList := by
  have hreverse : Visible s.toList.reverse := fun c hc => h c (List.mem_reverse.mp hc)
  unfold significant
  simp only [h.dropWhile, hreverse.dropWhile, List.reverse_reverse]
  exact h.filter

theorem visible_of_not_isControl {c : Char} (h : Percent.isControl c = false) (hblank : c ≠ ' ') :
    0x20 < c.toNat := by
  have hne : c.toNat ≠ 0x20 := fun he => hblank (Char.toNat_inj.mp he)
  simp [Percent.isControl] at h
  omega

theorem visible_of_inFragment {c : Char} (h : Percent.inFragment c = false) : 0x20 < c.toNat := by
  simp only [Percent.inFragment, Bool.or_eq_false_iff, decide_eq_false_iff_not] at h
  exact visible_of_not_isControl h.1.1.1.1.1 h.1.1.1.1.2

theorem visible_of_inPath {c : Char} (h : Percent.inPath c = false) : 0x20 < c.toNat := by
  simp only [Percent.inPath, Bool.or_eq_false_iff] at h
  exact visible_of_inFragment h.1.1.1.1

theorem visible_of_inUserInfo {c : Char} (h : Percent.inUserInfo c = false) : 0x20 < c.toNat := by
  simp only [Percent.inUserInfo, Bool.or_eq_false_iff] at h
  apply visible_of_inPath
  grind

theorem visible_of_inSpecialQuery {c : Char} (h : Percent.inSpecialQuery c = false) :
    0x20 < c.toNat := by
  simp only [Percent.inSpecialQuery, Percent.inQuery, Bool.or_eq_false_iff,
    decide_eq_false_iff_not] at h
  exact visible_of_not_isControl h.1.1.1.1.1.1 h.1.1.1.1.1.2

theorem visible_of_isHostChar {c : Char} (h : Host.isHostChar c = true) : 0x20 < c.toNat := by
  by_cases hlow : c.toNat ≤ 0x20
  · have hne (d : Char) (hd : 0x20 < d.toNat) : c ≠ d := by
      rintro rfl
      omega
    simp [Host.isHostChar, Domain.isForbidden, hlow, hne '[' (by decide), hne ']' (by decide),
      hne ':' (by decide)] at h
  · omega

theorem chars_eq {host : Host} (hhost : u.host = some host) :
    u.chars = u.scheme ++ ':' :: '/' :: '/' :: (u.userChars ++ (host.chars ++ (u.portChars ++
      (u.path.chars ++ (u.queryChars ++ u.fragmentChars))))) := by
  unfold chars serverChars
  rw [hhost]
  simp only [List.cons_append, List.append_assoc]

theorem visible_userChars (h : u.Regular) : Visible u.userChars := by
  have hname : Visible u.username := fun c hc => visible_of_inUserInfo (h.username c hc)
  have hpassword : Visible u.password := fun c hc => visible_of_inUserInfo (h.password c hc)
  unfold userChars
  split
  · exact .nil
  · refine .append (.append hname ?_) (.cons (by decide) .nil)
    split
    · exact .nil
    · exact .cons (by decide) hpassword

theorem visible_portChars (u : Url) : Visible u.portChars := by
  unfold portChars
  split
  · refine .cons (by decide) fun c hc => ?_
    have hdigit := Text.isDigit_of_mem_numeral hc
    simp only [Char.isDigit, Bool.and_eq_true, decide_eq_true_eq] at hdigit
    have hlow : 48 ≤ c.toNat := hdigit.1
    omega
  · exact .nil

theorem visible_pathChars (h : ∀ segment ∈ segments, RegularSegment segment) :
    Visible (UrlPath.segments segments).chars := by
  intro c hc
  obtain ⟨segment, hsegment, hc⟩ := List.mem_flatMap.mp hc
  have hclean : Visible segment :=
    fun d hd => visible_of_inPath ((h segment hsegment).clean d hd).1
  exact Visible.cons (by decide) hclean c hc

theorem visible_queryChars (h : u.Regular) : Visible u.queryChars := by
  unfold queryChars
  cases hq : u.query with
  | none => exact .nil
  | some query =>
    exact .cons (by decide) fun c hc => visible_of_inSpecialQuery (h.query query hq c hc)

theorem visible_fragmentChars (h : u.Regular) : Visible u.fragmentChars := by
  unfold fragmentChars
  cases hf : u.fragment with
  | none => exact .nil
  | some fragment =>
    exact .cons (by decide) fun c hc => visible_of_inFragment (h.fragment fragment hf c hc)

/-- All characters count in the text of a regular URL. -/
theorem visible_chars (h : u.Regular) : Visible u.chars := by
  obtain ⟨host, hhost, hregular⟩ := h.host
  obtain ⟨segments, hpath, -, hsegments⟩ := h.path
  have hscheme : Visible u.scheme := by
    have hweb := h.web
    simp only [isWeb, Bool.or_eq_true, decide_eq_true_eq] at hweb
    rcases hweb with he | he <;> (rw [he]; exact Text.forall_of_all (by decide))
  have hhostChars : Visible host.chars :=
    fun c hc => visible_of_isHostChar (Host.isHostChar_of_mem hregular c hc)
  rw [chars_eq hhost, hpath]
  exact .append hscheme <| .cons (by decide) <| .cons (by decide) <| .cons (by decide) <|
    .append (visible_userChars h) <| .append hhostChars <| .append (visible_portChars u) <|
    .append (visible_pathChars hsegments) <|
    .append (visible_queryChars h) (visible_fragmentChars h)

/-- The slashes in front of the server are dropped, and nothing else. -/
theorem dropWhile_slashes (h : u.Regular) {host : Host} (hregular : host.Regular) :
    ('/' :: '/' :: (u.userChars ++ (host.chars ++ rest))).dropWhile (isSlash true) =
      u.userChars ++ (host.chars ++ rest) := by
  have hfront : ∀ c ∈ (u.userChars ++ (host.chars ++ rest)).head?, isSlash true c = false := by
    have hslash {c : Char} (hc : endsServer true c = false) : isSlash true c = false := by
      simp only [endsServer, Bool.or_eq_false_iff] at hc
      exact hc.1.1
    intro c hc
    -- In front stands the user information, or else the host, which is not empty.
    unfold userChars at hc
    split at hc
    · obtain ⟨d, ds, hd⟩ := List.exists_cons_of_ne_nil (Host.chars_ne_nil hregular)
      rw [hd] at hc
      cases hc
      exact hslash (not_endsServer_of_isHostChar
        (Host.isHostChar_of_mem hregular c (hd ▸ List.mem_cons_self))).1
    · have hmem : c ∈ u.userText ++ ['@'] := by
        rw [List.head?_append] at hc
        cases hhead : (u.userText ++ ['@']).head? with
        | none => simp at hhead
        | some d =>
          rw [userText] at hhead
          rw [hhead] at hc
          cases hc
          exact List.mem_of_mem_head? hhead
      rcases List.mem_append.mp hmem with hc | hc
      · exact hslash (not_endsServer_of_mem_userText h hc).1
      · rw [List.mem_singleton] at hc
        subst hc
        decide
  exact Text.dropWhile_append (show ∀ c ∈ ['/', '/'], isSlash true c = true from
    Text.forall_of_all (by decide)) hfront

/-- A regular URL is read from its text. -/
theorem read_text (h : u.Regular) : read u.text = .ok u := by
  obtain ⟨host, hhost, hregular⟩ := h.host
  have hsignificant : significant u.text = u.chars := by
    unfold text
    rw [significant_eq_self (by rw [String.toList_ofList]; exact visible_chars h),
      String.toList_ofList]
  have hscheme (rest : List Char) :
      splitScheme (u.scheme ++ ':' :: rest) = some (u.scheme, rest) := by
    have hweb := h.web
    simp only [isWeb, Bool.or_eq_true, decide_eq_true_eq] at hweb
    rcases hweb with he | he <;> (rw [he]; rfl)
  -- With scheme and slashes gone, only the server and the rest are left.
  have hserver := readServer_chars h hhost hregular
  unfold read
  rw [hsignificant, chars_eq hhost, hscheme]
  dsimp only
  rw [isFileScheme_of_isWeb h.web, isSpecialScheme_of_isWeb h.web, if_neg Bool.false_ne_true,
    if_pos rfl, dropWhile_slashes h hregular]
  exact hserver

end Url
end CodeQuality
