import CodeQuality.Proofs.Operations

/-!
# Where on a server a call arrives

The path of a call is appended to the text of the base. A base that ends in its path is led on by
it; a base that has a query or a fragment takes the path in there, and the call arrives at the place
that the base itself names. Hence no operation arrives where another one belongs.

* `Url.place` — a URL without what does not tell where on the server it leads.
* `Client.place_endpoint` — the place at which a call arrives.
* `Operation.path_of_place` — an operation arrives at no path but its own.
-/

namespace CodeQuality

namespace Text

variable {p : Char → Bool} {cs : List Char}

theorem mem_of_mem_dropEndWhile {c : Char} (h : c ∈ dropEndWhile p cs) : c ∈ cs := by
  induction cs with
  | nil => nomatch h
  | cons d cs ih =>
    rw [dropEndWhile_cons] at h
    split at h
    · nomatch h
    · rcases List.mem_cons.mp h with rfl | h
      · exact List.mem_cons_self
      · exact List.mem_cons_of_mem _ (ih h)

/-- Nothing is dropped before a character that is to be kept. -/
theorem dropEndWhile_append_cons {c : Char} (h : p c = false) (front cs : List Char) :
    dropEndWhile p (front ++ c :: cs) = front ++ c :: dropEndWhile p cs := by
  have hkept : dropEndWhile p (c :: cs) = c :: dropEndWhile p cs := by
    rw [dropEndWhile_cons, h, Bool.and_false, if_neg Bool.false_ne_true]
  rw [dropEndWhile_append_of_ne_nil (by rw [hkept]; exact List.cons_ne_nil _ _), hkept]

/-- So what is appended to a trimmed text stands behind what is left of the part behind such a
character. -/
theorem trimEndWhile_append_cons {c : Char} (h : p c = false) (front cs : List Char)
    (more : String) : trimEndWhile p (String.ofList (front ++ c :: cs)) ++ more =
      String.ofList (front ++ c :: (dropEndWhile p cs ++ more.toList)) := by
  apply String.toList_injective
  rw [String.toList_append, trimEndWhile, String.toList_ofList, String.toList_ofList,
    String.toList_ofList, dropEndWhile_append_cons h, List.append_assoc, List.cons_append]

/-- What is dropped from the end of a text is nothing but what may be dropped. -/
theorem exists_dropEndWhile_append (p : Char → Bool) (cs : List Char) :
    ∃ dropped, cs = dropEndWhile p cs ++ dropped ∧ ∀ c ∈ dropped, p c = true := by
  induction cs with
  | nil => exact ⟨[], rfl, nofun⟩
  | cons c cs ih =>
    obtain ⟨dropped, hcs, hdropped⟩ := ih
    rw [dropEndWhile_cons]
    split
    · next hall =>
      simp only [Bool.and_eq_true, List.isEmpty_iff] at hall
      rw [hall.1, List.nil_append] at hcs
      exact ⟨c :: dropped, by rw [hcs]; rfl, List.forall_mem_cons.mpr ⟨hall.2, hdropped⟩⟩
    · exact ⟨dropped, congrArg (c :: ·) hcs, hdropped⟩

end Text

namespace Url

variable {u : Url} {path : String}

/-- `u` without what does not tell where on the server it leads: user information, query and
fragment. -/
def place (u : Url) : Url := { Http.bare u with query := none }

/-! ### Bases with a query or a fragment -/

theorem text_fragment {fragment : List Char} (hfragment : u.fragment = some fragment)
    (path : String) :
    Text.trimEndWhile (· = '/') u.text ++ path =
      ({ u with
        fragment := some (Text.dropEndWhile (· = '/') fragment ++ path.toList) } : Url).text := by
  have hchars (fragment : List Char) : ({ u with fragment := some fragment } : Url).chars =
      (u.scheme ++ ':' :: (u.serverChars ++ u.path.chars ++ u.queryChars)) ++ '#' :: fragment := by
    rw [List.append_assoc, List.cons_append]
    rfl
  have hself : u.chars = _ := (congrArg chars (by rw [← hfragment])).trans (hchars fragment)
  rw [text, text, hchars, hself, Text.trimEndWhile_append_cons (by decide)]

theorem text_query {query : List Char} (hquery : u.query = some query)
    (hfragment : u.fragment = none) (path : String) :
    Text.trimEndWhile (· = '/') u.text ++ path =
      ({ u with query := some (Text.dropEndWhile (· = '/') query ++ path.toList) } : Url).text := by
  have hchars (query : List Char) : ({ u with query := some query } : Url).chars =
      (u.scheme ++ ':' :: (u.serverChars ++ u.path.chars)) ++ '?' :: query := by
    rw [List.append_assoc, List.cons_append, ← List.append_nil ('?' :: query)]
    unfold chars queryChars fragmentChars
    rw [hfragment]
    simp [serverChars, userChars, portChars]
  have hself : u.chars = _ := (congrArg chars (by rw [← hquery])).trans (hchars query)
  rw [text, text, hchars, hself, Text.trimEndWhile_append_cons (by decide)]

theorem Regular.withFragment (h : u.Regular) {fragment : List Char}
    (hfragment : ∀ c ∈ fragment, Percent.inFragment c = false) :
    ({ u with fragment := some fragment } : Url).Regular := by
  refine ⟨h.web, h.username, h.password, h.host, h.port, h.path, h.query, ?_⟩
  rintro _ ⟨⟩
  exact hfragment

theorem Regular.withQuery (h : u.Regular) {query : List Char}
    (hquery : ∀ c ∈ query, Percent.inSpecialQuery c = false) :
    ({ u with query := some query } : Url).Regular := by
  refine ⟨h.web, h.username, h.password, h.host, h.port, h.path, ?_, h.fragment⟩
  rintro _ ⟨⟩
  exact hquery

end Url

theorem IsPath.not_inFragment {path : String} (h : IsPath path) :
    ∀ c ∈ path.toList, Percent.inFragment c = false := by
  obtain ⟨parts, -, rfl, hparts⟩ := h
  intro c hc
  rw [String.toList_ofList] at hc
  obtain ⟨part, hpart, hc⟩ := List.mem_flatMap.mp hc
  rcases List.mem_cons.mp hc with rfl | hc
  · decide
  · have hclean := ((hparts part hpart).1.clean c hc).1
    simp only [Percent.inPath, Bool.or_eq_false_iff] at hclean
    exact hclean.1.1.1.1

namespace Client

variable {c : Client} {path : String}

theorem endpoint_of_text {url : Url} (hpath : IsPath path)
    (htext : Text.trimEndWhile (· = '/') c.baseUrl.text ++ path = url.text) (h : url.Regular) :
    c.endpoint path = .ok url := by
  rw [endpoint, appendPath_eq _ hpath, htext, Url.read_text h]
  rfl

/-- A call arrives at its path below the base, or, where that has a query or a fragment, at the base
itself. -/
theorem place_endpoint (hbase : c.baseUrl.Regular) (hpath : IsPath path)
    (hquery : ∀ d ∈ path.toList, Percent.inSpecialQuery d = false) :
    ∃ url, c.endpoint path = .ok url ∧
      if c.baseUrl.query = none ∧ c.baseUrl.fragment = none then
        url.place.text = Text.trimEndWhile (· = '/') c.baseUrl.place.text ++ path
      else url.place = c.baseUrl.place := by
  have hmem {p : Char → Bool} {cs : List Char} (hcs : ∀ d ∈ cs, p d = false)
      (hp : ∀ d ∈ path.toList, p d = false) :
      ∀ d ∈ Text.dropEndWhile (· = '/') cs ++ path.toList, p d = false := by
    intro d hd
    rcases List.mem_append.mp hd with hd | hd
    · exact hcs d (Text.mem_of_mem_dropEndWhile hd)
    · exact hp d hd
  cases hfragment : c.baseUrl.fragment with
  | some fragment =>
    have hregular := hbase.withFragment
      (hmem (hbase.fragment fragment hfragment) hpath.not_inFragment)
    refine ⟨_, endpoint_of_text hpath (Url.text_fragment hfragment path) hregular, ?_⟩
    rw [if_neg (fun h => nomatch h.2)]
    rfl
  | none =>
    cases hbaseQuery : c.baseUrl.query with
    | some query =>
      have hregular := hbase.withQuery (hmem (hbase.query query hbaseQuery) hquery)
      have htext := Url.text_query hbaseQuery hfragment path
      refine ⟨_, endpoint_of_text hpath htext hregular, ?_⟩
      rw [if_neg (fun h => nomatch h.1)]
      rfl
    | none =>
      obtain ⟨url, hurl, hnone, haddress⟩ := endpoint_eq hbase hbaseQuery hfragment hpath
      refine ⟨url, hurl, ?_⟩
      have hplace (u : Url) (h : u.query = none) : u.place = Http.bare u := by
        rw [Url.place, ← h]
        rfl
      rw [if_pos ⟨rfl, rfl⟩, hplace url hnone, hplace c.baseUrl hbaseQuery]
      exact haddress

end Client

namespace Operation

variable {c : Client} {op : Operation} {url : Url}

theorem path_not_inSpecialQuery (op : Operation) :
    ∀ c ∈ op.path.toList, Percent.inSpecialQuery c = false := by
  apply Text.forall_of_all
  cases op <;> (dsimp only [path]; decide)

/-- Neither its arguments nor the user are part of the place at which a request arrives. -/
theorem place_request (op : Operation) (url : Url) : (op.request url).url.place = url.place := by
  unfold request
  split <;> rfl

/-- A base does not lie below itself. -/
theorem place_ne_below (base : Url) (hpath : IsPath op.path) :
    base.place.text ≠ Text.trimEndWhile (· = '/') base.place.text ++ op.path := by
  obtain ⟨parts, hne, hparts, hregular⟩ := hpath
  obtain ⟨part, later, rfl⟩ := List.exists_cons_of_ne_nil hne
  obtain ⟨hclean, hpart⟩ := hregular part List.mem_cons_self
  obtain ⟨d, ds, rfl⟩ := List.exists_cons_of_ne_nil hpart
  obtain ⟨dropped, htext, hdropped⟩ :=
    Text.exists_dropEndWhile_append (· = '/') base.place.text.toList
  intro h
  have htail : dropped = op.path.toList := by
    have hlists := congrArg String.toList h
    rw [String.toList_append, Text.trimEndWhile, String.toList_ofList] at hlists
    exact List.append_cancel_left (htext.symm.trans hlists)
  -- Only slashes can be dropped, and the path has something else in it.
  have hd : d ∈ dropped := by
    rw [htail, hparts, String.toList_ofList]
    simp
  have hslash := hdropped d hd
  rw [decide_eq_true_iff] at hslash
  subst hslash
  exact absurd (hclean.clean '/' List.mem_cons_self).2 (by decide)

/-- An operation arrives at no other path below the base than at its own. -/
theorem path_of_place (hbase : c.baseUrl.Regular) (hurl : c.endpoint op.path = .ok url)
    {other : Operation} (h : (op.request url).url.place.text =
      Text.trimEndWhile (· = '/') c.baseUrl.place.text ++ other.path) : op.path = other.path := by
  obtain ⟨found, hfound, hplace⟩ :=
    Client.place_endpoint hbase op.isPath_path op.path_not_inSpecialQuery
  obtain rfl := Except.ok.inj (hurl.symm.trans hfound)
  rw [place_request] at h
  split at hplace
  · exact String.append_right_inj _ |>.mp (hplace.symm.trans h)
  · rw [hplace] at h
    exact absurd h (place_ne_below c.baseUrl other.isPath_path)

/-- Where the base ends in its path, the place at which an operation arrives ends in the path of the
operation. -/
theorem place_of_clean (hbase : c.baseUrl.Regular) (hurl : c.endpoint op.path = .ok url)
    (hquery : c.baseUrl.query = none) (hfragment : c.baseUrl.fragment = none) :
    ∃ front, (op.request url).url.place.text = front ++ op.path := by
  obtain ⟨found, hfound, hplace⟩ :=
    Client.place_endpoint hbase op.isPath_path op.path_not_inSpecialQuery
  obtain rfl := Except.ok.inj (hurl.symm.trans hfound)
  rw [if_pos ⟨hquery, hfragment⟩] at hplace
  rw [place_request]
  exact ⟨_, hplace⟩

end Operation
end CodeQuality
