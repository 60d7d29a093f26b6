import CodeQuality.Proofs.Url.Place
import CodeQuality.Proofs.Url.Scheme
import CodeQuality.Proofs.Url.Server

/-!
# Paths below a base

A path is appended to the text of a base, and the text that results is read. No plain path is in
the way of that: the call succeeds and stays at the server of the base. Where the base ends in its
path, that path is led on. Where it has a query or a fragment, it is these that are led on, and the
call does not leave the path of the base.

* `PlainPath` — plain names with slashes between them.
* `Client.endpoint_plain` — the URL of a plain path.
* `Client.not_endpoint_below` — a base with a query, whose path is not led on.
-/

namespace CodeQuality

/-- May `c` stand in a plain name? -/
def isPlain (c : Char) : Bool := c.isAlphanum || c = '_' || c = '-'

/-- A path of plain names with a slash between them, behind any number of slashes. -/
structure PlainPath where
  slashes : Nat
  names : List (List Char)
  ne_nil : ∀ name ∈ names, name ≠ []
  plain : ∀ name ∈ names, name.all isPlain = true

/-- A plain character stands for itself wherever a path may come to stand in a URL. -/
theorem isPlain_spec {c : Char} (h : isPlain c = true) :
    (Percent.inPath c = false ∧ Url.isSlash true c = false) ∧
      Percent.inSpecialQuery c = false ∧ c.toLower ≠ '.' ∧ c.toLower ≠ '%' := by
  have hascii : ∀ n < 128, isPlain (Char.ofNat n) = true →
      (Percent.inPath (Char.ofNat n) = false ∧ Url.isSlash true (Char.ofNat n) = false) ∧
        Percent.inSpecialQuery (Char.ofNat n) = false ∧ (Char.ofNat n).toLower ≠ '.' ∧
        (Char.ofNat n).toLower ≠ '%' := by decide +kernel
  have hlow : c.toNat < 128 := by
    simp only [isPlain, Bool.or_eq_true, decide_eq_true_eq] at h
    rcases h with (h | rfl) | rfl
    · exact (Url.ascii_of_isAlphanum h).2
    · decide
    · decide
  have hc := hascii c.toNat hlow
  rw [Char.ofNat_toNat] at hc
  exact hc h

namespace PlainPath

variable {path : PlainPath} {name : List Char}

def text (path : PlainPath) : String :=
  String.ofList (List.replicate path.slashes '/' ++ Text.join '/' path.names)

theorem isPlain_of_mem (path : PlainPath) (hname : name ∈ path.names) :
    ∀ c ∈ name, isPlain c = true := List.all_eq_true.mp (path.plain name hname)

/-- A plain name means no other segment. -/
theorem regularSegment_of_isPlain (h : ∀ c ∈ name, isPlain c = true) : Url.RegularSegment name := by
  -- All of those begin with a point or an escape.
  have hnot {specials : List (List Char)}
      (hall : ∀ special ∈ specials, special.head? = some '.' ∨ special.head? = some '%') :
      name.map Char.toLower ∉ specials := by
    intro hmem
    cases name with
    | nil => rcases hall _ hmem with hhead | hhead <;> nomatch hhead
    | cons c name =>
      have hc := (isPlain_spec (h c List.mem_cons_self)).2.2
      exact (hall _ hmem).elim (fun hhead => hc.1 (Option.some.inj hhead))
        fun hhead => hc.2 (Option.some.inj hhead)
  exact ⟨fun c hc => (isPlain_spec (h c hc)).1, decide_eq_false (hnot (by decide +kernel)),
    decide_eq_false (hnot (by decide +kernel))⟩

/-- The segments that a path consists of behind its slashes. -/
def segments (path : PlainPath) : List (List Char) :=
  if path.names = [] then [[]] else path.names

theorem segments_ne_nil (path : PlainPath) : path.segments ≠ [] := by
  unfold segments
  split
  · exact List.cons_ne_nil _ _
  · assumption

theorem regularSegment_of_mem_segments (h : name ∈ path.segments) : Url.RegularSegment name := by
  unfold segments at h
  split at h
  · obtain rfl := List.mem_singleton.mp h
    exact Url.regularSegment_nil
  · exact regularSegment_of_isPlain (path.isPlain_of_mem h)

theorem join_segments (path : PlainPath) :
    Text.join '/' path.segments = Text.join '/' path.names := by
  unfold segments
  split
  · next h => rw [h]; rfl
  · rfl

/-- A path without its leading slashes. -/
theorem dropWhile_text (path : PlainPath) :
    path.text.toList.dropWhile (· = '/') = Text.join '/' path.names := by
  have hhead : ∀ c ∈ (Text.join '/' path.names).head?, decide (c = '/') = false := by
    intro c hc
    cases hnames : path.names with
    | nil => rw [hnames] at hc; nomatch hc
    | cons name names =>
      have hmem : name ∈ path.names := hnames ▸ List.mem_cons_self
      obtain ⟨d, ds, rfl⟩ := List.exists_cons_of_ne_nil (path.ne_nil name hmem)
      rw [hnames, Text.join_cons_cons] at hc
      cases hc
      have hplain := (isPlain_spec (path.isPlain_of_mem hmem c List.mem_cons_self)).1.2
      apply decide_eq_false
      rintro rfl
      nomatch hplain
  rw [text, String.toList_ofList]
  exact Text.dropWhile_append (fun c hc => decide_eq_true (List.eq_of_mem_replicate hc)) hhead

end PlainPath

namespace Text

theorem flatMap_separator_cons {separator : Char} {parts : List (List Char)} (h : parts ≠ []) :
    parts.flatMap (separator :: ·) = separator :: join separator parts := by
  induction parts with
  | nil => exact absurd rfl h
  | cons part parts ih =>
    cases parts with
    | nil => simp [join]
    | cons next parts =>
      rw [List.flatMap_cons, ih (List.cons_ne_nil _ _), join_cons separator part (by simp)]
      rfl

end Text

namespace Client

variable {c : Client} {path : String}

/-- `front` led on by a path, with one slash between them. -/
def leadOn (front path : List Char) : List Char :=
  Text.dropEndWhile (· = '/') front ++ '/' :: path.dropWhile (· = '/')

theorem appendPath_eq_append (base path : String) :
    appendPath base path = Text.trimEndWhile (· = '/') base ++
      String.ofList ('/' :: path.toList.dropWhile (· = '/')) := by
  apply String.toList_injective
  simp [appendPath, Text.trimStartWhile]

theorem endpoint_of_appendPath {url : Url} (htext : appendPath c.baseUrl.text path = url.text)
    (h : url.Regular) : c.endpoint path = .ok url := by
  rw [endpoint, htext, Url.read_text h]
  rfl

theorem connect_of_read {base : String} {u : Url} (h : Url.read base = .ok u)
    (options : ClientOptions) (sink : Sink) (transport : Http.Transport) :
    connect base options sink transport = .ok ⟨u, options, sink, transport⟩ := by
  rw [connect, h]

theorem regular_of_connect {base : String} {options : ClientOptions} {sink : Sink}
    {transport : Http.Transport} (h : connect base options sink transport = .ok c)
    (hweb : c.baseUrl.isWeb = true) : c.baseUrl.Regular := by
  unfold connect at h
  split at h
  · next hread =>
    cases h
    exact Url.regular_of_read hread hweb
  · nomatch h

/-- What may stand in a part of a URL may do so in the part led on. -/
theorem forall_mem_leadOn {p : Char → Bool} {front : List Char} (path : PlainPath)
    (hslash : p '/' = false) (hplain : ∀ d, isPlain d = true → p d = false)
    (hfront : ∀ d ∈ front, p d = false) : ∀ d ∈ leadOn front path.text.toList, p d = false := by
  intro d hd
  rw [leadOn, path.dropWhile_text] at hd
  rcases List.mem_append.mp hd with hd | hd
  · exact hfront d (Text.mem_of_mem_dropEndWhile hd)
  rcases List.mem_cons.mp hd with rfl | hd
  · exact hslash
  rcases Text.mem_join hd with rfl | ⟨name, hname, hd⟩
  · exact hslash
  · exact hplain d (path.isPlain_of_mem hname d hd)

section

variable (hbase : c.baseUrl.Regular) (path : PlainPath)
include hbase

theorem endpoint_of_fragment {fragment : List Char}
    (hfragment : c.baseUrl.fragment = some fragment) :
    c.endpoint path.text =
      .ok { c.baseUrl with fragment := leadOn fragment path.text.toList } := by
  have hplain (d : Char) (hd : isPlain d = true) : Percent.inFragment d = false := by
    have hclean := (isPlain_spec hd).1.1
    simp only [Percent.inPath, Bool.or_eq_false_iff] at hclean
    exact hclean.1.1.1.1
  have hregular := hbase.withFragment
    (forall_mem_leadOn path (by decide) hplain (hbase.fragment fragment hfragment))
  refine endpoint_of_appendPath ?_ hregular
  rw [appendPath_eq_append, Url.text_fragment hfragment, String.toList_ofList, leadOn]

theorem endpoint_of_query {query : List Char} (hquery : c.baseUrl.query = some query)
    (hfragment : c.baseUrl.fragment = none) : c.endpoint path.text =
      .ok { c.baseUrl with query := leadOn query path.text.toList } := by
  have hregular := hbase.withQuery
    (forall_mem_leadOn path (by decide) (fun d hd => (isPlain_spec hd).2.1)
      (hbase.query query hquery))
  refine endpoint_of_appendPath ?_ hregular
  rw [appendPath_eq_append, Url.text_query hquery hfragment, String.toList_ofList, leadOn]

theorem endpoint_of_bare (hquery : c.baseUrl.query = none) (hfragment : c.baseUrl.fragment = none) :
    c.endpoint path.text = .ok (c.baseUrl.below path.segments) ∧
      (c.baseUrl.below path.segments).path.chars =
        leadOn c.baseUrl.path.chars path.text.toList := by
  have hslashes : path.segments.flatMap ('/' :: ·) =
      '/' :: path.text.toList.dropWhile (· = '/') := by
    rw [Text.flatMap_separator_cons path.segments_ne_nil, path.join_segments, path.dropWhile_text]
  obtain ⟨segments, hpath, -, hsegments⟩ := hbase.path
  constructor
  · have hregular := Url.regular_below hbase path.segments_ne_nil
      fun _ h => PlainPath.regularSegment_of_mem_segments h
    refine endpoint_of_appendPath ?_ hregular
    rw [appendPath_eq_append, Url.text_below hbase hquery hfragment, hslashes]
  · rw [Url.below_eq hpath, hpath, leadOn, ← hslashes]
    show (Url.dropEmpty segments ++ path.segments).flatMap _ =
      Text.dropEndWhile _ (segments.flatMap _) ++ path.segments.flatMap _
    rw [Url.dropEndWhile_path hsegments, List.flatMap_append]

end

/-- A call of a plain path succeeds and stays at the server of the base. The path of the base is led
on if there is neither query nor fragment, and is kept if there is. -/
theorem endpoint_plain {base : String} {options : ClientOptions} {sink : Sink}
    {transport : Http.Transport} (hconnect : connect base options sink transport = .ok c)
    (hweb : c.baseUrl.isWeb = true) (path : PlainPath) :
    ∃ url, c.endpoint path.text = .ok url ∧ url.SameServer c.baseUrl ∧
      match c.baseUrl.query, c.baseUrl.fragment with
      | none, none => url.path.chars = leadOn c.baseUrl.path.chars path.text.toList ∧
          url.query = none ∧ url.fragment = none
      | some query, none => url = { c.baseUrl with query := leadOn query path.text.toList }
      | _, some fragment =>
          url = { c.baseUrl with fragment := leadOn fragment path.text.toList } := by
  have hbase := regular_of_connect hconnect hweb
  cases hfragment : c.baseUrl.fragment with
  | some fragment =>
    refine ⟨_, endpoint_of_fragment hbase path hfragment, ⟨rfl, rfl, rfl, rfl, rfl⟩, ?_⟩
    cases c.baseUrl.query <;> rfl
  | none =>
    cases hquery : c.baseUrl.query with
    | some query =>
      exact ⟨_, endpoint_of_query hbase path hquery hfragment, ⟨rfl, rfl, rfl, rfl, rfl⟩, rfl⟩
    | none =>
      obtain ⟨hurl, hpath⟩ := endpoint_of_bare hbase path hquery hfragment
      have hsame : (c.baseUrl.below path.segments).SameServer c.baseUrl ∧
          (c.baseUrl.below path.segments).query = c.baseUrl.query ∧
          (c.baseUrl.below path.segments).fragment = c.baseUrl.fragment := by
        unfold Url.below
        split <;> exact ⟨⟨rfl, rfl, rfl, rfl, rfl⟩, rfl, rfl⟩
      exact ⟨_, hurl, hsame.1, hpath, hsame.2.1.trans hquery, hsame.2.2.trans hfragment⟩

/-- A base with a user, a port and a slash at its end, and a path behind two slashes. -/
theorem endpoint_plain_context :
    let base := "HTTP://u@Host:8080/sonar/%7E/"
    let path : PlainPath := ⟨2, ["api", "v2_x-y"].map String.toList, by decide, by decide⟩
    ∃ c url, connect base {} .logger (fun _ => .unanswered) = .ok c ∧ c.baseUrl.isWeb = true ∧
      c.endpoint path.text = .ok url ∧ url.SameServer c.baseUrl ∧
      url.path.chars = "/sonar/%7E/api/v2_x-y".toList := by
  intro base path
  have hread : Url.read base = .ok
      { scheme := "http".toList, username := "u".toList, host := some (.domain "host".toList),
        port := some 8080, path := .segments ["sonar".toList, "%7E".toList, []] } := by
    apply toOption_eq_some_iff.mp
    decide +kernel
  have hconnect := connect_of_read hread {} .logger fun _ => .unanswered
  obtain ⟨url, hurl, hsame, hpath, -⟩ := endpoint_plain hconnect (by decide) path
  exact ⟨_, url, hconnect, rfl, hurl, hsame, hpath.trans (by decide)⟩

/-- The path of a base that has a query is not led on. -/
theorem not_endpoint_below : ¬ ∀ (base : String) (options : ClientOptions) (sink : Sink)
    (transport : Http.Transport) (c : Client) (path : PlainPath),
    connect base options sink transport = .ok c → c.baseUrl.isWeb = true →
      ∃ url, c.endpoint path.text = .ok url ∧ url.SameServer c.baseUrl ∧
        url.path.chars = leadOn c.baseUrl.path.chars path.text.toList := by
  intro h
  let path : PlainPath :=
    ⟨1, ["api", "measures", "search"].map String.toList, by decide, by decide⟩
  have hread : Url.read "https://example.com/sonar?x=1" = .ok
      { scheme := "https".toList, host := some (.domain "example.com".toList),
        path := .segments ["sonar".toList], query := some "x=1".toList } := by
    apply toOption_eq_some_iff.mp
    decide +kernel
  have hconnect := connect_of_read hread {} .logger fun _ => .unanswered
  obtain ⟨url, hurl, -, hpath⟩ := h _ _ _ _ _ path hconnect (by decide)
  have hkept := endpoint_of_query (regular_of_connect hconnect (by decide)) path rfl rfl
  obtain rfl := Except.ok.inj (hurl.symm.trans hkept)
  exact absurd hpath (by decide)

end Client

/-- The paths of all operations are plain. -/
theorem Operation.exists_plainPath (op : Operation) : ∃ path : PlainPath, op.path = path.text := by
  have hnames : op.path.toList.head? = some '/' ∧ ∀ name ∈ Text.split '/' op.path.toList.tail,
      name ≠ [] ∧ name.all isPlain = true := by
    cases op <;> (dsimp only [path]; decide)
  obtain ⟨rest, hrest⟩ := List.head?_eq_some_iff.mp hnames.1
  rw [hrest, List.tail_cons] at hnames
  refine ⟨⟨1, Text.split '/' rest, fun name h => (hnames.2 name h).1,
    fun name h => (hnames.2 name h).2⟩, String.toList_injective ?_⟩
  rw [hrest, PlainPath.text, String.toList_ofList, Text.join_split]
  rfl

/-- A server of the web has a URL for each operation, with a query only if its own URL has one. -/
theorem Operation.endpoint_of_web {c : Client} {text : String}
    (hread : Url.read text = .ok c.baseUrl) (hweb : c.baseUrl.isWeb = true) (op : Operation) :
    ∃ url, c.endpoint op.path = .ok url ∧ (c.baseUrl.query = none → url.query = none) := by
  have hregular := Url.regular_of_read hread hweb
  obtain ⟨path, hpath⟩ := op.exists_plainPath
  rw [hpath]
  cases hfragment : c.baseUrl.fragment with
  | some fragment => exact ⟨_, Client.endpoint_of_fragment hregular path hfragment, id⟩
  | none =>
    cases hquery : c.baseUrl.query with
    | some query => exact ⟨_, Client.endpoint_of_query hregular path hquery hfragment, nofun⟩
    | none =>
      obtain ⟨hurl, -⟩ := Client.endpoint_of_bare hregular path hquery hfragment
      refine ⟨_, hurl, fun _ => ?_⟩
      unfold Url.below
      split
      · exact hquery
      · exact hquery

end CodeQuality
