import CodeQuality.Client
import CodeQuality.Proofs.Journal
import CodeQuality.Proofs.Url.Reader

/-!
# Where a client sends its requests

The URL of a call is found by appending a path to the text of the base and reading the result.
Since the base has been read, that text is read as what it says: the base without slashes at its
end, and the path behind it. Each call sends one request there, unless the server cannot be
reached.

* `Client.endpoint_eq` — the URL of a path.
* `Client.sends_fetch`, `Client.sends_post` — the requests of a call.
-/

namespace CodeQuality

/-! ### Paths -/

namespace Url

variable {u : Url} {path : String} {segments : List (List Char)}

/-- Segments without the empty ones at the end. -/
def dropEmpty (segments : List (List Char)) : List (List Char) :=
  segments.foldr
    (fun segment rest => if rest.isEmpty && segment.isEmpty then [] else segment :: rest) []

theorem dropEmpty_cons (segment : List Char) (segments : List (List Char)) :
    dropEmpty (segment :: segments) =
      if (dropEmpty segments).isEmpty && segment.isEmpty then []
      else segment :: dropEmpty segments := rfl

theorem mem_of_mem_dropEmpty {segment : List Char} (h : segment ∈ dropEmpty segments) :
    segment ∈ segments := by
  induction segments with
  | nil => nomatch h
  | cons first segments ih =>
    rw [dropEmpty_cons] at h
    split at h
    · nomatch h
    · rcases List.mem_cons.mp h with rfl | h
      · exact List.mem_cons_self
      · exact List.mem_cons_of_mem _ (ih h)

/-- Slashes at the end of a path are empty segments. -/
theorem dropEndWhile_path (h : ∀ segment ∈ segments, RegularSegment segment) :
    Text.dropEndWhile (· = '/') (segments.flatMap ('/' :: ·)) =
      (dropEmpty segments).flatMap ('/' :: ·) := by
  induction segments with
  | nil => rfl
  | cons segment segments ih =>
    have hsegment : ∀ c ∈ segment, decide (c = '/') = false := by
      intro c hc
      have hslash := ((h segment List.mem_cons_self).clean c hc).2
      apply decide_eq_false
      rintro rfl
      nomatch hslash
    have ih := ih fun s hs => h s (List.mem_cons_of_mem _ hs)
    have hempty : (segment ++ (dropEmpty segments).flatMap ('/' :: ·)).isEmpty =
        ((dropEmpty segments).isEmpty && segment.isEmpty) := by
      cases segment <;> cases dropEmpty segments <;> rfl
    -- A slash is dropped if nothing but slashes is left behind it.
    rw [List.flatMap_cons, List.cons_append, Text.dropEndWhile_cons,
      Text.dropEndWhile_append hsegment, ih, hempty, dropEmpty_cons]
    split
    · next hall => rw [if_pos (by simpa using hall)]; rfl
    · next hsome => rw [if_neg (by simpa using hsome)]; rfl

/-- The URL that `parts` lead to from `u`, where slashes at the end of its path do not count. -/
def below (u : Url) (parts : List (List Char)) : Url :=
  match u.path with
  | .segments segments => { u with path := .segments (dropEmpty segments ++ parts) }
  | .whole _ => { u with path := .segments parts }

theorem below_eq (hpath : u.path = .segments segments) (parts : List (List Char)) :
    u.below parts = { u with path := .segments (dropEmpty segments ++ parts) } := by
  rw [below, hpath]

theorem regular_below (h : u.Regular) {parts : List (List Char)} (hne : parts ≠ [])
    (hparts : ∀ part ∈ parts, RegularSegment part) : (u.below parts).Regular := by
  obtain ⟨segments, hpath, -, hsegments⟩ := h.path
  rw [below_eq hpath]
  refine ⟨h.web, h.username, h.password, h.host, h.port, ⟨_, rfl, by simp [hne], ?_⟩, h.query,
    h.fragment⟩
  intro segment hsegment
  rcases List.mem_append.mp hsegment with hsegment | hsegment
  · exact hsegments segment (mem_of_mem_dropEmpty hsegment)
  · exact hparts segment hsegment

/-- Only slashes at the end of its path stand at the end of a URL. -/
theorem text_below (h : u.Regular) (hquery : u.query = none) (hfragment : u.fragment = none)
    (parts : List (List Char)) :
    (u.below parts).text =
      Text.trimEndWhile (· = '/') u.text ++ String.ofList (parts.flatMap ('/' :: ·)) := by
  obtain ⟨host, hhost, hregular⟩ := h.host
  obtain ⟨segments, hpath, -, hsegments⟩ := h.path
  have hserver : ∀ c ∈ host.chars ++ u.portChars, decide (c = '/') = false := by
    have hends : endsServer true '/' = true := rfl
    intro c hc
    apply decide_eq_false
    rintro rfl
    have hinside := (not_endsServer_of_mem_server hregular '/' hc).1
    rw [hends] at hinside
    nomatch hinside
  have hchars {segments : List (List Char)} :
      ({ u with path := .segments segments } : Url).chars =
        (u.scheme ++ ':' :: '/' :: '/' :: u.userChars) ++
          ((host.chars ++ u.portChars) ++ segments.flatMap ('/' :: ·)) := by
    rw [chars_eq (u := { u with path := .segments segments }) hhost]
    simp [userChars, portChars, queryChars, fragmentChars, hquery, hfragment, UrlPath.chars]
  -- The host is not empty, so the slashes that are dropped all belong to the path.
  have hkept : Text.dropEndWhile (· = '/') ((host.chars ++ u.portChars) ++
      segments.flatMap ('/' :: ·)) ≠ [] := by
    rw [Text.dropEndWhile_append hserver]
    simp [Host.chars_ne_nil hregular]
  have hself : u.chars = (u.scheme ++ ':' :: '/' :: '/' :: u.userChars) ++
      ((host.chars ++ u.portChars) ++ segments.flatMap ('/' :: ·)) := by
    rw [← hchars, ← hpath]
  apply String.toList_injective
  rw [below_eq hpath, text, String.toList_ofList, hchars, String.toList_append,
    String.toList_ofList, Text.trimEndWhile, String.toList_ofList, text, String.toList_ofList]
  rw [hself, Text.dropEndWhile_append_of_ne_nil hkept, Text.dropEndWhile_append hserver,
    dropEndWhile_path hsegments]
  simp

theorem regular_bare (h : u.Regular) : (Http.bare u).Regular :=
  ⟨h.web, (fun _ hc => nomatch hc), (fun _ hc => nomatch hc), h.host, h.port, h.path, h.query,
    fun _ hf => nomatch hf⟩

theorem bare_below (u : Url) (parts : List (List Char)) :
    Http.bare (u.below parts) = (Http.bare u).below parts := by
  cases hpath : u.path <;> simp [below, Http.bare, hpath]

end Url

/-- Is this a path as the operations have it? There is a slash before each segment, and none of them
is empty or read as another one. -/
def IsPath (path : String) : Prop :=
  ∃ parts, parts ≠ [] ∧ path = String.ofList (parts.flatMap ('/' :: ·)) ∧
    ∀ part ∈ parts, Url.RegularSegment part ∧ part ≠ []

namespace Client

variable {c : Client} {path : String} {url : Url}

/-! ### Addresses -/

theorem appendPath_eq (base : String) (hpath : IsPath path) :
    appendPath base path = Text.trimEndWhile (· = '/') base ++ path := by
  obtain ⟨parts, hne, rfl, hparts⟩ := hpath
  obtain ⟨part, later, rfl⟩ := List.exists_cons_of_ne_nil hne
  obtain ⟨hregular, hpart⟩ := hparts part List.mem_cons_self
  obtain ⟨d, ds, rfl⟩ := List.exists_cons_of_ne_nil hpart
  have hslash : decide (d = '/') = false := by
    apply decide_eq_false
    rintro rfl
    have hd := (hregular.clean '/' List.mem_cons_self).2
    nomatch hd
  apply String.toList_injective
  simp [appendPath, Text.trimStartWhile, hslash]

/-- The URL of a path is the base without slashes at its end, and the path behind it. -/
theorem endpoint_eq (hbase : c.baseUrl.Regular) (hquery : c.baseUrl.query = none)
    (hfragment : c.baseUrl.fragment = none) (hpath : IsPath path) :
    ∃ url, c.endpoint path = .ok url ∧ url.query = none ∧
      (Http.bare url).text =
        Text.trimEndWhile (· = '/') (Http.bare c.baseUrl).text ++ path := by
  obtain ⟨parts, hne, hparts, hregular⟩ := id hpath
  have hsegments : ∀ part ∈ parts, Url.RegularSegment part := fun part h => (hregular part h).1
  have htext : appendPath c.baseUrl.text path = (c.baseUrl.below parts).text := by
    rw [appendPath_eq _ hpath, Url.text_below hbase hquery hfragment, hparts]
  refine ⟨c.baseUrl.below parts, ?_, ?_, ?_⟩
  · rw [endpoint, htext, Url.read_text (Url.regular_below hbase hne hsegments)]
    rfl
  · unfold Url.below
    split <;> exact hquery
  · rw [Url.bare_below, Url.text_below (Url.regular_bare hbase) hquery rfl, hparts]

/-! ### Calls -/

/-- What a server sees of a request: nothing if it cannot be reached. -/
def delivered (c : Client) (request : Http.Request) : List Http.Request :=
  if (c.transport request).isSeen then [request] else []

theorem sends_send (c : Client) (request : Http.Request) :
    (c.send request).Sends (c.delivered request) := by
  intro j
  unfold send delivered
  -- A request that a server has seen is noted even if its answer is an error.
  cases c.transport request with
  | unreachable => exact (List.append_nil _).symm
  | unanswered => rfl
  | answered response =>
    dsimp only [Http.Delivery.isSeen]
    by_cases hsuccess : response.status.isSuccess = true
    · rw [if_pos hsuccess]; rfl
    · rw [if_neg hsuccess]; rfl

theorem gives_address (method : Http.Method) (h : c.endpoint path = .ok url) :
    (c.address method path).Gives url := by
  intro j
  unfold address
  rw [h]
  exact ⟨_, rfl, rfl⟩

/-- A call that asks sends one request. -/
theorem sends_fetch (schema : Json.Schema) (pairs : List (String × String))
    (h : c.endpoint path = .ok url) :
    (c.fetch schema path pairs).Sends (c.delivered (.ask url pairs)) := by
  apply Action.Sends.reporting
  apply Action.Sends.behind (gives_address .get h)
  apply Action.Sends.bind (c.sends_send _)
  intro response
  split
  · exact .pure _
  · exact .throw _

/-- A call that tells something sends one request. -/
theorem sends_post (pairs : List (String × String)) (h : c.endpoint path = .ok url) :
    (c.post path pairs).Sends (c.delivered (.tell url pairs)) := by
  apply Action.Sends.reporting
  apply Action.Sends.behind (gives_address .post h)
  exact Action.Sends.bind (c.sends_send _) fun _ => .pure _

end Client
end CodeQuality
