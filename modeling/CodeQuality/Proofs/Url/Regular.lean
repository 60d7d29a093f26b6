import CodeQuality.Proofs.Steps
import CodeQuality.Proofs.Url.Host

/-!
# The form of a URL that has been read

What has been read is in a form that reading does not change any more: its parts are encoded, no
segment of its path means another one, and its port does not go without saying. `Url.Regular` is
this form, for the URLs of the web.

* `readSegments_regular` — the path, with the segments `.` and `..` resolved.
* `readServer_inv` — what a server is put together of.
* `regular_of_read` — a web URL that has been read is regular.
-/

namespace CodeQuality
namespace Url

variable {cs rest tail : List Char} {segment : List Char} {segments : List (List Char)} {u : Url}

/-- A segment that stands for itself. -/
structure RegularSegment (segment : List Char) : Prop where
  clean : ∀ c ∈ segment, Percent.inPath c = false ∧ isSlash true c = false
  notHere : isHere segment = false
  notAbove : isAbove segment = false

instance : DecidablePred RegularSegment := fun segment =>
  decidable_of_iff ((segment.all fun c => !Percent.inPath c && !isSlash true c) ∧
    isHere segment = false ∧ isAbove segment = false)
    ⟨fun h => ⟨by simpa using h.1, h.2.1, h.2.2⟩,
      fun h => ⟨by simpa using h.clean, h.notHere, h.notAbove⟩⟩

/-- A web URL all of whose parts stand for themselves. -/
structure Regular (u : Url) : Prop where
  web : u.isWeb = true
  username : ∀ c ∈ u.username, Percent.inUserInfo c = false
  password : ∀ c ∈ u.password, Percent.inUserInfo c = false
  host : ∃ host, u.host = some host ∧ host.Regular
  port : ∀ port, u.port = some port → port ≤ 65535 ∧ defaultPort? u.scheme ≠ some port
  path : ∃ segments, u.path = .segments segments ∧ segments ≠ [] ∧
    ∀ segment ∈ segments, RegularSegment segment
  query : ∀ query, u.query = some query → ∀ c ∈ query, Percent.inSpecialQuery c = false
  fragment : ∀ fragment, u.fragment = some fragment → ∀ c ∈ fragment, Percent.inFragment c = false

theorem isSpecialScheme_of_isWeb (h : u.isWeb = true) : isSpecialScheme u.scheme = true := by
  simp only [isWeb, Bool.or_eq_true, decide_eq_true_eq] at h
  rcases h with h | h <;> (rw [h]; decide)

theorem isFileScheme_of_isWeb (h : u.isWeb = true) : isFileScheme u.scheme = false := by
  simp only [isWeb, Bool.or_eq_true, decide_eq_true_eq] at h
  rcases h with h | h <;> (rw [h]; decide)

/-- What ends the part of a URL that names the server is none of its digits. -/
theorem not_isDigit_of_endsServer {c : Char} (h : endsServer true c = true) :
    c.isDigit = false := by
  simp only [endsServer, isSlash, Bool.true_and, Bool.or_eq_true, decide_eq_true_eq] at h
  rcases h with ((rfl | rfl) | rfl) | rfl <;> rfl

/-! ### Segments -/

theorem regularSegment_nil : RegularSegment [] :=
  ⟨(fun _ hc => nomatch hc), by decide, by decide⟩

theorem splitSegments_ne_nil (special : Bool) (cs : List Char) : splitSegments special cs ≠ [] := by
  cases cs with
  | nil => simp [splitSegments]
  | cons c cs =>
    rw [splitSegments]
    split
    · simp
    · split <;> simp

/-- No segment holds a slash. -/
theorem not_isSlash_of_mem_splitSegments {special : Bool}
    (hsegment : segment ∈ splitSegments special cs) :
    ∀ c ∈ segment, isSlash special c = false := by
  induction cs generalizing segment with
  | nil =>
    rw [splitSegments, List.mem_singleton] at hsegment
    subst hsegment
    exact fun _ hc => nomatch hc
  | cons d cs ih =>
    rw [splitSegments] at hsegment
    split at hsegment
    · rcases List.mem_cons.mp hsegment with rfl | hsegment
      · exact fun _ hc => nomatch hc
      · exact ih hsegment
    · next hd =>
      split at hsegment
      · next hs => exact absurd hs (splitSegments_ne_nil special cs)
      · next first later hs =>
        rcases List.mem_cons.mp hsegment with rfl | hsegment
        · intro c hc
          rcases List.mem_cons.mp hc with rfl | hc
          · simpa using hd
          · exact ih (hs ▸ List.mem_cons_self) c hc
        · exact ih (hs ▸ List.mem_cons_of_mem _ hsegment)

theorem mem_shorten {read : List (List Char)} (h : segment ∈ shorten false read) :
    segment ∈ read := by
  unfold shorten at h
  split at h
  · exact h
  · nomatch h
  · exact List.mem_cons_of_mem _ h

/-- Whatever the segments are, those that are left stand for themselves. -/
theorem regularSegment_of_mem_appendSegments {read : List (List Char)}
    (hread : ∀ segment ∈ read, RegularSegment segment)
    (h : ∀ segment ∈ segments, ∀ c ∈ segment, Percent.inPath c = false ∧ isSlash true c = false) :
    ∀ segment ∈ appendSegments false read segments, RegularSegment segment := by
  induction segments generalizing read with
  | nil =>
    intro segment hsegment
    rw [appendSegments, List.mem_reverse] at hsegment
    exact hread segment hsegment
  | cons segment segments ih =>
    have ih {read : List (List Char)} (hread : ∀ segment ∈ read, RegularSegment segment) :=
      ih hread fun s hs => h s (List.mem_cons_of_mem _ hs)
    -- A point at the end leaves an empty segment behind.
    have hlast {read : List (List Char)} (hread : ∀ segment ∈ read, RegularSegment segment) :
        ∀ segment ∈ (if segments.isEmpty then [] :: read else read), RegularSegment segment := by
      intro s hs
      split at hs
      · rcases List.mem_cons.mp hs with rfl | hs
        · exact regularSegment_nil
        · exact hread s hs
      · exact hread s hs
    rw [appendSegments]
    by_cases habove : isAbove segment = true
    · rw [if_pos habove]
      exact ih (hlast fun s hs => hread s (mem_shorten hs))
    rw [if_neg habove]
    by_cases hhere : isHere segment = true
    · rw [if_pos hhere]
      exact ih (hlast hread)
    rw [if_neg hhere]
    apply ih
    intro s hs
    rcases List.mem_cons.mp hs with rfl | hs
    · exact ⟨h s List.mem_cons_self, by simpa using hhere, by simpa using habove⟩
    · exact hread s hs

theorem appendSegments_ne_nil {read : List (List Char)} (h : read ≠ [] ∨ segments ≠ []) :
    appendSegments false read segments ≠ [] := by
  induction segments generalizing read with
  | nil => simpa [appendSegments] using h
  | cons segment segments ih =>
    rw [appendSegments]
    have hlast {read : List (List Char)} :
        (if segments.isEmpty then [] :: read else read) ≠ [] ∨ segments ≠ [] := by
      cases segments <;> simp
    split
    · exact ih hlast
    · split
      · exact ih hlast
      · exact ih (.inl (by simp))

theorem inPath_escapeChars : ∀ c ∈ Percent.escapeChars, Percent.inPath c = false :=
  Text.forall_of_all (by decide)

theorem readSegments_regular (cs : List Char) : readSegments true false cs ≠ [] ∧
    ∀ segment ∈ readSegments true false cs, RegularSegment segment := by
  have hslash : ∀ c ∈ Percent.escapeChars, isSlash true c = false :=
    Text.forall_of_all (by decide)
  unfold readSegments
  simp only [Bool.false_eq_true, if_false]
  constructor
  · exact appendSegments_ne_nil (.inr (by simp [splitSegments_ne_nil]))
  · apply regularSegment_of_mem_appendSegments
    · exact fun _ hs => nomatch hs
    · intro segment hsegment c hc
      obtain ⟨part, hpart, rfl⟩ := List.mem_map.mp hsegment
      refine ⟨Percent.encode_clean inPath_escapeChars c hc, ?_⟩
      -- What has not been escaped was in the part, and an escape holds no slash.
      rcases Percent.mem_encode hc with ⟨hc, -⟩ | hc
      · exact not_isSlash_of_mem_splitSegments hpart c hc
      · exact hslash c hc

theorem readPath_regular {scheme : List Char} (hspecial : isSpecialScheme scheme = true)
    (hfile : isFileScheme scheme = false) (cs : List Char) :
    ∃ segments, readPath scheme cs = .segments segments ∧ segments ≠ [] ∧
      ∀ segment ∈ segments, RegularSegment segment := by
  unfold readPath
  rw [hspecial, hfile]
  cases cs with
  | nil =>
    refine ⟨[[]], rfl, by simp, ?_⟩
    intro segment hsegment
    rw [List.mem_singleton] at hsegment
    subst hsegment
    exact regularSegment_nil
  | cons c cs => exact ⟨_, rfl, readSegments_regular _⟩

/-! ### Query and fragment -/

/-- Query and fragment are encoded, and all other parts are as before. -/
theorem withTail_spec (hquery : u.query = none) (hfragment : u.fragment = none) (cs : List Char) :
    ∃ query fragment, withTail u cs = { u with query, fragment } ∧
      (isSpecialScheme u.scheme = true →
        ∀ q, query = some q → ∀ c ∈ q, Percent.inSpecialQuery c = false) ∧
      ∀ f, fragment = some f → ∀ c ∈ f, Percent.inFragment c = false := by
  obtain ⟨scheme, username, password, host, port, path, query, fragment⟩ := u
  cases hquery
  cases hfragment
  have hencodeQuery (hspecial : isSpecialScheme scheme = true) (q : List Char) :
      ∀ c ∈ Percent.encode
        (if isSpecialScheme scheme then Percent.inSpecialQuery else Percent.inQuery) q,
          Percent.inSpecialQuery c = false := by
    rw [if_pos hspecial]
    exact Percent.encode_clean (Text.forall_of_all (by decide))
  have hencodeFragment (f : List Char) :
      ∀ c ∈ Percent.encode Percent.inFragment f, Percent.inFragment c = false :=
    Percent.encode_clean (Text.forall_of_all (by decide))
  -- There may be a query, a fragment, both or neither.
  unfold withTail
  dsimp only
  split
  · split
    · refine ⟨some _, some _, rfl, fun hspecial q hq => ?_, fun f hf => ?_⟩
      · cases hq
        exact hencodeQuery hspecial _
      · cases hf
        exact hencodeFragment _
    · refine ⟨some _, none, rfl, fun hspecial q hq => ?_, fun _ hf => nomatch hf⟩
      cases hq
      exact hencodeQuery hspecial _
  · refine ⟨none, some _, rfl, (fun _ _ hq => nomatch hq), fun f hf => ?_⟩
    cases hf
    exact hencodeFragment _
  · exact ⟨none, none, rfl, (fun _ _ hq => nomatch hq), fun _ hf => nomatch hf⟩

theorem withTail_scheme (hquery : u.query = none) (hfragment : u.fragment = none) (cs : List Char) :
    (withTail u cs).scheme = u.scheme := by
  obtain ⟨query, fragment, heq, -⟩ := withTail_spec hquery hfragment cs
  rw [heq]

/-! ### The server -/

theorem readPort_spec {scheme : List Char} {port : Option Nat}
    (h : readPort scheme cs = .ok (port, rest)) :
    ∀ p, port = some p → p ≤ 65535 ∧ defaultPort? scheme ≠ some p := by
  unfold readPort at h
  dsimp only at h
  split at h
  · nomatch h
  · next hle =>
    split at h
    · nomatch h
    · split at h
      · cases h
        exact fun _ hp => nomatch hp
      · next hdefault =>
        cases h
        intro p hp
        cases hp
        simp only [Bool.or_eq_true, decide_eq_true_eq, not_or] at hdefault
        exact ⟨by omega, hdefault.2⟩

/-- A server that has been read is put together of user information, host, port, path and the rest.
-/
theorem readServer_inv {scheme : List Char} (h : readServer scheme cs = .ok u) :
    ∃ user name host port path tail,
      (if isSpecialScheme scheme then readHost name else readOpaqueHost name) = .ok host ∧
        (∀ p, port = some p → p ≤ 65535 ∧ defaultPort? scheme ≠ some p) ∧
        u = withTail
          { scheme, username := (readUser user).1, password := (readUser user).2,
            host := some host, port, path := readPath scheme path } tail := by
  unfold readServer at h
  -- The kind of the scheme only tells how the host is read.
  cases hspecial : isSpecialScheme scheme
  all_goals
    simp only [hspecial, if_true, Bool.false_eq_true, if_false] at h ⊢
    split at h
    · nomatch h
    split at h
    · nomatch h
    obtain ⟨host, hhost, h⟩ := ok_bind_iff.mp h
    split at h
    · nomatch h
    split at h
    all_goals
      obtain ⟨⟨port, rest⟩, hport, h⟩ := ok_bind_iff.mp h
      split at h
      · nomatch h
      refine ⟨_, _, host, port, _, _, hhost, ?_, (Except.ok.inj h).symm⟩
      first
        | exact readPort_spec hport
        | cases hport; exact fun _ hp => nomatch hp

/-- What is read behind the slashes of a special scheme is regular, if the scheme is one of the
web. -/
theorem regular_of_readServer {scheme : List Char} (hspecial : isSpecialScheme scheme = true)
    (hfile : isFileScheme scheme = false) (h : readServer scheme cs = .ok u)
    (hweb : u.isWeb = true) : u.Regular := by
  have hencode (cs : List Char) :
      ∀ c ∈ Percent.encode Percent.inUserInfo cs, Percent.inUserInfo c = false :=
    Percent.encode_clean (Text.forall_of_all (by decide))
  obtain ⟨user, name, host, port, path, tail, hhost, hport, hu⟩ := readServer_inv h
  obtain ⟨query, fragment, heq, hquery, hfragment⟩ := withTail_spec (u :=
    { scheme, username := (readUser user).1, password := (readUser user).2,
      host := some host, port, path := readPath scheme path }) rfl rfl tail
  rw [if_pos hspecial] at hhost
  rw [heq] at hu
  subst hu
  exact ⟨hweb, hencode _, hencode _, ⟨host, rfl, Host.regular_of_readHost hhost⟩, hport,
    readPath_regular hspecial hfile path, hquery hspecial, hfragment⟩

theorem readServer_scheme {scheme : List Char} (h : readServer scheme cs = .ok u) :
    u.scheme = scheme := by
  obtain ⟨user, name, host, port, path, tail, -, -, hu⟩ := readServer_inv h
  rw [hu]
  exact withTail_scheme rfl rfl tail

/-! ### Whole URLs -/

theorem readFile_scheme {scheme : List Char} (h : readFile scheme cs = .ok u) :
    u.scheme = scheme := by
  have hfile {host : Host} {path tail : List Char} :
      (withTail { scheme, host := some host, path := readPath scheme path } tail).scheme =
        scheme := withTail_scheme rfl rfl tail
  unfold readFile at h
  dsimp only at h
  split at h
  · split at h
    · split at h
      · cases h
        exact hfile
      · obtain ⟨host, -, h⟩ := ok_bind_iff.mp h
        cases h
        split <;> exact hfile
    · cases h
      exact hfile
  · cases h
    exact hfile

/-- A web URL that has been read is regular. -/
theorem regular_of_read {s : String} (h : read s = .ok u) (hweb : u.isWeb = true) : u.Regular := by
  have hspecial := isSpecialScheme_of_isWeb hweb
  have hfile := isFileScheme_of_isWeb hweb
  unfold read at h
  split at h
  · nomatch h
  · next scheme rest _ =>
    split at h
    · next hs =>
      rw [readFile_scheme h, hs] at hfile
      nomatch hfile
    · next hs =>
      split at h
      · next hs' => exact regular_of_readServer hs' (by simpa using hs) h hweb
      · next hs' =>
        -- All other schemes are special.
        have hscheme : u.scheme = scheme := by
          split at h
          · exact readServer_scheme h
          · cases h
            exact withTail_scheme rfl rfl _
          · cases h
            exact withTail_scheme rfl rfl _
        rw [hscheme] at hspecial
        exact absurd hspecial hs'

end Url
end CodeQuality
