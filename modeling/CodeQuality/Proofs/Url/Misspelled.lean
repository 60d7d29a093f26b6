import CodeQuality.Proofs.Run.Server
import CodeQuality.Proofs.Url.Spelling

/-!
# Servers that are not spelled out

A URL may spell its scheme in capitals, or leave out the slashes behind it. Its normal form does not
see a scheme there and puts another one in front, so that the first scheme comes to where a server
is named. If a user is named behind it, it becomes a part of the user; else it is the host. Either
way another server is named, except where the server has the name of the scheme.

* `Url.readHost_of_names` — a name that comes to stand in front of a server.
* `Url.host_of_not_spelledOut` — the URLs that lead to the same server nevertheless.
* `GlobalOptions.client_of_spelled` — the server that a client talks to.
-/

namespace CodeQuality

namespace Url

open Text (isBarred dropEndWhile)

variable {cs front rest name scheme : List Char} {u v : Url} {x : String} {c : Char} {host : Host}

/-! ### Names in front of a server -/

/-- A user is not read as the same one if there is more in front of a colon. -/
theorem readUser_append_ne {user : List Char} (hne : front ≠ []) (hfront : ∀ c ∈ front, c ≠ ':') :
    readUser (front ++ ':' :: user) ≠ readUser user := by
  intro h
  have hinside : ∀ c ∈ front, decide (c ≠ ':') = true := fun c hc => decide_eq_true (hfront c hc)
  have hcolon : ∀ c ∈ (':' :: user).head?, decide (c ≠ ':') = false := by
    rintro _ ⟨⟩
    rfl
  unfold readUser at h
  rw [Text.takeWhile_append hinside hcolon, Text.dropWhile_append hinside hcolon] at h
  obtain ⟨husername, hpassword⟩ := Prod.mk.inj h
  -- The password would be longer by what is the user name.
  have hparts := List.takeWhile_append_dropWhile (p := fun c : Char => decide (c ≠ ':')) (l := user)
  generalize user.takeWhile (fun c => decide (c ≠ ':')) = username at *
  generalize user.dropWhile (fun c => decide (c ≠ ':')) = behind at *
  have hlength := congrArg List.length hpassword
  rw [List.drop_one, List.tail_cons, ← hparts, Percent.encode_append,
    ← List.take_append_drop 1 behind, Percent.encode_append, List.take_append_drop,
    List.length_append, List.length_append] at hlength
  have hnone : (Percent.encode Percent.inUserInfo username).length = 0 := by omega
  rw [← husername, List.length_eq_zero_iff, Percent.encode_eq_nil_iff] at hnone
  exact hne hnone

/-- What stands in front of a server is taken for a part of the user, if there is one. -/
theorem splitUser_front (hfront : ∀ c ∈ front, endsServer true c = false ∧ c ≠ '@')
    (cs : List Char) :
    splitUser true cs = (none, cs) ∧ splitUser true (front ++ cs) = (none, front ++ cs) ∨
      ∃ user behind, splitUser true cs = (some user, behind) ∧
        splitUser true (front ++ cs) = (some (front ++ user), behind) := by
  obtain ⟨server, tail, rfl, hserver, htail⟩ := exists_server cs
  by_cases hsign : '@' ∈ server
  · obtain ⟨dropped, user, hreverse, hlast⟩ :=
      List.eq_append_cons_of_mem (List.mem_reverse.mpr hsign)
    have hparts : server = user.reverse ++ '@' :: dropped.reverse := by
      rw [← List.reverse_reverse server, hreverse]
      simp
    rw [hparts] at hserver ⊢
    have hdropped : ∀ c ∈ dropped.reverse, endsServer true c = false ∧ c ≠ '@' := by
      refine fun c hc => ⟨hserver c (by simp [List.mem_reverse.mp hc]), ?_⟩
      rintro rfl
      exact hlast (List.mem_reverse.mp hc)
    have huser : ∀ c ∈ user.reverse, endsServer true c = false :=
      fun c hc => hserver c (List.mem_append_left _ hc)
    refine .inr ⟨user.reverse, dropped.reverse ++ tail, splitUser_some hdropped htail huser, ?_⟩
    rw [← List.append_assoc, ← List.append_assoc]
    exact splitUser_some hdropped htail
      (List.forall_mem_append.mpr ⟨fun c hc => (hfront c hc).1, huser⟩)
  · have hall : ∀ c ∈ server, endsServer true c = false ∧ c ≠ '@' := by
      refine fun c hc => ⟨hserver c hc, ?_⟩
      rintro rfl
      exact hsign hc
    refine .inl ⟨splitUser_none hall htail, ?_⟩
    rw [← List.append_assoc]
    exact splitUser_none (List.forall_mem_append.mpr ⟨hfront, hall⟩) htail

/-- Behind a slash at the front there is no user. -/
theorem splitUser_of_isSlash (h : ∀ c ∈ cs.head?, isSlash true c = true) :
    splitUser true cs = (none, cs) := by
  have hends : ∀ c ∈ cs.head?, endsServer true c = true := by
    intro c hc
    rw [endsServer, h c hc]
    rfl
  exact splitUser_none (List.forall_mem_nil _) hends

/-- Does `c` stand for itself in a host, and is it nothing that ends one? -/
structure IsPlain (c : Char) : Prop where
  inside : endsServer true c = false
  colon : c ≠ ':'
  sign : c ≠ '@'
  bracket : c ≠ '['
  percent : c ≠ '%'

/-- A name in front of a server, with a colon behind it, is taken for the host of another. -/
theorem readHost_of_names (hspecial : isSpecialScheme scheme = true) {added : List Char}
    (hadded : isSpecialScheme added = true) (hne : front ≠ []) (hfront : ∀ c ∈ front, IsPlain c)
    (hnames : Names scheme (rest.dropWhile (isSlash true)) u)
    (hlonger : Names added (front ++ ':' :: rest) u) :
    ∃ host, readHost front = .ok host ∧ u.host = some host := by
  rw [names_iff hspecial] at hnames
  rw [names_iff hadded] at hlonger
  obtain ⟨-, huser, -, -⟩ := hnames
  obtain ⟨-, huser', hhost, -⟩ := hlonger
  have hcolon : ∀ c ∈ front ++ [':'], endsServer true c = false ∧ c ≠ '@' := by
    refine List.forall_mem_append.mpr ⟨fun c hc => ⟨(hfront c hc).inside, (hfront c hc).sign⟩, ?_⟩
    simp [endsServer, isSlash]
  rcases splitUser_front hcolon rest with ⟨-, hnone⟩ | ⟨user, behind, hsome, hsome'⟩
  · have hpart : (hostPart (front ++ ':' :: rest)).1 = front := by
      rw [hostPart, List.append_cons, hnone, ← List.append_cons]
      have hinside : ∀ c ∈ front, endsServer true c = false ∧ c ≠ ':' ∧ c ≠ '[' :=
        fun c hc => ⟨(hfront c hc).inside, (hfront c hc).colon, (hfront c hc).bracket⟩
      rw [Host.splitHost_inside hinside (by simp)]
    rwa [hpart] at hhost
  · -- Then nothing is dropped in front of the user, and the name comes to it.
    have hkept : rest.dropWhile (isSlash true) = rest := by
      refine Text.dropWhile_eq_self fun c hc => ?_
      by_contra hslash
      have hslash : isSlash true c = true := by simpa using hslash
      rw [splitUser_of_isSlash fun d hd => Option.mem_unique hc hd ▸ hslash] at hsome
      cases hsome
    rw [hkept, hsome] at huser
    rw [List.append_cons, hsome', Option.getD_some, List.append_assoc, ← huser] at huser'
    exact absurd huser' (readUser_append_ne hne fun c hc => (hfront c hc).colon)

/-! ### The name of a scheme as a host -/

/-- The host that has a name in ASCII. -/
def hostOf : Option (List Char) → Except UrlError Host
  | none => .error .badDomain
  | some [] => .error .emptyHost
  | some name =>
    if Address.endsInNumber name then
      match Address.short? name with
      | some address => .ok (.short address)
      | none => .error .badShortAddress
    else .ok (.domain name)

section Plain

variable (hcs : ∀ c ∈ cs, IsPlain c)
include hcs

/-- A plain name is read by way of its ASCII form. -/
theorem readHost_of_isPlain : readHost cs = hostOf (Domain.toAscii? cs) := by
  unfold readHost
  split
  · exact absurd rfl (hcs _ List.mem_cons_self).bracket
  · rw [Percent.decode_of_not_mem fun hmem => (hcs _ hmem).percent rfl, Domain.ofOctets?_octets]
    rfl

/-- A name with a control or a blank in it is no host. -/
theorem not_readHost_of_mem_barred (hc : c ∈ cs) (hbarred : isBarred c = true) :
    readHost cs ≠ .ok host := by
  rw [readHost_of_isPlain hcs, Domain.toAscii?_eq_none hbarred hc]
  nofun

end Plain

theorem ne_of_isSchemeChar {d : Char} (h : isSchemeChar c = true) (hd : isSchemeChar d = false) :
    c ≠ d := by
  rintro rfl
  rw [h] at hd
  nomatch hd

theorem isPlain_of_isSchemeChar (h : isSchemeChar c = true) : IsPlain c where
  inside := by
    have hslash := ne_of_isSchemeChar h (d := '/') (by decide)
    have hbackslash := ne_of_isSchemeChar h (d := '\\') (by decide)
    have hquery := ne_of_isSchemeChar h (d := '?') (by decide)
    have hfragment := ne_of_isSchemeChar h (d := '#') (by decide)
    simp [endsServer, isSlash, hslash, hbackslash, hquery, hfragment]
  colon := ne_of_isSchemeChar h (by decide)
  sign := ne_of_isSchemeChar h (by decide)
  bracket := ne_of_isSchemeChar h (by decide)
  percent := ne_of_isSchemeChar h (by decide)

theorem isPlain_of_isBarred (h : isBarred c = true) : IsPlain c where
  inside := not_endsServer_of_barred h
  colon := ne_of_barred h (by decide)
  sign := ne_of_barred h (by decide)
  bracket := ne_of_barred h (by decide)
  percent := ne_of_barred h (by decide)

theorem fold_of_isSchemeChar (h : isSchemeChar c = true) : Domain.fold c = [c.toLower] := by
  refine if_pos ?_
  simp only [isSchemeChar, Bool.or_eq_true, decide_eq_true_eq] at h
  rcases h with ((h | rfl) | rfl) | rfl
  · exact (ascii_of_isAlphanum h).2
  · decide
  · decide
  · decide

/-- Domains are read alike in capitals and in small letters. -/
theorem folded_map_toLower (hname : ∀ c ∈ name, isSchemeChar c = true) :
    Domain.folded (name.map Char.toLower) = Domain.folded name := by
  refine congrArg Text.composed ?_
  rw [List.flatMap_map]
  refine List.flatMap_congr fun c hc => ?_
  rw [fold_of_isSchemeChar (isSchemeChar_toLower (hname c hc)), fold_of_isSchemeChar (hname c hc),
    toLower_toLower]

/-- The name of a scheme of the web is read as a domain. -/
theorem readHost_of_isWebScheme (hname : ∀ c ∈ name, isSchemeChar c = true)
    (hscheme : IsWebScheme (name.map Char.toLower)) :
    readHost name = .ok (.domain (name.map Char.toLower)) := by
  have hlower : readHost name = readHost (name.map Char.toLower) := by
    have hlower : ∀ c ∈ name.map Char.toLower, isSchemeChar c = true :=
      List.forall_mem_map.mpr fun c hc => isSchemeChar_toLower (hname c hc)
    rw [readHost_of_isPlain fun c hc => isPlain_of_isSchemeChar (hname c hc),
      readHost_of_isPlain fun c hc => isPlain_of_isSchemeChar (hlower c hc),
      Domain.toAscii?, Domain.toAscii?, folded_map_toLower hname]
  rw [hlower]
  rcases hscheme with h | h <;> rw [h] <;> exact toOption_eq_some_iff.mp (by decide +kernel)

/-! ### The name of a scheme in a text -/

/-- What a scheme is split off from. -/
theorem exists_of_splitScheme (h : splitScheme cs = some (scheme, rest)) :
    ∃ name, cs = name ++ ':' :: rest ∧ name.map Char.toLower = scheme ∧
      ∀ c ∈ name, isSchemeChar c = true := by
  unfold splitScheme at h
  split at h
  · split at h
    · next hcolon =>
      cases h
      refine ⟨_, ?_, rfl, fun c hc => List.all_eq_true.mp List.all_takeWhile c hc⟩
      rw [← hcolon, List.takeWhile_append_dropWhile]
    · nomatch h
  · nomatch h

/-- The colon behind the name of a scheme does not stand among slashes and blanks. -/
theorem exists_rest_of_append {later : List Char} (h : name ++ ':' :: rest = cs ++ later)
    (hlater : ∀ c ∈ later, IsOuter c) :
    ∃ behind, cs = name ++ ':' :: behind ∧ rest = behind ++ later := by
  have hcolon : ':' ∉ later := fun hmem => by
    rcases hlater _ hmem with h | h <;> nomatch h
  rcases List.append_eq_append_iff.mp h with ⟨as, hcs, has⟩ | ⟨bs, -, hbs⟩
  · cases as with
    | nil =>
      rw [List.nil_append] at has
      exact absurd (has ▸ List.mem_cons_self) hcolon
    | cons c as =>
      rw [List.cons_append] at has
      obtain ⟨rfl, hrest⟩ := List.cons_eq_cons.mp has
      exact ⟨as, hcs, hrest⟩
  · exact absurd (hbs ▸ List.mem_append_right _ List.mem_cons_self) hcolon

/-- What is left of a URL begins with controls, and the rest of it with what counts. -/
theorem exists_body_of_read (h : read x = .ok u) :
    ∃ lead controls body tail, Server.bare x = controls ++ body ∧
      x.toList = lead ++ body ++ tail ∧ (∀ c ∈ lead, isEdge c = true) ∧
      (∀ c ∈ controls, isEdge c = true) ∧ body ≠ [] ∧ (∀ c ∈ body.head?, isEdge c = false) ∧
      ∀ c ∈ tail, IsOuter c := by
  obtain ⟨lead, slashes, trail, hx, hlead, hslashes, htrail, -⟩ := Server.bare_spec x
  have htail := isOuter_of_mem_append hslashes htrail
  have hparts := List.takeWhile_append_dropWhile (p := isEdge) (l := Server.bare x)
  have hcontrols : ∀ c ∈ (Server.bare x).takeWhile isEdge, isEdge c = true :=
    fun c hc => List.all_eq_true.mp List.all_takeWhile c hc
  have hbegins : ∀ c ∈ ((Server.bare x).dropWhile isEdge).head?, isEdge c = false :=
    fun c hc => Text.head?_dropWhile hc
  generalize (Server.bare x).takeWhile isEdge = controls at hparts hcontrols
  generalize (Server.bare x).dropWhile isEdge = body at hparts hbegins
  rw [← hparts] at hx ⊢
  have hleads : ∀ c ∈ lead, isEdge c = true :=
    isEdge_of_read h (by rw [hx, List.append_assoc, List.append_assoc]) hlead
  have hx : x.toList = (lead ++ controls) ++ body ++ (slashes ++ trail) := by
    rw [hx]
    simp only [List.append_assoc]
  have hedges := List.forall_mem_append.mpr ⟨hleads, hcontrols⟩
  refine ⟨lead ++ controls, controls, body, _, rfl, hx, hedges, hcontrols, ?_, hbegins, htail⟩
  -- Slashes and blanks alone do not begin with a letter.
  rintro rfl
  obtain ⟨c, cs, hdrop, hletter⟩ := isAlpha_of_read h
  rw [hx, List.append_nil, List.dropWhile_append, List.dropWhile_eq_nil_iff.mpr hedges] at hdrop
  have hmem : c ∈ slashes ++ trail := (List.dropWhile_sublist _).mem (hdrop ▸ List.mem_cons_self)
  rcases htail c hmem with rfl | hbarred
  · nomatch hletter
  · rw [not_isAlpha_of_isBarred hbarred] at hletter
    nomatch hletter

/-- Behind other characters, a text is left with the same characters that count. -/
theorem filter_dropEndWhile_append {body : List Char} (hne : body ≠ [])
    (hbegins : ∀ c ∈ body.head?, isEdge c = false) (cs : List Char) :
    (dropEndWhile isEdge (cs ++ body)).filter (!isBreak ·) =
      cs.filter (!isBreak ·) ++ significant (String.ofList body) := by
  have hkept : dropEndWhile isEdge body ≠ [] := by
    intro hnil
    obtain ⟨c, body, rfl⟩ := List.exists_cons_of_ne_nil hne
    have hedge := Text.dropEndWhile_eq_nil_iff.mp hnil c List.mem_cons_self
    rw [hbegins c rfl] at hedge
    nomatch hedge
  rw [significant_eq, String.toList_ofList, Text.dropWhile_eq_self hbegins,
    Text.dropEndWhile_append_of_ne_nil hkept, List.filter_append]

/-- What counts of a URL, and of what is left of it without its blanks and slashes. -/
theorem exists_name_of_read (h : read x = .ok u) :
    ∃ controls name behind later, (∀ c ∈ controls, isBarred c = true) ∧
      (∀ c ∈ name, isSchemeChar c = true) ∧ name.map Char.toLower = u.scheme ∧
      (∀ c ∈ later, IsOuter c) ∧
      splitScheme (significant x) = some (u.scheme, behind ++ later) ∧
      (dropEndWhile isEdge (Server.bare x)).filter (!isBreak ·) =
        controls ++ name ++ ':' :: behind := by
  obtain ⟨lead, controls, body, tail, hbare, hx, hlead, hcontrols, hne, hbegins, htail⟩ :=
    exists_body_of_read h
  obtain ⟨later, hlater, hends⟩ := exists_significant hx hlead hne hbegins htail
  obtain ⟨rest, hsplit⟩ := scheme_of_read h
  obtain ⟨name, hname, hlower, hchars⟩ := exists_of_splitScheme hsplit
  obtain ⟨behind, hbody, rfl⟩ := exists_rest_of_append (hname.symm.trans hlater) hends
  refine ⟨controls.filter (!isBreak ·), name, behind, later, fun c hc => ?_, hchars, hlower, hends,
    hsplit, ?_⟩
  · exact isBarred_of_isEdge (hcontrols c (List.mem_of_mem_filter hc))
  · rw [hbare, filter_dropEndWhile_append hne hbegins, hbody, List.append_assoc]

/-- A URL that is not spelled out gets the scheme that goes without saying. -/
theorem scheme_of_not_spelledOut (hspelled : ¬ SpelledOut x)
    (hv : read (normalizeServer x) = .ok v) : v.scheme = "https".toList := by
  have hadded : IsWebScheme "https".toList := .inl rfl
  rw [normalize_of_not_spelledOut hspelled,
    read_of_significant hadded (significant_lettering hadded _)] at hv
  exact readServer_scheme hv

/-- A URL that is not spelled out leads to the same server only if this has the name of its
scheme. -/
theorem host_of_not_spelledOut (h : read x = .ok u) (hweb : u.isWeb = true)
    (hspelled : ¬ SpelledOut x) (hv : read (normalizeServer x) = .ok v) (hsame : v.SameServer u) :
    u.host = some (.domain "https".toList) := by
  have hadded : IsWebScheme "https".toList := .inl rfl
  obtain ⟨controls, name, behind, later, hcontrols, hname, hlower, hlater, hsplit, hkept⟩ :=
    exists_name_of_read h
  have hplain : ∀ c ∈ controls ++ name, IsPlain c := List.forall_mem_append.mpr
    ⟨fun c hc => isPlain_of_isBarred (hcontrols c hc),
      fun c hc => isPlain_of_isSchemeChar (hname c hc)⟩
  have hscheme : IsWebScheme u.scheme := isWebScheme_of_isWeb hweb
  have hne : name ≠ [] := by
    rintro rfl
    rcases hscheme with h | h <;> rw [h] at hlower <;> nomatch hlower
  -- Behind the scheme that is added stands all that has been read, with its own scheme in front.
  have hnames : Names u.scheme (behind.dropWhile (isSlash true)) u := by
    refine names_of_dropWhile_append (isSpecialScheme_of_isWebScheme hscheme) hlater
      ⟨u, ?_, .refl u⟩
    rw [← read_of_splitScheme hscheme hsplit, h]
  have hlonger : Names "https".toList (controls ++ name ++ ':' :: behind) u := by
    have hkeep : (controls ++ name ++ ':' :: behind).dropWhile (isSlash true) =
        controls ++ name ++ ':' :: behind := by
      refine Text.dropWhile_eq_self fun c hc => ?_
      rw [List.head?_append_of_ne_nil _ (by simp [hne])] at hc
      have hinside := (hplain c (List.mem_of_head? hc)).inside
      simp only [endsServer, Bool.or_eq_false_iff] at hinside
      exact hinside.1.1
    refine ⟨v, ?_, hsame⟩
    rw [← hv, normalize_of_not_spelledOut hspelled,
      read_of_significant hadded (significant_lettering hadded _), hkept, hkeep]
  obtain ⟨host, hread, hhost⟩ := readHost_of_names (isSpecialScheme_of_isWebScheme hscheme)
    (isSpecialScheme_of_isWebScheme hadded) (by simp [hne]) hplain hnames hlonger
  have hnone : controls = [] := by
    refine List.eq_nil_iff_forall_not_mem.mpr fun c hc => ?_
    exact not_readHost_of_mem_barred hplain (List.mem_append_left _ hc) (hcontrols c hc) hread
  have hsecure : u.scheme = "https".toList :=
    hsame.scheme.symm.trans (scheme_of_not_spelledOut hspelled hv)
  rw [hnone, List.nil_append, readHost_of_isWebScheme hname (hlower ▸ hscheme), hlower] at hread
  cases hread
  rw [hhost, hsecure]

end Url

namespace GlobalOptions

open Url (SpelledOut)

/-- The server that is put in goes before that of the settings. -/
theorem exists_client_iff {o : GlobalOptions} {x : String} {v : Url} (ho : o.server = some x)
    (settings : Settings) (transport : Http.Transport) :
    (∃ c, o.client settings transport = .ok c ∧ c.baseUrl = v) ↔
      Url.read (normalizeServer x) = .ok v := by
  have hclient := ServerTask.client_cases o settings transport
  rw [ho] at hclient
  simp only [Option.map_some, Option.some_or] at hclient
  cases hread : Url.read (normalizeServer x) with
  | error e =>
    rw [hread] at hclient
    simp [hclient]
  | ok base =>
    rw [hread] at hclient
    simp [hclient]

/-- A client talks to the server that a URL names if this is spelled out. If it is not, the client
talks by HTTPS, and to another server, unless that server is itself named `https`. -/
theorem client_of_spelled {x : String} {u : Url} (h : Url.read x = .ok u) (hweb : u.isWeb = true) :
    (SpelledOut x → ∃ v, Url.read (normalizeServer x) = .ok v ∧ v.SameServer u ∧
      ∀ (o : GlobalOptions) (settings : Settings) (transport : Http.Transport),
        o.server = some x → ∃ c, o.client settings transport = .ok c ∧ c.baseUrl = v) ∧
    (¬ SpelledOut x → ∀ (o : GlobalOptions) (settings : Settings) (transport : Http.Transport),
      o.server = some x → ∀ c, o.client settings transport = .ok c →
        Url.read (normalizeServer x) = .ok c.baseUrl ∧ c.baseUrl.scheme = "https".toList ∧
          (c.baseUrl.SameServer u → u.host = some (.domain "https".toList))) := by
  constructor
  · intro hspelled
    obtain ⟨v, hv, hsame⟩ := Url.read_normalize h hspelled
    exact ⟨v, hv, hsame, fun o settings transport ho =>
      (exists_client_iff ho settings transport).mpr hv⟩
  · intro hspelled o settings transport ho c hc
    have hv := (exists_client_iff ho settings transport).mp ⟨c, hc, rfl⟩
    exact ⟨hv, Url.scheme_of_not_spelledOut hspelled hv,
      Url.host_of_not_spelledOut h hweb hspelled hv⟩

/-- A URL with a user, a port and a path, with blanks around it. -/
theorem client_of_spelled_port :
    let u : Url :=
      { scheme := "http".toList, username := "u".toList, host := some (.domain "host".toList),
        port := some 8080, path := .segments ["sonar".toList, [], []] }
    Url.read " http://u@Host:8080/sonar// " = .ok u ∧ u.isWeb = true ∧
      SpelledOut " http://u@Host:8080/sonar// " ∧
      ∃ v, Url.read (normalizeServer " http://u@Host:8080/sonar// ") = .ok v ∧ v.SameServer u := by
  intro u
  have hread : Url.read " http://u@Host:8080/sonar// " = .ok u :=
    toOption_eq_some_iff.mp (by decide +kernel)
  have hspelled : SpelledOut " http://u@Host:8080/sonar// " := .inr (by decide +kernel)
  have hweb : u.isWeb = true := by decide
  obtain ⟨v, hv, hsame, -⟩ := (client_of_spelled hread hweb).1 hspelled
  exact ⟨hread, hweb, hspelled, v, hv, hsame⟩

/-- Capitals in the scheme lead to another server. -/
theorem not_sameServer_normalize : ¬ ∀ (x : String) (u : Url), Url.read x = .ok u → u.isWeb = true →
    ∃ v, Url.read (normalizeServer x) = .ok v ∧ v.SameServer u := by
  intro h
  have hread : Url.read "HTTP://sonar.example.com" = .ok
      { scheme := "http".toList, host := some (.domain "sonar.example.com".toList),
        path := .segments [[]] } := toOption_eq_some_iff.mp (by decide +kernel)
  have hnormal : Url.read (normalizeServer "HTTP://sonar.example.com") = .ok
      { scheme := "https".toList, host := some (.domain "http".toList),
        path := .segments [[], "sonar.example.com".toList] } :=
    toOption_eq_some_iff.mp (by decide +kernel)
  obtain ⟨v, hv, hsame⟩ := h _ _ hread rfl
  cases hnormal.symm.trans hv
  nomatch hsame.host

end GlobalOptions
end CodeQuality
