import CodeQuality.Proofs.Steps
import CodeQuality.Proofs.Url.Regular
import Mathlib.Data.List.TakeWhile

/-!
# The server at the front of a URL

Behind its scheme a URL of the web names a server: the user, the host and the port, up to the first
slash, question mark or hash. What comes there does not tell which server it is, nor whether there
is one at all.

* `Url.SameServer` — two URLs that lead to one server, in one way and as one user.
* `Url.names_append_iff` — what stands behind a server.
-/

namespace CodeQuality
namespace Url

variable {scheme cs server tail : List Char} {u v w : Url} {path : UrlPath}

/-- Do two URLs lead to one server, by the same protocol and as the same user? -/
structure SameServer (u v : Url) : Prop where
  scheme : u.scheme = v.scheme
  username : u.username = v.username
  password : u.password = v.password
  host : u.host = v.host
  port : u.port = v.port

theorem SameServer.refl (u : Url) : u.SameServer u := ⟨rfl, rfl, rfl, rfl, rfl⟩

theorem SameServer.symm (h : u.SameServer v) : v.SameServer u :=
  ⟨h.scheme.symm, h.username.symm, h.password.symm, h.host.symm, h.port.symm⟩

theorem SameServer.trans (h : u.SameServer v) (h' : v.SameServer w) : u.SameServer w :=
  ⟨h.scheme.trans h'.scheme, h.username.trans h'.username, h.password.trans h'.password,
    h.host.trans h'.host, h.port.trans h'.port⟩

/-- Query and fragment have nothing to do with the server. -/
theorem sameServer_withTail (hquery : u.query = none) (hfragment : u.fragment = none)
    (tail : List Char) : (withTail u tail).SameServer u := by
  obtain ⟨query, fragment, heq, -⟩ := withTail_spec hquery hfragment tail
  rw [heq]
  exact ⟨rfl, rfl, rfl, rfl, rfl⟩

/-! ### The parts of a server -/

theorem takeWhile_append_of_head {p : Char → Bool} (h : ∀ c ∈ tail.head?, p c = false) :
    (cs ++ tail).takeWhile p = cs.takeWhile p := by
  induction cs with
  | nil => exact Text.takeWhile_append (List.forall_mem_nil _) h
  | cons c cs ih => simp only [List.cons_append, List.takeWhile_cons, ih]

theorem dropWhile_append_of_head {p : Char → Bool} (h : ∀ c ∈ tail.head?, p c = false) :
    (cs ++ tail).dropWhile p = cs.dropWhile p ++ tail := by
  induction cs with
  | nil => exact Text.dropWhile_append (List.forall_mem_nil _) h
  | cons c cs ih =>
    simp only [List.cons_append, List.dropWhile_cons, ih]
    split <;> rfl

/-- A server ends at the first character that ends one. -/
theorem exists_server (cs : List Char) : ∃ server tail, cs = server ++ tail ∧
    (∀ c ∈ server, endsServer true c = false) ∧ ∀ c ∈ tail.head?, endsServer true c = true := by
  refine ⟨_, _, (List.takeWhile_append_dropWhile (p := (!endsServer true ·))).symm, ?_, ?_⟩
  · intro c hc
    simpa using List.all_eq_true.mp List.all_takeWhile c hc
  · intro c hc
    have hhead := List.head?_dropWhile_not (!endsServer true ·) cs
    rw [Option.mem_def.mp hc] at hhead
    simpa using hhead

/-- Host and port stand at the end of a server. -/
theorem exists_append_splitUser (special : Bool) (cs : List Char) :
    ∃ user, cs = user ++ (splitUser special cs).2 := by
  unfold splitUser
  dsimp only
  split
  · exact ⟨_, (List.take_append_drop _ cs).symm⟩
  · exact ⟨[], rfl⟩

section

variable (htail : ∀ c ∈ tail.head?, endsServer true c = true)
include htail

theorem splitUser_append (hserver : ∀ c ∈ server, endsServer true c = false) :
    splitUser true (server ++ tail) =
    ((splitUser true server).1, (splitUser true server).2 ++ tail) := by
  have hinside : ∀ c ∈ server, (!endsServer true c) = true := fun c hc => by simp [hserver c hc]
  have hend : ∀ c ∈ tail.head?, (!endsServer true c) = false := fun c hc => by simp [htail c hc]
  have hself : server.takeWhile (!endsServer true ·) = server :=
    List.takeWhile_eq_self_iff.mpr hinside
  unfold splitUser
  rw [Text.takeWhile_append hinside hend, hself]
  dsimp only
  split
  · rw [List.drop_append_of_le_length (Nat.sub_le _ _)]
  · rfl

theorem splitHost_append (hserver : ∀ c ∈ server, endsServer true c = false)
    (inBrackets : Bool) : splitHost true inBrackets (server ++ tail) =
    ((splitHost true inBrackets server).1, (splitHost true inBrackets server).2 ++ tail) := by
  induction server generalizing inBrackets with
  | nil =>
    cases tail with
    | nil => rfl
    | cons c tail =>
      have hc := htail c rfl
      simp [splitHost, hc]
  | cons c server ih =>
    have ih := ih (fun d hd => hserver d (List.mem_cons_of_mem _ hd))
    rw [List.cons_append, splitHost, splitHost]
    split
    · rfl
    · rw [ih]

theorem readPort_append (scheme : List Char) : readPort scheme (server ++ tail) =
    (readPort scheme server).map fun read => (read.1, read.2 ++ tail) := by
  have hdigit : ∀ c ∈ tail.head?, c.isDigit = false :=
    fun c hc => not_isDigit_of_endsServer (htail c hc)
  -- What ends a server is no fault behind a port.
  have hfault : ((server.dropWhile Char.isDigit ++ tail).head?).any (fun c => !endsServer true c) =
      ((server.dropWhile Char.isDigit).head?).any (fun c => !endsServer true c) := by
    cases server.dropWhile Char.isDigit with
    | cons c rest => rfl
    | nil =>
      cases hhead : tail.head? with
      | none => simp [hhead]
      | some c => simp [hhead, htail c hhead]
  unfold readPort
  rw [takeWhile_append_of_head hdigit, dropWhile_append_of_head hdigit]
  dsimp only
  rw [hfault]
  split
  · rfl
  · split
    · rfl
    · split <;> rfl

end

/-- The host in `cs`, and what stands behind it. -/
def hostPart (cs : List Char) : List Char × List Char := splitHost true false (splitUser true cs).2

/-- The port behind a host, if there is one, and what follows it. -/
def portBehind (scheme cs : List Char) : Except UrlError (Option Nat × List Char) :=
  match cs with
  | ':' :: cs => readPort scheme cs
  | cs => .ok (none, cs)

theorem portBehind_colon (scheme cs : List Char) :
    portBehind scheme (':' :: cs) = readPort scheme cs := rfl

theorem portBehind_of_ne (h : ∀ c ∈ cs.head?, c ≠ ':') (scheme : List Char) :
    portBehind scheme cs = .ok (none, cs) := by
  unfold portBehind
  split
  · exact absurd rfl (h ':' rfl)
  · rfl

theorem portBehind_append (htail : ∀ c ∈ tail.head?, endsServer true c = true)
    (scheme : List Char) : portBehind scheme (server ++ tail) =
      (portBehind scheme server).map fun read => (read.1, read.2 ++ tail) := by
  by_cases hcolon : server.head? = some ':'
  · obtain ⟨cs, rfl⟩ := List.head?_eq_some_iff.mp hcolon
    exact readPort_append htail scheme
  · have hserver : ∀ c ∈ server.head?, c ≠ ':' := by
      rintro _ hc rfl
      exact hcolon hc
    have hall : ∀ c ∈ (server ++ tail).head?, c ≠ ':' := by
      cases server with
      | cons d server => exact hserver
      | nil =>
        rintro _ hc rfl
        nomatch htail ':' hc
    rw [portBehind_of_ne hserver, portBehind_of_ne hall]
    rfl

/-- What a server is put together of, in the order in which it is read. -/
theorem readServer_eq (hspecial : isSpecialScheme scheme = true) (cs : List Char) :
    readServer scheme cs = do
      let host ← readHost (hostPart cs).1
      let (port, rest) ← portBehind scheme (hostPart cs).2
      return withTail
        { scheme, username := (readUser ((splitUser true cs).1.getD [])).1,
          password := (readUser ((splitUser true cs).1.getD [])).2, host := some host, port,
          path := readPath scheme (splitPath rest).1 } (splitPath rest).2 := by
  have hnone (h : (hostPart cs).1 = []) : readHost (hostPart cs).1 = .error .emptyHost := by
    rw [h]
    rfl
  have hends (h : ((splitUser true cs).2.head?).any (endsServer true) = true) :
      (hostPart cs).1 = [] := by
    cases hcs : (splitUser true cs).2 with
    | nil => rw [hcs] at h; nomatch h
    | cons c rest =>
      rw [hcs] at h
      have hc : endsServer true c = true := h
      simp [hostPart, hcs, splitHost, hc]
  unfold readServer
  simp only [hspecial, if_true]
  rw [← hostPart]
  -- A host that is missing is an error at every place where it is found out.
  split
  · next huser =>
    rw [hnone (hends (by simp_all))]
    rfl
  split
  · next hname =>
    rw [hnone (by simpa using hname)]
    rfl
  cases hhost : readHost (hostPart cs).1 with
  | error e => rfl
  | ok host =>
    have hempty : decide (host = Host.empty) = false := by
      apply decide_eq_false
      rintro rfl
      exact Host.regular_of_readHost hhost
    simp only [hempty, Bool.false_and, Bool.false_eq_true, if_false, bind, Except.bind]
    split
    · next heq => rw [heq, portBehind_colon]
    · next hcolon =>
      rw [portBehind_of_ne fun c hc he => ?_]
      · rfl
      · subst he
        obtain ⟨rest, hrest⟩ := List.head?_eq_some_iff.mp hc
        exact hcolon rest hrest

/-! ### Which server is named -/

/-- Does `cs` name the server of `u` behind the scheme? -/
def Names (scheme cs : List Char) (u : Url) : Prop :=
  ∃ v, readServer scheme cs = .ok v ∧ v.SameServer u

/-- A server is named by its user, its host and its port. -/
theorem names_iff (hspecial : isSpecialScheme scheme = true) :
    Names scheme cs u ↔
      u.scheme = scheme ∧ readUser ((splitUser true cs).1.getD []) = (u.username, u.password) ∧
        (∃ host, readHost (hostPart cs).1 = .ok host ∧ u.host = some host) ∧
        ∃ rest, portBehind scheme (hostPart cs).2 = .ok (u.port, rest) := by
  have hsame (host : Host) (port : Option Nat) (rest : List Char) :=
    sameServer_withTail (u :=
      { scheme, username := (readUser ((splitUser true cs).1.getD [])).1,
        password := (readUser ((splitUser true cs).1.getD [])).2, host := some host, port,
        path := readPath scheme (splitPath rest).1 }) rfl rfl (splitPath rest).2
  unfold Names
  rw [readServer_eq hspecial]
  constructor
  · rintro ⟨v, h, hv⟩
    obtain ⟨host, hhost, h⟩ := ok_bind_iff.mp h
    obtain ⟨⟨port, rest⟩, hport, h⟩ := ok_bind_iff.mp h
    obtain ⟨hscheme, husername, hpassword, hname, hp⟩ :=
      hv.symm.trans (Except.ok.inj h ▸ hsame host port rest)
    exact ⟨hscheme, (Prod.ext husername hpassword).symm, ⟨host, hhost, hname⟩, rest, hp ▸ hport⟩
  · rintro ⟨hscheme, huser, ⟨host, hhost, hname⟩, rest, hport⟩
    refine ⟨_, ok_bind_iff.mpr ⟨host, hhost, ok_bind_iff.mpr ⟨_, hport, rfl⟩⟩, ?_⟩
    exact (hsame host u.port rest).trans
      ⟨hscheme.symm, congrArg Prod.fst huser, congrArg Prod.snd huser, hname.symm, rfl⟩

/-- What stands behind a server does not tell which one it is. -/
theorem names_append_iff (hspecial : isSpecialScheme scheme = true)
    (hserver : ∀ c ∈ server, endsServer true c = false)
    (htail : ∀ c ∈ tail.head?, endsServer true c = true) :
    Names scheme (server ++ tail) u ↔ Names scheme server u := by
  have hbehind : ∀ c ∈ (splitUser true server).2, endsServer true c = false := by
    obtain ⟨user, huser⟩ := exists_append_splitUser true server
    intro c hc
    exact hserver c (huser ▸ List.mem_append_right user hc)
  have hhost : hostPart (server ++ tail) = ((hostPart server).1, (hostPart server).2 ++ tail) := by
    rw [hostPart, splitUser_append htail hserver, splitHost_append htail hbehind]
    rfl
  rw [names_iff hspecial, names_iff hspecial, splitUser_append htail hserver, hhost,
    portBehind_append htail]
  refine and_congr_right fun _ => and_congr_right fun _ => and_congr_right fun _ => ?_
  constructor
  · rintro ⟨_, h⟩
    obtain ⟨⟨port, rest⟩, hread, heq⟩ := map_ok_iff.mp h
    obtain rfl := (Prod.mk.inj heq).1
    exact ⟨rest, hread⟩
  · rintro ⟨rest, h⟩
    exact ⟨rest ++ tail, map_ok_iff.mpr ⟨_, h, rfl⟩⟩

end Url
end CodeQuality
