import CodeQuality.Proofs.Url.Address
import CodeQuality.Proofs.Url.Domain
import CodeQuality.Proofs.Url.Percent
import CodeQuality.Url.Reader

/-!
# Hosts read back

The host of a web URL is read from its own text as the same host. For a domain this is so because it
is its own ASCII form, and for an address because it is read as it has been written. `Host.Regular`
says what is known of a host that has been read, and that is enough.
-/

namespace CodeQuality

/-! ### Hosts -/

namespace Host

/-- What is known of the host of a web URL that has been read. -/
def Regular : Host → Prop
  | domain name => name ≠ [] ∧ (∀ c ∈ name, Domain.isForbidden c = false) ∧
      Domain.toAscii? name = some name ∧ Address.endsInNumber name = false
  | short address => address < 0x100000000
  | long groups => Address.IsLong groups
  | empty => False
  | opaqueName _ => False

/-- Every host that is read is regular. -/
theorem regular_of_readHost {cs : List Char} {host : Host} (h : Url.readHost cs = .ok host) :
    host.Regular := by
  unfold Url.readHost at h
  split at h
  · split at h
    · split at h
      · next hgroups =>
        cases h
        exact Address.long?_isLong hgroups
      · nomatch h
    · nomatch h
  · split at h
    · nomatch h
    · nomatch h
    · next name hne hname =>
      have hself := Domain.toAscii?_of_ofOctets? hname
      split at h
      · split at h
        · next haddress =>
          cases h
          exact Address.short?_lt haddress
        · nomatch h
      · next hnumber =>
        cases h
        exact ⟨hne, Domain.not_isForbidden_of_toAscii? hself, hself,
          by simpa using hnumber⟩

theorem shortChars_ne_nil (address : Nat) : Address.shortChars address ≠ [] := by
  intro h
  have hends := Address.endsInNumber_shortChars address
  rw [h] at hends
  nomatch hends

theorem isForbidden_of_mem_shortChars {c : Char} {address : Nat}
    (h : c ∈ Address.shortChars address) : Domain.isForbidden c = false := by
  rcases Address.isDigit_of_mem_shortChars h with hdigit | rfl
  · obtain ⟨n, hn, rfl⟩ := Domain.exists_digit hdigit
    exact Domain.isForbidden_digit n hn
  · decide

/-- A name without forbidden characters is read by way of its octets. -/
theorem readHost_of_toAscii? {name : List Char} (hclean : ∀ c ∈ name, Domain.isForbidden c = false)
    (hself : Domain.toAscii? name = some name) (hne : name ≠ []) :
    Url.readHost name =
      if Address.endsInNumber name then
        match Address.short? name with
        | some address => .ok (.short address)
        | none => .error .badShortAddress
      else .ok (.domain name) := by
  have hoctets : Domain.ofOctets? (Percent.decode name) = some name := by
    rw [Percent.decode_of_not_mem fun h => absurd (hclean _ h) (by decide)]
    exact (Domain.ofOctets?_octets name).trans hself
  unfold Url.readHost
  split
  · exact absurd (hclean '[' List.mem_cons_self) (by decide)
  · rw [hoctets]
    obtain ⟨c, cs, rfl⟩ := List.exists_cons_of_ne_nil hne
    rfl

theorem readHost_brackets (cs : List Char) :
    Url.readHost ('[' :: cs ++ [']']) =
      match Address.long? cs with
      | some groups => .ok (.long groups)
      | none => .error .badLongAddress := by
  have hfront : (cs ++ [']']).dropLast = cs := by simp
  cases hlong : Address.long? cs <;> simp [Url.readHost, hfront, hlong]

/-- A regular host is read as it has been written. -/
theorem readHost_chars {host : Host} (h : host.Regular) : Url.readHost host.chars = .ok host := by
  cases host with
  | domain name =>
    obtain ⟨hne, hclean, hself, hnumber⟩ := h
    rw [chars, readHost_of_toAscii? hclean hself hne, if_neg (by simp [hnumber])]
  | short address =>
    have hself : Domain.toAscii? (Address.shortChars address) = some (Address.shortChars address) :=
      Domain.toAscii?_of_numeric fun c hc => Address.isDigit_of_mem_shortChars hc
    rw [chars, readHost_of_toAscii? (fun c hc => isForbidden_of_mem_shortChars hc) hself
      (shortChars_ne_nil address), if_pos (Address.endsInNumber_shortChars address),
      Address.short?_shortChars h]
  | long groups =>
    rw [chars, readHost_brackets, Address.long?_longChars h]
  | empty => exact h.elim
  | opaqueName _ => exact h.elim

/-! ### Characters of a host -/

/-- The characters that a host may hold as it is written. -/
def isHostChar (c : Char) : Bool := !Domain.isForbidden c || c = '[' || c = ']' || c = ':'

theorem isForbidden_digitChar : ∀ v < 16, Domain.isForbidden (Nat.digitChar v) = false := by decide

theorem isHostChar_of_mem {host : Host} (h : host.Regular) :
    ∀ c ∈ host.chars, isHostChar c = true := by
  intro c hc
  cases host with
  | domain name => simp [isHostChar, h.2.1 c hc]
  | short address => simp [isHostChar, isForbidden_of_mem_shortChars hc]
  | long groups =>
    rcases List.mem_cons.mp hc with rfl | hc
    · decide
    · rcases List.mem_append.mp hc with hc | hc
      · rcases Address.mem_longChars hc with rfl | ⟨v, hv, rfl⟩
        · decide
        · simp [isHostChar, isForbidden_digitChar v hv]
      · rw [List.mem_singleton] at hc
        subst hc
        decide
  | empty => exact h.elim
  | opaqueName _ => exact h.elim

theorem chars_ne_nil {host : Host} (h : host.Regular) : host.chars ≠ [] := by
  cases host with
  | domain name => exact h.1
  | short address => exact shortChars_ne_nil address
  | long groups => simp [chars]
  | empty => exact h.elim
  | opaqueName _ => exact h.elim

/-- Outside brackets, a colon or the end of the server ends the host. -/
theorem splitHost_inside {cs rest : List Char}
    (hcs : ∀ c ∈ cs, Url.endsServer true c = false ∧ c ≠ ':' ∧ c ≠ '[')
    (hrest : ∀ c ∈ rest.head?, (Url.endsServer true c || c = ':') = true) :
    Url.splitHost true false (cs ++ rest) = (cs, rest) := by
  induction cs with
  | nil =>
    cases rest with
    | nil => rfl
    | cons c rest =>
      have hc := hrest c rfl
      simp [Url.splitHost, hc]
  | cons c cs ih =>
    obtain ⟨hends, hcolon, hbracket⟩ := hcs c List.mem_cons_self
    have ih := ih fun d hd => hcs d (List.mem_cons_of_mem _ hd)
    rw [List.cons_append, Url.splitHost, if_neg (by simp [hends, hcolon])]
    simp [hbracket, ih]

theorem splitHost_plain {cs rest : List Char} (hcs : ∀ c ∈ cs, Domain.isForbidden c = false)
    (hrest : ∀ c ∈ rest.head?, (Url.endsServer true c || c = ':') = true) :
    Url.splitHost true false (cs ++ rest) = (cs, rest) := by
  refine splitHost_inside (fun c hc => ?_) hrest
  have hc := hcs c hc
  simp [Domain.isForbidden] at hc
  simp [Url.endsServer, Url.isSlash, hc]

/-- Inside brackets only the closing one ends the host. -/
theorem splitHost_brackets {cs rest : List Char}
    (hcs : ∀ c ∈ cs, c = ':' ∨ ∃ v < 16, c = Nat.digitChar v)
    (hrest : ∀ c ∈ rest.head?, (Url.endsServer true c || c = ':') = true) :
    Url.splitHost true true (cs ++ ']' :: rest) = (cs ++ [']'], rest) := by
  induction cs with
  | nil =>
    have hend : Url.splitHost true false ([] ++ rest) = ([], rest) :=
      splitHost_plain (fun _ hc => nomatch hc) hrest
    rw [List.nil_append] at hend
    simp [Url.splitHost, Url.endsServer, Url.isSlash, hend]
  | cons c cs ih =>
    have ih := ih fun d hd => hcs d (List.mem_cons_of_mem _ hd)
    have hplain : (Url.endsServer true c || (c = ':' && !true)) = false ∧
        (c = '[' || (true && c ≠ ']')) = true := by
      have hdigit : ∀ v < 16, (Url.endsServer true (Nat.digitChar v) ||
          (Nat.digitChar v = ':' && !true)) = false ∧
            (Nat.digitChar v = '[' || (true && Nat.digitChar v ≠ ']')) = true := by decide
      rcases hcs c List.mem_cons_self with rfl | ⟨v, hv, rfl⟩
      · decide
      · exact hdigit v hv
    rw [List.cons_append, Url.splitHost, hplain.1, if_neg Bool.false_ne_true, hplain.2, ih]
    rfl

/-- The host is cut off where it has been written. -/
theorem splitHost_chars {host : Host} {rest : List Char} (h : host.Regular)
    (hrest : ∀ c ∈ rest.head?, (Url.endsServer true c || c = ':') = true) :
    Url.splitHost true false (host.chars ++ rest) = (host.chars, rest) := by
  cases host with
  | domain name => exact splitHost_plain h.2.1 hrest
  | short address => exact splitHost_plain (fun c hc => isForbidden_of_mem_shortChars hc) hrest
  | long groups =>
    have hinner : Url.splitHost true true (Address.longChars groups ++ ']' :: rest) =
        (Address.longChars groups ++ [']'], rest) :=
      splitHost_brackets (fun _ hc => Address.mem_longChars hc) hrest
    have hchars : (long groups).chars ++ rest =
        '[' :: (Address.longChars groups ++ ']' :: rest) := by simp [chars]
    rw [hchars, Url.splitHost]
    simp [Url.endsServer, Url.isSlash, hinner, chars]
  | empty => exact h.elim
  | opaqueName _ => exact h.elim

end Host

end CodeQuality
