import CodeQuality.Proofs.Text.Numeral
import CodeQuality.Proofs.Toml.Quoted

/-!
# A document of one table read back

A document that consists of a header and of lines, each with a bare key and a value, is read as one
table with these pairs in their order.

* `Pair` — a line of the table and what makes it readable.
* `value_text`, `value_flag`, `value_integer` — values that can stand on such a line.
* `Value.read?_table` — the document.
-/

namespace CodeQuality
namespace Toml
namespace Scan

open Quoted
open Text (numeral numeralValue numeralValue_numeral isDigit_of_mem_numeral numeral_ne_nil)

variable {cs rest : List Char} {n : Nat}

/-! ### Integers -/

theorem separated_of_forall (hne : cs ≠ []) (h : ∀ c ∈ cs, c ≠ '_') :
    digits.separated cs = true := by
  induction cs using digits.separated.induct with
  | case1 => exact absurd rfl hne
  | case2 => exact absurd rfl (h _ List.mem_cons_self)
  | case3 => exact absurd rfl (h _ List.mem_cons_self)
  | case4 c cs _ _ => exact absurd rfl (h '_' (by simp))
  | case5 c _ => simp [digits.separated]
  | case6 c d cs _ _ ih =>
    have ih := ih (by simp) fun c hc => h c (List.mem_cons_of_mem _ hc)
    unfold digits.separated
    split <;> simp_all

theorem isDigit_ne {c : Char} (h : c.isDigit = true) : c ≠ '_' := by
  rintro rfl
  nomatch h

theorem digits_numeral (n : Nat) (rest : List Char) :
    digits Char.isDigit (numeral n ++ '\n' :: rest) = some (numeral n, '\n' :: rest) := by
  have hdigit : ∀ c ∈ numeral n, c.isDigit = true := fun c hc => isDigit_of_mem_numeral hc
  have hline : ∀ c ∈ numeral n, c ≠ '_' := fun c hc => isDigit_ne (hdigit c hc)
  unfold digits
  rw [scan_bind (span_append (fun c hc => by simp [hdigit c hc]) (by simp)),
    if_pos (separated_of_forall (numeral_ne_nil n) hline),
    List.filter_eq_self.mpr fun c hc => by simp [hline c hc]]
  rfl

theorem isPlainNumeral_numeral (n : Nat) : isPlainNumeral (numeral n) = true := by
  rcases Nat.eq_zero_or_pos n with rfl | hpos
  · rfl
  · have hhead := Text.head?_numeral_ne_zero hpos
    unfold isPlainNumeral
    split
    · next h => simp [h] at hhead
    · rfl

theorem decimal_numeral (h : n < 0x8000000000000000) (rest : List Char) :
    decimal false (numeral n ++ '\n' :: rest) = some (.integer n, '\n' :: rest) := by
  have hfits : fits (n : Int) = true := by simp [fits]; omega
  unfold decimal
  rw [scan_bind (digits_numeral n rest), isPlainNumeral_numeral]
  simp only [Bool.not_true, Bool.false_eq_true, if_false]
  rw [scan_bind (accept_of_ne (by simp)), if_neg Bool.false_ne_true, scan_bind (pure_apply _ _),
    scan_bind (peek_apply _), if_neg (by simp), scan_bind (pure_apply _ _), if_pos (by simp),
    numeralValue_numeral, if_pos hfits]
  rfl

theorem number_numeral (h : n < 0x8000000000000000) (rest : List Char) :
    number (numeral n ++ '\n' :: rest) = some (.integer n, '\n' :: rest) := by
  have hdigit : ∀ c ∈ numeral n, c.isDigit = true := fun c hc => isDigit_of_mem_numeral hc
  have hdrop : (numeral n ++ '\n' :: rest).dropWhile Char.isDigit = '\n' :: rest :=
    Text.dropWhile_append hdigit (by simp)
  have hdecimal := decimal_numeral h rest
  -- Whatever looks like something else would leave another character behind its digits.
  unfold number
  split
  case h_8 => rw [hdrop]; exact hdecimal
  all_goals next heq => rw [heq] at hdrop; simp at hdrop

/-! ### Values -/

theorem exists_quote_encode (cs : List Char) :
    ∃ c ds, encode cs = c :: ds ∧ (c = '"' ∨ c = '\'') := by
  unfold encode
  cases formOf cs with
  | basic => exact ⟨_, _, rfl, .inl rfl⟩
  | literal => exact ⟨_, _, rfl, .inr rfl⟩
  | basicLines => exact ⟨_, _, rfl, .inl rfl⟩
  | literalLines => exact ⟨_, _, rfl, .inr rfl⟩

theorem value_text (depth : Nat) (cs rest : List Char) :
    value depth (encode cs ++ '\n' :: rest) =
      some (.text (String.ofList cs), '\n' :: rest) := by
  have htext := text_encode cs ('\n' :: rest) (by simp)
  unfold value
  rw [scan_bind (peek_apply _)]
  obtain ⟨c, ds, heq, rfl | rfl⟩ := exists_quote_encode cs
  · rw [heq] at htext ⊢
    exact scan_bind htext
  · rw [heq] at htext ⊢
    exact scan_bind htext

theorem value_flag (depth : Nat) (b : Bool) (rest : List Char) :
    value depth ((toString b).toList ++ '\n' :: rest) = some (.flag b, '\n' :: rest) := by
  unfold value
  cases b <;> rfl

theorem value_integer (depth : Nat) (h : n < 0x8000000000000000) (rest : List Char) :
    value depth (numeral n ++ '\n' :: rest) = some (.integer n, '\n' :: rest) := by
  have hnumber := number_numeral h rest
  obtain ⟨c, ds, heq⟩ := List.exists_cons_of_ne_nil (numeral_ne_nil n)
  have hdigit : c.isDigit = true := isDigit_of_mem_numeral (heq ▸ List.mem_cons_self)
  rw [heq] at hnumber ⊢
  -- No other kind of value begins with a digit.
  have hne (d : Char) (hd : d.isDigit = false) : c ≠ d := by
    rintro rfl
    rw [hd] at hdigit
    nomatch hdigit
  unfold value
  rw [scan_bind (peek_apply _), List.cons_append, List.head?_cons]
  simp only [Option.some.injEq, hne '"' rfl, hne '\'' rfl, hne 't' rfl, hne 'f' rfl, hne '[' rfl,
    hne '\x7b' rfl, imp_self]
  exact hnumber

/-! ### Keys -/

/-- Can a key stand without quotes? -/
def isBare (name : String) : Bool := !name.toList.isEmpty && name.toList.all isBareKeyChar

theorem isBareKeyChar_head {name : String} (h : isBare name = true) (rest : List Char) :
    ∃ c cs, name.toList ++ rest = c :: cs ∧ isBareKeyChar c = true := by
  simp [isBare] at h
  obtain ⟨c, cs, heq⟩ := List.exists_cons_of_ne_nil (by simpa using h.1 : name.toList ≠ [])
  exact ⟨c, cs ++ rest, by rw [heq]; rfl, h.2 c (heq ▸ List.mem_cons_self)⟩

theorem isBareKeyChar_ne {c d : Char} (hc : isBareKeyChar c = true)
    (hd : isBareKeyChar d = false) : c ≠ d := by
  rintro rfl
  rw [hd] at hc
  nomatch hc

theorem keyPart_bare {name : String} (hname : isBare name = true)
    (hrest : ∀ c ∈ rest.head?, isBareKeyChar c = false) :
    keyPart (name.toList ++ rest) = some (name, rest) := by
  have hspan : span isBareKeyChar (name.toList ++ rest) = some (name.toList, rest) :=
    span_append (by simp [isBare] at hname; exact hname.2) hrest
  have hne : name.toList.isEmpty = false := by simp [isBare] at hname; simpa using hname.1
  obtain ⟨c, cs, heq, hc⟩ := isBareKeyChar_head hname rest
  rw [heq] at hspan ⊢
  have hquote := isBareKeyChar_ne hc (d := '"') rfl
  have hquote' := isBareKeyChar_ne hc (d := '\'') rfl
  unfold keyPart
  rw [scan_bind (peek_apply _), List.head?_cons]
  simp only [Option.some.injEq, hquote, hquote', imp_self]
  rw [scan_bind hspan, hne, if_neg Bool.false_ne_true, pure_apply, String.ofList_toList]

/-- A key of one part, with what may stand behind it. -/
theorem key_bare {name : String} {rest' : List Char} (hname : isBare name = true)
    (hrest : ∀ c ∈ rest.head?, isBareKeyChar c = false) (hspaces : spaces rest = some ((), rest'))
    (hdot : rest'.head? ≠ some '.') : key (name.toList ++ rest) = some (([], name), rest') := by
  have hfront : spaces (name.toList ++ rest) = some ((), name.toList ++ rest) := by
    apply spaces_of_not
    obtain ⟨c, cs, heq, hc⟩ := isBareKeyChar_head hname rest
    have hblank := isBareKeyChar_ne hc (d := ' ') rfl
    have htab := isBareKeyChar_ne hc (d := '\t') rfl
    simp [heq, isSpace, hblank, htab]
  have hparts : keyParts maxDepth (name.toList ++ rest) = some ([name], rest') := by
    unfold maxDepth keyParts
    rw [scan_bind hfront, scan_bind (keyPart_bare hname hrest), scan_bind hspaces,
      scan_bind (accept_of_ne hdot)]
    rfl
  exact scan_bind hparts

/-! ### Lines -/

/-- A line of a table: a key that needs no quotes, and a value as it is written and as it is read.
-/
structure Pair where
  key : String
  written : List Char
  value : Value
  bare : isBare key = true
  /-- no blank counts as part of the value -/
  tight : ∀ c ∈ written.head?, isSpace c = false
  reads : ∀ rest, Scan.value maxDepth (written ++ '\n' :: rest) = some (value, '\n' :: rest)

namespace Pair

/-- The line as it stands in the document. -/
def chars (p : Pair) : List Char := p.key.toList ++ (' ' :: '=' :: ' ' :: p.written) ++ ['\n']

/-- The pair while the document is read. -/
def node (p : Pair) : String × Node := (p.key, .value p.value)

/-- The pair in the document that has been read. -/
def entry (p : Pair) : String × Value := (p.key, p.value)

theorem chars_append (p : Pair) (rest : List Char) :
    p.chars ++ rest = p.key.toList ++ (' ' :: '=' :: ' ' :: p.written ++ '\n' :: rest) := by
  simp [chars]

theorem exists_head (p : Pair) (rest : List Char) :
    ∃ c cs, p.chars ++ rest = c :: cs ∧ isBareKeyChar c = true := by
  rw [chars_append]
  exact isBareKeyChar_head p.bare _

end Pair

/-- A document of which one table has been opened, where its pairs are defined. -/
def State.within (name : String) (entries : Entries) : State :=
  ⟨[(name, .table .header entries)], [name]⟩

theorem get?_eq_none {entries : Entries} {key : String} (h : key ∉ entries.map (·.1)) :
    entries.get? key = none := by
  unfold Entries.get?
  rw [List.find?_eq_none.mpr, Option.map_none]
  intro e he hk
  simp at hk
  exact h (List.mem_map.mpr ⟨e, he, hk⟩)

/-- A pair is defined in the table that has been opened, if its key is new there. -/
theorem change_within {name : String} {entries : Entries} {p : Pair}
    (h : p.key ∉ entries.map (·.1)) :
    (State.within name entries).entries.change false
        (fun _ inner => inner.define [] p.key p.value) false (State.within name entries).table =
      some (State.within name (entries ++ [p.node])).entries := by
  have hdefine : entries.define [] p.key p.value = some (entries ++ [p.node]) := by
    simp [Entries.define, Entries.change, get?_eq_none h, Pair.node]
  simp [State.within, Entries.change, Entries.get?, Entries.put, hdefine]

theorem line_pair {name : String} {entries : Entries} {p : Pair}
    (h : p.key ∉ entries.map (·.1)) (rest : List Char) :
    line (.within name entries) (p.chars ++ rest) =
      some (.within name (entries ++ [p.node]), rest) := by
  have hkey : key (p.chars ++ rest) =
      some (([], p.key), '=' :: ' ' :: p.written ++ '\n' :: rest) := by
    rw [p.chars_append]
    exact key_bare p.bare (by simp [isBareKeyChar]) (spaces_single (by simp [isSpace])) (by simp)
  have hspaces : spaces (' ' :: p.written ++ '\n' :: rest) =
      some ((), p.written ++ '\n' :: rest) := by
    apply spaces_single
    have htight := p.tight
    cases hw : p.written with
    | nil => simp [isSpace]
    | cons c cs => simpa [hw] using htight
  obtain ⟨c, cs, heq, hc⟩ := p.exists_head rest
  unfold line
  rw [scan_bind (peek_apply _), show (p.chars ++ rest).head? = some c by rw [heq]; rfl]
  simp only [isBareKeyChar_ne hc (d := '[') rfl, isBareKeyChar_ne hc (d := '#') rfl, imp_self]
  rw [if_neg (by simp [isBareKeyChar_ne hc (d := '\n') rfl, isBareKeyChar_ne hc (d := '\r') rfl]),
    scan_bind hkey]
  refine (scan_bind (word_cons '=' _)).trans ((scan_bind hspaces).trans ?_)
  rw [scan_bind (p.reads rest), scan_bind (lineTail_break rest)]
  dsimp only
  rw [change_within h]
  rfl

/-- The lines of a table are read to their end, one pair for each. -/
theorem lines_pairs {name : String} {entries : Entries} {pairs : List Pair} {fuel : Nat}
    (hkeys : (entries.map (·.1) ++ pairs.map Pair.key).Nodup) (hfuel : pairs.length < fuel) :
    lines fuel (.within name entries) (pairs.flatMap Pair.chars) =
      some (.within name (entries ++ pairs.map Pair.node), []) := by
  induction pairs generalizing entries fuel with
  | nil =>
    obtain ⟨fuel, rfl⟩ := Nat.exists_eq_succ_of_ne_zero (Nat.ne_zero_of_lt hfuel)
    rw [List.map_nil, List.append_nil]
    rfl
  | cons p pairs ih =>
    obtain ⟨fuel, rfl⟩ := Nat.exists_eq_succ_of_ne_zero (Nat.ne_zero_of_lt hfuel)
    have hkey : p.key ∉ entries.map (·.1) := by
      intro hmem
      exact (List.nodup_append.mp hkeys).2.2 _ hmem _ List.mem_cons_self rfl
    have ih : lines fuel (.within name (entries ++ [p.node])) (pairs.flatMap Pair.chars) =
        some (.within name (entries ++ [p.node] ++ pairs.map Pair.node), []) :=
      ih (by simpa [Pair.node] using hkeys) (by simpa using hfuel)
    obtain ⟨c, cs, heq, hc⟩ := p.exists_head (pairs.flatMap Pair.chars)
    have hhead : (p.chars ++ pairs.flatMap Pair.chars).head? = some c := by rw [heq]; rfl
    have hspaces : spaces (p.chars ++ pairs.flatMap Pair.chars) =
        some ((), p.chars ++ pairs.flatMap Pair.chars) := by
      apply spaces_of_not
      simp [hhead, isSpace, isBareKeyChar_ne hc (d := ' ') rfl, isBareKeyChar_ne hc (d := '\t') rfl]
    rw [List.flatMap_cons, lines, scan_bind hspaces, scan_bind (peek_apply _), hhead,
      if_neg (by simp), scan_bind (line_pair hkey _), ih, List.append_assoc]
    rfl

/-- The header opens the first table of a document. -/
theorem line_header {name : String} (hname : isBare name = true) (rest : List Char) :
    line ⟨[], []⟩ ('[' :: (name.toList ++ (']' :: '\n' :: rest))) =
      some (.within name [], rest) := by
  have hkey : key (name.toList ++ (']' :: '\n' :: rest)) = some (([], name), ']' :: '\n' :: rest) :=
    key_bare hname (by simp [isBareKeyChar]) (spaces_of_not (by simp [isSpace])) (by simp)
  have hlist : accept ['[', '['] ('[' :: (name.toList ++ (']' :: '\n' :: rest))) =
      some (false, '[' :: (name.toList ++ (']' :: '\n' :: rest))) := by
    apply accept_of_not
    obtain ⟨c, cs, heq, hc⟩ := isBareKeyChar_head hname (']' :: '\n' :: rest)
    simp [heq, List.isPrefixOf, Ne.symm (isBareKeyChar_ne hc (d := '[') rfl)]
  unfold line
  rw [scan_bind (peek_apply _)]
  simp only [List.head?_cons]
  rw [scan_bind hlist, if_neg Bool.false_ne_true, scan_bind (discard_of (next_cons _ _)),
    scan_bind hkey]
  refine (scan_bind (word_cons ']' _)).trans ((scan_bind (lineTail_break rest)).trans ?_)
  rfl

/-! ### The document -/

theorem length_pairs_le (pairs : List Pair) : pairs.length ≤ (pairs.flatMap Pair.chars).length := by
  induction pairs with
  | nil => exact Nat.le_refl 0
  | cons p pairs ih =>
    simp [Pair.chars] at ih ⊢
    omega

theorem document_table {name : String} {pairs : List Pair} (hname : isBare name = true)
    (hkeys : (pairs.map Pair.key).Nodup) :
    document ('[' :: (name.toList ++ (']' :: '\n' :: pairs.flatMap Pair.chars))) =
      some (.table (Node.entryValues (State.within name (pairs.map Pair.node)).entries), []) := by
  have hpairs (fuel : Nat) (hfuel : pairs.length < fuel) :
      lines fuel (.within name []) (pairs.flatMap Pair.chars) =
        some (.within name (pairs.map Pair.node), []) :=
    lines_pairs hkeys hfuel
  have hlength := length_pairs_le pairs
  unfold document
  rw [scan_bind (discard_of (accept_of_ne (by simp))), scan_bind (get_apply _)]
  refine (scan_bind ?_).trans rfl
  rw [lines, scan_bind (spaces_of_not (by simp [isSpace])), scan_bind (peek_apply _),
    if_neg (by simp), scan_bind (line_header hname _)]
  apply hpairs
  simp only [List.length_cons, List.length_append]
  omega

end Scan

theorem Node.entryValues_pairs (pairs : List Scan.Pair) :
    Node.entryValues (pairs.map Scan.Pair.node) = pairs.map Scan.Pair.entry := by
  induction pairs with
  | nil => rfl
  | cons p pairs ih =>
    rw [List.map_cons, List.map_cons, ← ih]
    rfl

/-- A document of one table is read as that table, with its pairs in their order. -/
theorem Value.read?_table {name : String} {pairs : List Scan.Pair}
    (hname : Scan.isBare name = true) (hkeys : (pairs.map Scan.Pair.key).Nodup) :
    Value.read? (String.ofList
      ('[' :: (name.toList ++ (']' :: '\n' :: pairs.flatMap Scan.Pair.chars)))) =
        some (.table [(name, .table (pairs.map Scan.Pair.entry))]) := by
  unfold Value.read?
  rw [String.toList_ofList, Scan.document_table hname hkeys, ← Node.entryValues_pairs]
  rfl

end Toml
end CodeQuality
