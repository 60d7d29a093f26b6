import CodeQuality.Proofs.Toml.Scan
import CodeQuality.Toml.Quoted

/-!
# Written texts read back

Each of the four forms of a text is read as the text that has been written. The forms with double
quotes hold any text, since what cannot stand for itself has an escape; the forms with single
quotes hold only texts without controls and without the quotes that would close them, and only for
such texts are they chosen.

* `basicBody_encodeLine`, `literalBody_append` — the forms on one line.
* `linesBody_spells`, `linesText_spells` — the forms on several lines.
* `text_encode` — a text in the form that is chosen for it.
-/

namespace CodeQuality
namespace Toml
namespace Scan

open Quoted

variable {c quote : Char} {cs ds rest read : List Char} {fuel k : Nat}

theorem ne_of_inComment (h : inComment c = true) : c ≠ '\n' ∧ c ≠ '\r' := by
  constructor <;> (intro he; simp [inComment, he] at h)

theorem inComment_of_inText (h : inText quote c = true) : inComment c = true := by
  simp [inText] at h
  exact h.1.1

/-! ### Escapes -/

theorem hexValue?_hexDigit : ∀ n < 16, numbered.hexValue? (hexDigit n) = some n := by decide

theorem numbered_hexDigits (h : c.toNat < 0x100) (rest : List Char) :
    numbered 4 ('0' :: '0' :: hexDigit (c.toNat / 16) :: hexDigit (c.toNat % 16) :: rest) =
      some (c, rest) := by
  have hhigh := hexValue?_hexDigit (c.toNat / 16) (by omega)
  have hlow := hexValue?_hexDigit (c.toNat % 16) (by omega)
  have hzero : numbered.hexValue? '0' = some 0 := rfl
  have hn : 16 * (c.toNat / 16) + c.toNat % 16 = c.toNat := Nat.div_add_mod _ _
  have hvalid : c.toNat.isValidChar := c.valid
  simp [numbered, hzero, hhigh, hlow, hn, hvalid]

/-- A character of a form with escapes either stands for itself or has an escape, and no escape
looks like the end of a line that goes on. -/
theorem encodeChar_cases (c : Char) :
    (encodeChar c = [c] ∧ inComment c = true ∧ c ≠ '\\') ∨
      ∃ d ds, encodeChar c = '\\' :: d :: ds ∧ (isSpace d || d = '\n' || d = '\r') = false ∧
        ∀ rest, escaped (d :: ds ++ rest) = some (c, rest) := by
  unfold encodeChar
  by_cases hb : c = '\\'
  · right; subst hb; exact ⟨_, _, rfl, rfl, fun _ => rfl⟩
  by_cases ht : c = '\t'
  · right; subst ht; exact ⟨_, _, rfl, rfl, fun _ => rfl⟩
  by_cases hr : c = '\r'
  · right; subst hr; exact ⟨_, _, rfl, rfl, fun _ => rfl⟩
  rw [if_neg hb, if_neg ht, if_neg hr]
  by_cases hc : (c.toNat < 0x20 || c.toNat = 0x7F) = true
  · right
    rw [if_pos hc]
    refine ⟨_, _, rfl, rfl, fun rest => ?_⟩
    exact numbered_hexDigits (by simp at hc; omega) rest
  · left
    rw [if_neg hc]
    refine ⟨rfl, ?_, hb⟩
    simp at hc
    simp [inComment, hc]

/-! ### One line -/

theorem basicBody_plain (h : inText '"' c = true) :
    basicBody (fuel + 1) read (c :: rest) = basicBody fuel (c :: read) rest := by
  rw [basicBody, scan_bind (next_cons c rest)]
  split
  · simp [inText] at h
  · simp [inText] at h
  · rw [if_pos h]

theorem basicBody_escaped (h : escaped ds = some (c, rest)) :
    basicBody (fuel + 1) read ('\\' :: ds) = basicBody fuel (c :: read) rest := by
  rw [basicBody, scan_bind (next_cons _ ds)]
  exact scan_bind h

/-- What stands between double quotes on one line is read as the text that it has been written for.
-/
theorem basicBody_encodeLine (h : (encodeLine cs).length < fuel) :
    basicBody fuel read (encodeLine cs ++ '"' :: rest) = some (read.reverse ++ cs, rest) := by
  induction cs generalizing fuel read with
  | nil =>
    obtain ⟨fuel, rfl⟩ := Nat.exists_eq_succ_of_ne_zero (Nat.ne_of_gt h)
    rw [List.append_nil]
    rfl
  | cons c cs ih =>
    obtain ⟨fuel, rfl⟩ := Nat.exists_eq_succ_of_ne_zero (Nat.ne_zero_of_lt h)
    -- However long the escape of `c` is, enough fuel is left for what follows it.
    have htail (n : Nat) (hn : 0 < n) (h : n + (encodeLine cs).length < fuel + 1) :
        basicBody fuel (c :: read) (encodeLine cs ++ '"' :: rest) =
          some (read.reverse ++ c :: cs, rest) := by
      rw [ih (by omega), List.reverse_cons, List.append_assoc]
      rfl
    rw [encodeLine, List.flatMap_cons] at h ⊢
    rw [List.length_append] at h
    by_cases hq : c = '"'
    · subst hq
      rw [if_pos rfl] at h ⊢
      exact (basicBody_escaped rfl).trans (htail 2 (by omega) h)
    by_cases hn : c = '\n'
    · subst hn
      rw [if_neg hq, if_pos rfl] at h ⊢
      exact (basicBody_escaped rfl).trans (htail 2 (by omega) h)
    rw [if_neg hq, if_neg hn] at h ⊢
    rcases encodeChar_cases c with ⟨heq, hin, hb⟩ | ⟨d, ds, heq, -, hread⟩
    · rw [heq] at h ⊢
      have hin : inText '"' c = true := by simp [inText, hin, hq, hb]
      exact (basicBody_plain hin).trans (htail 1 (by omega) h)
    · rw [heq] at h ⊢
      rw [List.append_assoc]
      exact (basicBody_escaped (hread _)).trans (htail _ (by simp) h)

theorem literalBody_append (h : ∀ c ∈ cs, inText '\'' c = true) :
    literalBody (cs ++ '\'' :: rest) = some (cs, rest) := by
  unfold literalBody
  rw [scan_bind (span_append h (by simp [inText]))]
  exact scan_bind (word_cons '\'' rest)

/-! ### Several lines -/

theorem head?_quotes (hk : 0 < k) : (List.replicate k quote ++ rest).head? = some quote := by
  obtain ⟨k, rfl⟩ := Nat.exists_eq_succ_of_ne_zero (Nat.ne_of_gt hk)
  rfl

section
variable (hrest : ∀ d ∈ rest.head?, d ≠ quote)
include hrest

theorem span_quotes (k : Nat) :
    span (· = quote) (List.replicate k quote ++ rest) = some (List.replicate k quote, rest) := by
  apply span_append
  · intro d hd
    simp [List.eq_of_mem_replicate hd]
  · intro d hd
    simp [hrest d hd]

/-- Up to two quotes belong to the text. -/
theorem linesBody_quotes (hk : 0 < k) (hk' : k ≤ 2) :
    linesBody quote (fuel + 1) read (List.replicate k quote ++ rest) =
      linesBody quote fuel (List.replicate k quote ++ read) rest := by
  rw [linesBody, scan_bind (peek_apply _), if_pos (head?_quotes hk),
    scan_bind (span_quotes hrest k),
    List.length_replicate]
  simp only [if_pos hk']

/-- Three quotes close the text, and up to two before them belong to it. -/
theorem linesBody_close (hk : k ≤ 2) :
    linesBody quote (fuel + 1) read (List.replicate (k + 3) quote ++ rest) =
      some ((List.replicate k quote ++ read).reverse, rest) := by
  rw [linesBody, scan_bind (peek_apply _), if_pos (head?_quotes (Nat.succ_pos _)),
    scan_bind (span_quotes hrest (k + 3)),
    List.length_replicate]
  simp only [if_neg (show ¬k + 3 ≤ 2 by omega), if_pos (show k + 3 ≤ 5 by omega),
    Nat.add_sub_cancel]
  rfl

end

/-- Quotes that the reader has not passed yet belong to the text, if something else follows. -/
theorem linesBody_pending {n : Nat} (read rest : List Char) (hrest : ∀ d ∈ rest.head?, d ≠ quote)
    (hk : k ≤ 2) (h : k + n < fuel) :
    ∃ fuel', n < fuel' ∧ linesBody quote fuel read (List.replicate k quote ++ rest) =
      linesBody quote fuel' (List.replicate k quote ++ read) rest := by
  rcases Nat.eq_zero_or_pos k with rfl | hpos
  · exact ⟨fuel, by omega, rfl⟩
  · obtain ⟨fuel, rfl⟩ := Nat.exists_eq_succ_of_ne_zero (Nat.ne_zero_of_lt h)
    exact ⟨fuel, by omega, linesBody_quotes hrest hpos hk⟩

theorem linesBody_break (h : quote ≠ '\n') :
    linesBody quote (fuel + 1) read ('\n' :: rest) = linesBody quote fuel ('\n' :: read) rest := by
  have hhead : ('\n' :: rest).head? ≠ some quote := fun he => h (Option.some.inj he).symm
  rw [linesBody, scan_bind (peek_apply _), if_neg hhead, scan_bind (acceptLineBreak_break rest),
    if_pos rfl]

theorem linesBody_plain (h : inText quote c = true) :
    linesBody quote (fuel + 1) read (c :: rest) = linesBody quote fuel (c :: read) rest := by
  have hq : (c :: rest).head? ≠ some quote := by
    intro he
    simp at he
    simp [inText, he] at h
  have hn : (c :: rest).head? ≠ some '\n' := by
    intro he
    simp at he
    simp [inText, inComment, he] at h
  have hr : (c :: rest).head? ≠ some '\r' := by
    intro he
    simp at he
    simp [inText, inComment, he] at h
  have hb : ¬(c = '\\' && quote = '"') = true := by
    intro he
    simp at he
    simp [inText, he] at h
  rw [linesBody, scan_bind (peek_apply _), if_neg hq, scan_bind (acceptLineBreak_of_ne hn hr),
    if_neg Bool.false_ne_true, scan_bind (next_cons c rest), if_neg hb, if_pos h]

theorem linesBody_escaped {d : Char} (hd : (isSpace d || d = '\n' || d = '\r') = false)
    (h : escaped (d :: ds) = some (c, rest)) :
    linesBody '"' (fuel + 1) read ('\\' :: d :: ds) = linesBody '"' fuel (c :: read) rest := by
  rw [linesBody, scan_bind (peek_apply _), if_neg (by simp),
    scan_bind (acceptLineBreak_of_ne (by simp) (by simp)), if_neg Bool.false_ne_true,
    scan_bind (next_cons _ _), if_pos (by simp), scan_bind (peek_apply _),
    if_neg (by simpa using hd)]
  exact scan_bind h

/-- Behind `k` quotes that belong to the text, `ds` stands for the rest `cs` of it. -/
inductive Spells (quote : Char) : (k : Nat) → (ds cs : List Char) → Prop where
  | done {k : Nat} (hk : k ≤ 2) : Spells quote k [] []
  | quote {k : Nat} {ds cs : List Char} (h : Spells quote (k + 1) ds cs) :
      Spells quote k (quote :: ds) (quote :: cs)
  | lineBreak {k : Nat} {ds cs : List Char} (hk : k ≤ 2) (h : Spells quote 0 ds cs) :
      Spells quote k ('\n' :: ds) ('\n' :: cs)
  | plain {k : Nat} {c : Char} {ds cs : List Char} (hk : k ≤ 2) (hc : inText quote c = true)
      (h : Spells quote 0 ds cs) : Spells quote k (c :: ds) (c :: cs)
  | escaped {k : Nat} {c d : Char} {front ds cs : List Char} (hk : k ≤ 2) (hquote : quote = '"')
      (hd : (isSpace d || d = '\n' || d = '\r') = false)
      (hread : ∀ rest, escaped (d :: front ++ rest) = some (c, rest))
      (h : Spells quote 0 ds cs) : Spells quote k ('\\' :: d :: front ++ ds) (c :: cs)

theorem reverse_pending :
    (c :: (List.replicate k quote ++ read)).reverse ++ cs =
      read.reverse ++ (List.replicate k quote ++ c :: cs) := by
  simp

/-- The reader takes a run of quotes at once, so that the `k` of them are still to be read when it
comes to the rest. -/
theorem linesBody_spells (h : Spells quote k ds cs) (hbreak : quote ≠ '\n')
    (hrest : ∀ d ∈ rest.head?, d ≠ quote) (hfuel : k + ds.length < fuel) :
    linesBody quote fuel read
        (List.replicate k quote ++ (ds ++ (List.replicate 3 quote ++ rest))) =
      some (read.reverse ++ (List.replicate k quote ++ cs), rest) := by
  -- A quote joins those that are still to be read; every other rule first reads these.
  induction h generalizing fuel read with
  | done hk =>
    obtain ⟨fuel, rfl⟩ := Nat.exists_eq_succ_of_ne_zero (Nat.ne_zero_of_lt hfuel)
    rw [List.nil_append, ← List.append_assoc, List.replicate_append_replicate,
      linesBody_close hrest hk, List.reverse_append, List.reverse_replicate, List.append_nil]
  | @quote k ds cs h ih =>
    have hfuel : k + 1 + ds.length < fuel := by
      rw [List.length_cons] at hfuel
      omega
    have ih := @ih read fuel hfuel
    rwa [List.replicate_succ', List.append_assoc, List.append_assoc] at ih
  | @lineBreak k ds cs hk h ih =>
    obtain ⟨fuel, hf, hread⟩ := linesBody_pending read
      ('\n' :: ds ++ (List.replicate 3 quote ++ rest)) (by simpa using hbreak.symm) hk hfuel
    obtain ⟨fuel, rfl⟩ := Nat.exists_eq_succ_of_ne_zero (Nat.ne_zero_of_lt hf)
    rw [hread, List.cons_append, linesBody_break hbreak, ← reverse_pending]
    exact ih (by simp at hf; omega)
  | @plain k c ds cs hk hc h ih =>
    have hne : c ≠ quote := by
      intro he
      simp [inText, he] at hc
    obtain ⟨fuel, hf, hread⟩ := linesBody_pending read
      (c :: ds ++ (List.replicate 3 quote ++ rest)) (by simpa using hne) hk hfuel
    obtain ⟨fuel, rfl⟩ := Nat.exists_eq_succ_of_ne_zero (Nat.ne_zero_of_lt hf)
    rw [hread, List.cons_append, linesBody_plain hc, ← reverse_pending]
    exact ih (by simp at hf; omega)
  | @escaped k c d front ds cs hk hquote hd hescaped h ih =>
    subst hquote
    have hhead : ∀ e ∈ ('\\' :: d :: front ++ ds ++ (List.replicate 3 '"' ++ rest)).head?,
        e ≠ '"' := by
      simp
    obtain ⟨fuel, hf, hread⟩ := linesBody_pending read _ hhead hk hfuel
    obtain ⟨fuel, rfl⟩ := Nat.exists_eq_succ_of_ne_zero (Nat.ne_zero_of_lt hf)
    refine hread.trans ?_
    rw [List.append_assoc, ← reverse_pending]
    refine (linesBody_escaped hd (hescaped (ds ++ (List.replicate 3 '"' ++ rest)))).trans ?_
    exact ih (by simp at hf; omega)

/-- With a third quote in a row escaped, any text can stand between three double quotes. -/
theorem spells_encodeLines (hk : k ≤ 2) : Spells '"' k (encodeLines k cs) cs := by
  induction cs generalizing k with
  | nil => exact .done hk
  | cons c cs ih =>
    unfold encodeLines
    by_cases hq : c = '"'
    · subst hq
      rw [if_pos rfl]
      -- Only the third quote in a row is escaped.
      by_cases hk₂ : k = 2
      · rw [if_pos hk₂]
        have hread (rest : List Char) : escaped ('"' :: [] ++ rest) = some ('"', rest) := rfl
        exact .escaped hk rfl rfl hread (ih (by omega))
      · rw [if_neg hk₂]
        exact .quote (ih (by omega))
    rw [if_neg hq]
    by_cases hn : c = '\n'
    · subst hn
      rw [if_pos rfl]
      exact .lineBreak hk (ih (by omega))
    rw [if_neg hn]
    rcases encodeChar_cases c with ⟨heq, hin, hb⟩ | ⟨d, front, heq, hd, hread⟩
    · rw [heq]
      exact .plain hk (by simp [inText, hin, hq, hb]) (ih (by omega))
    · rw [heq]
      exact .escaped hk rfl hd hread (ih (by omega))

/-! ### The choice of a form -/

theorem le_longestRun (q : Char) (k : Nat) (cs : List Char) : k ≤ longestRun q k cs := by
  induction cs generalizing k with
  | nil => exact Nat.le_refl k
  | cons c cs ih =>
    rw [longestRun]
    split
    · exact Nat.le_trans (Nat.le_succ k) (ih (k + 1))
    · exact Nat.le_max_left _ _

theorem not_mem_of_longestRun (h : longestRun quote 0 cs = 0) : quote ∉ cs := by
  induction cs with
  | nil => simp
  | cons c cs ih =>
    rw [longestRun] at h
    split at h
    · have := le_longestRun quote (0 + 1) cs
      omega
    · next hne =>
      have hcs := ih (by omega)
      simp [hcs, Ne.symm hne]

/-- A character that is no control stands for itself between single quotes. -/
theorem inText_of_not_isControl (h : isControl c = false) (hn : c ≠ '\n') (hq : c ≠ '\'') :
    inText '\'' c = true := by
  simp [isControl, hn] at h
  simp [inText, inComment, hq]
  grind

/-- Without controls and with at most two single quotes in a row, a text can stand between three. -/
theorem spells_literal (hcs : ∀ c ∈ cs, isControl c = false) (hrun : longestRun '\'' k cs ≤ 2) :
    Spells '\'' k cs cs := by
  induction cs generalizing k with
  | nil => exact .done hrun
  | cons c cs ih =>
    have hk : k ≤ 2 := Nat.le_trans (le_longestRun _ _ _) hrun
    have ih {k : Nat} := ih (k := k) fun c hc => hcs c (List.mem_cons_of_mem _ hc)
    rw [longestRun] at hrun
    by_cases hq : c = '\''
    · subst hq
      rw [if_pos rfl] at hrun
      exact .quote (ih hrun)
    rw [if_neg hq] at hrun
    by_cases hn : c = '\n'
    · subst hn
      exact .lineBreak hk (ih (by omega))
    · exact .plain hk (inText_of_not_isControl (hcs c List.mem_cons_self) hn hq) (ih (by omega))

theorem formOf_literal (h : formOf cs = .literal) : ∀ c ∈ cs, inText '\'' c = true := by
  unfold formOf at h
  grind [inText_of_not_isControl, not_mem_of_longestRun]

theorem formOf_literalLines (h : formOf cs = .literalLines) :
    (∀ c ∈ cs, isControl c = false) ∧ longestRun '\'' 0 cs ≤ 2 := by
  unfold formOf at h
  grind

/-! ### Whole texts -/

/-- A text with line breaks begins on a line of its own, and the break before it does not count. -/
theorem linesText_spells (h : Spells quote 0 ds cs) (hquote : inComment quote = true)
    (hrest : ∀ d ∈ rest.head?, d ≠ quote) :
    linesText quote ((if cs.contains '\n' then ['\n'] else []) ++
      (ds ++ (List.replicate 3 quote ++ rest))) = some (cs, rest) := by
  obtain ⟨hn, hr⟩ := ne_of_inComment hquote
  have hlead : acceptLineBreak ((if cs.contains '\n' then ['\n'] else []) ++
      (ds ++ (List.replicate 3 quote ++ rest))) =
        some (cs.contains '\n', ds ++ (List.replicate 3 quote ++ rest)) := by
    cases hb : cs.contains '\n' with
    | true => rfl
    | false =>
      -- Otherwise the text cannot begin with a line break, however it is written.
      apply acceptLineBreak_of_ne <;> cases h with
      | done _ => simpa using by assumption
      | quote _ => simpa using by assumption
      | lineBreak _ _ => simp at hb
      | plain _ hc _ =>
        have := ne_of_inComment (inComment_of_inText hc)
        simp [this]
      | escaped _ _ _ _ _ => simp
  unfold linesText
  rw [scan_bind (discard_of hlead), scan_bind (get_apply _)]
  exact linesBody_spells h hn hrest (by grind)

theorem head?_encodeLine (cs : List Char) : ∀ d ∈ (encodeLine cs).head?, d ≠ '"' := by
  intro d hd
  cases cs with
  | nil => nomatch hd
  | cons c cs =>
    rw [encodeLine, List.flatMap_cons] at hd
    by_cases hq : c = '"'
    · rw [if_pos hq] at hd
      cases hd
      decide
    by_cases hn : c = '\n'
    · rw [if_neg hq, if_pos hn] at hd
      cases hd
      decide
    rw [if_neg hq, if_neg hn] at hd
    rcases encodeChar_cases c with ⟨heq, -, -⟩ | ⟨_, _, heq, -, -⟩
    · rw [heq] at hd
      cases hd
      exact hq
    · rw [heq] at hd
      cases hd
      decide

/-- A text on one line does not look as if it began with three quotes, even if it is empty. -/
theorem accept_three (hds : ∀ d ∈ ds.head?, d ≠ quote) (hrest : ∀ d ∈ rest.head?, d ≠ quote) :
    accept [quote, quote, quote] (quote :: (ds ++ quote :: rest)) =
      some (false, quote :: (ds ++ quote :: rest)) := by
  apply accept_of_not
  -- Behind the second quote comes the text, or what stands behind the text if that is empty.
  cases ds with
  | nil =>
    cases rest with
    | nil => simp [List.isPrefixOf]
    | cons d rest => simp [List.isPrefixOf, Ne.symm (hrest d rfl)]
  | cons d ds => simp [List.isPrefixOf, Ne.symm (hds d rfl)]

theorem lineText_basic (cs rest : List Char) :
    lineText ('"' :: (encodeLine cs ++ '"' :: rest)) = some (cs, rest) := by
  unfold lineText
  rw [scan_bind (accept_cons '"' _), if_pos rfl, scan_bind (get_apply _)]
  exact basicBody_encodeLine (by grind)

theorem lineText_literal (h : ∀ c ∈ cs, inText '\'' c = true) (rest : List Char) :
    lineText ('\'' :: (cs ++ '\'' :: rest)) = some (cs, rest) := by
  unfold lineText
  rw [scan_bind (accept_of_ne (by simp)), if_neg Bool.false_ne_true]
  exact (scan_bind (word_cons '\'' _)).trans (literalBody_append h)

/-- A text is read from the form that has been chosen for it, whatever the text is. -/
theorem text_encode (cs rest : List Char) (hrest : ∀ d ∈ rest.head?, d ≠ '"' ∧ d ≠ '\'') :
    text (encode cs ++ rest) = some (String.ofList cs, rest) := by
  have hdouble : ∀ d ∈ rest.head?, d ≠ '"' := fun d hd => (hrest d hd).1
  have hsingle : ∀ d ∈ rest.head?, d ≠ '\'' := fun d hd => (hrest d hd).2
  unfold text encode
  -- The reader tries three double quotes, three single ones, and then one line.
  cases hform : formOf cs with
  | basic =>
    simp only [List.append_assoc, List.cons_append, List.nil_append]
    rw [scan_bind (accept_three (head?_encodeLine cs) hdouble), if_neg Bool.false_ne_true,
      scan_bind (accept_of_ne (by simp)), if_neg Bool.false_ne_true]
    exact scan_bind (lineText_basic cs rest)
  | literal =>
    have hcs := formOf_literal hform
    have hhead : ∀ d ∈ cs.head?, d ≠ '\'' := by
      intro d hd he
      have := hcs d (List.mem_of_mem_head? hd)
      simp [inText, he] at this
    simp only [List.append_assoc, List.cons_append, List.nil_append]
    rw [scan_bind (accept_of_ne (by simp)), if_neg Bool.false_ne_true,
      scan_bind (accept_three hhead hsingle), if_neg Bool.false_ne_true]
    exact scan_bind (lineText_literal hcs rest)
  | basicLines =>
    have hspells : Spells '"' 0 (encodeLines 0 cs) cs := spells_encodeLines (Nat.zero_le 2)
    have hread := linesText_spells hspells rfl hdouble
    simp only [List.append_assoc]
    rw [scan_bind (accept_append ['"', '"', '"'] _), if_pos rfl]
    exact scan_bind hread
  | literalLines =>
    obtain ⟨hcs, hrun⟩ := formOf_literalLines hform
    have hread := linesText_spells (spells_literal hcs hrun) rfl hsingle
    simp only [List.append_assoc]
    rw [scan_bind (accept_of_ne (by simp)), if_neg Bool.false_ne_true,
      scan_bind (accept_append ['\'', '\'', '\''] _), if_pos rfl]
    exact scan_bind hread

end Scan
end Toml
end CodeQuality
