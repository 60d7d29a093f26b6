import CodeQuality.Proofs.Json.Layout
import CodeQuality.Proofs.Json.Parts

/-!
# Containers read back

What a printer puts between the brackets of a container is put together of parts, and so the loops
take it up part by part, for parts of any kind. The parts of a list are given by a function to their
texts and one to what is read of them. The parts of an object change what has been gathered;
`Gathers` is the run of these changes.
-/

namespace CodeQuality
namespace Json

variable {α σ ι : Type}

/-- A text that can stand at the front of a list: no blank comes first, and no bracket. -/
def Opens (t : List Char) : Prop := ∃ c cs, t = c :: cs ∧ isSpace c = false ∧ c ≠ ']'

namespace Container

open Reader

variable {lead close rest : List Char}

/-- What stands between the brackets of a container is put together of its parts. -/
theorem between_eq_join (lead close : List Char) (ts : List (List Char)) :
    between lead close ts =
      Text.join ',' (ts.map (lead ++ ·)) ++ (if ts = [] then [] else close) := by
  cases ts with
  | nil => rfl
  | cons t ts => simp only [between, List.map_cons, join_cons_eq, List.flatMap_map, reduceCtorEq,
      if_false]

theorem blanks_ite (hc : Blanks close) {p : Prop} [Decidable p] :
    Blanks (if p then [] else close) := by
  split
  · exact no_blanks
  · exact hc

/-! ### Lists -/

section List

variable {item : Reader α}

/-- Items are added in front of those that have been read. -/
theorem chain_items (hl : Blanks lead) {text : ι → List Char} {val : ι → α} {xs : List ι}
    (h : ∀ x ∈ xs, Opens (text x) ∧ item.Decodes (text x) (val x)) (read : List α) :
    Chain OpensItem (nextItem item) ((xs.map text).map (lead ++ ·)) read
      ((xs.map val).reverse ++ read) := by
  induction xs generalizing read with
  | nil => rfl
  | cons x xs ih =>
    obtain ⟨⟨c, cs, htext, hspace, hne⟩, hitem⟩ := h x List.mem_cons_self
    have ih := ih (fun y hy => h y (List.mem_cons_of_mem x hy)) (val x :: read)
    have htaken : (nextItem item read).TakesUp OpensItem (lead ++ c :: cs ++ []) (val x :: read) :=
      .mk hl no_blanks ⟨hspace, hne⟩ fun rest hrest =>
        Reads.map (· :: read) (htext ▸ hitem.reads hrest)
    rw [List.append_nil, ← htext] at htaken
    refine ⟨val x :: read, htaken, ?_⟩
    rw [List.map_cons, List.reverse_cons, List.append_assoc]
    exact ih

/-- All items of a list, whose number need not be known. -/
theorem reads_listBody (hl : Blanks lead) (hc : Blanks close)
    {text : ι → List Char} {val : ι → α} {xs : List ι}
    (h : ∀ x ∈ xs, Opens (text x) ∧ item.Decodes (text x) (val x)) (rest : List Char) :
    (listBody item).Reads (between lead close (xs.map text)) (']' :: rest) (xs.map val) := by
  have hread := reads_loop separates_hasItem (loops_items item)
    (stops_cons (.inr (.inr (.inl rfl))) rest) (blanks_ite hc (p := xs.map text = []))
    (chain_items hl h [])
  rw [List.append_nil, List.reverse_reverse, ← between_eq_join] at hread
  exact hread

end List

/-! ### Objects -/

section Object

variable {step : String → σ → Reader σ}

/-- Members with these names, each with its text from the colon on, turn `s` into `s'`. -/
def Gathers (step : String → σ → Reader σ) : List (String × List Char) → σ → σ → Prop
  | [], s, s' => s = s'
  | (name, t) :: ms, s, s' => ∃ s₁, (step name s).Decodes t s₁ ∧ Gathers step ms s₁ s'

/-- The characters of a member whose text from the colon on is known. -/
def memberChars (m : String × List Char) : List Char := quotedChars m.1 ++ m.2

/-- What stands behind the colon of a member is read, and `f` makes of it what is gathered. -/
theorem behind_colon {reader : Reader α} {gap cs : List Char} {a : α}
    (hg : Blanks gap) (h : reader.Decodes cs a) (f : α → σ) :
    (colon >>= fun _ => reader >>= fun a => pure (f a) : Reader σ).Decodes
      (':' :: (gap ++ cs)) (f a) := by
  intro blanks rest hb hr
  refine Reads.cast (Reads.bind (reads_colon hb _) (Reads.map f (h gap rest hg hr))) ?_
  rw [List.append_assoc]
  rfl

/-- A member is read from its opening quote on. -/
theorem reads_member {name : String} {t : List Char} {s s₁ : σ}
    (hstep : (step name s).Decodes t s₁) (hstops : Stops rest) :
    (nextMember step s).Reads (memberChars (name, t)) rest s₁ := by
  have hname := Quoted.reads_body name.toList (t ++ rest)
  rw [String.ofList_toList] at hname
  have hbody := Reads.bind (f := fun name => step name s) hname (hstep.reads hstops)
  refine Reads.cast (Reads.bind (s := ['"']) (reads_skip '"' _) hbody) ?_
  simp only [memberChars, quotedChars, Quoted.encode, List.cons_append, List.nil_append,
    List.append_assoc]

theorem chain_members (hl : Blanks lead) {ms : List (String × List Char)} {s s' : σ}
    (h : Gathers step ms s s') :
    Chain OpensMember (nextMember step) ((ms.map memberChars).map (lead ++ ·)) s s' := by
  induction ms generalizing s with
  | nil => exact h
  | cons m ms ih =>
    obtain ⟨name, t⟩ := m
    obtain ⟨s₁, hstep, h⟩ := h
    have htaken :
        (nextMember step s).TakesUp OpensMember (lead ++ memberChars (name, t) ++ []) s₁ :=
      .mk hl no_blanks rfl fun rest hrest => reads_member hstep hrest
    rw [List.append_nil] at htaken
    exact ⟨s₁, htaken, ih h⟩

/-- All members of an object, whose number need not be known. -/
theorem reads_objectBody (hl : Blanks lead) (hc : Blanks close)
    {ms : List (String × List Char)} {s s' : σ} (h : Gathers step ms s s') (rest : List Char) :
    (objectBody step s).Reads (between lead close (ms.map memberChars)) ('\x7d' :: rest) s' := by
  have hread := reads_loop separates_hasMember (loops_members step)
    (stops_cons (.inr (.inr (.inr rfl))) rest) (blanks_ite hc (p := ms.map memberChars = []))
    (chain_members hl h)
  rw [← between_eq_join] at hread
  exact hread

end Object

end Container
end Json
end CodeQuality
