import CodeQuality.Json.Document
import CodeQuality.Proofs.Text.Spans

/-!
# What a reader takes up

`reader.Reads cs rest a` says that `reader` takes exactly the characters `cs` off a document that
goes on with `rest`, and gives `a`, wherever in the document this happens. Readers are put together
by `>>=`, and so are the stretches of text that they take: that is `Reads.bind`. The lemmas on the
parts of a reader stand beside it, and with them no later proof has to follow a cursor.

* `Reads.bind`, `Reads.pure`, `Reads.map` — how readers are put together.
* `reads_peekBehindSpace`, `reads_letters`, … — the parts that readers are made of.
* `Reader.Decodes` — what a value is read from wherever it may stand.
* `Document.whole_eq_ok_iff` — when a whole document is read.
-/

namespace CodeQuality
namespace Json

variable {α β σ : Type}

/-- The place behind `cs`, if they begin at `p`. -/
def Place.past (p : Place) (cs : List Char) : Place := cs.foldl Place.behind p

@[simp] theorem Place.past_nil (p : Place) : p.past [] = p := rfl

@[simp] theorem Place.past_cons (p : Place) (c : Char) (cs : List Char) :
    p.past (c :: cs) = (p.behind c).past cs := rfl

@[simp] theorem Place.past_append (p : Place) (cs ds : List Char) :
    p.past (cs ++ ds) = (p.past cs).past ds := List.foldl_append

/-- `reader` takes exactly `cs` off a document that goes on with `rest`, and gives `a`. -/
def Reader.Reads (reader : Reader α) (cs rest : List Char) (a : α) : Prop :=
  ∀ p, reader ⟨cs ++ rest, p⟩ = .ok (a, ⟨rest, p.past cs⟩)

/-- Nothing but blanks. -/
def Blanks (cs : List Char) : Prop := ∀ c ∈ cs, isSpace c = true

/-- A document may go on like this behind a value: with a blank, a comma or a closing bracket, or
not at all. -/
def Stops (rest : List Char) : Prop :=
  ∀ c ∈ rest.head?, isSpace c = true ∨ c = ',' ∨ c = ']' ∨ c = '\x7d'

/-- `reader` makes `a` of the text `cs` of a value, wherever that stands in a document and whatever
blanks stand in front of it. -/
def Reader.Decodes (reader : Reader α) (cs : List Char) (a : α) : Prop :=
  ∀ blanks rest, (∀ c ∈ blanks, isSpace c = true) → Stops rest →
    reader.Reads (blanks ++ cs) rest a

theorem no_blanks : Blanks [] := List.forall_mem_nil _

theorem Reader.Decodes.reads {reader : Reader α} {cs rest : List Char} {a : α}
    (h : reader.Decodes cs a) (hr : Stops rest) : reader.Reads cs rest a := h [] rest no_blanks hr

theorem stops_nil : Stops [] := fun _ h => nomatch h

theorem stops_cons {c : Char} (h : isSpace c = true ∨ c = ',' ∨ c = ']' ∨ c = '\x7d')
    (rest : List Char) : Stops (c :: rest) := by
  intro d hd
  obtain rfl : c = d := Option.some.inj hd
  exact h

/-- Blanks may stand in front of what follows a value. -/
theorem stops_append {blanks rest : List Char} (hb : Blanks blanks) (hr : Stops rest) :
    Stops (blanks ++ rest) := by
  cases blanks with
  | nil => exact hr
  | cons c blanks => exact stops_cons (.inl (hb c List.mem_cons_self)) _

theorem stops_blanks {blanks : List Char} (hb : Blanks blanks) : Stops blanks := by
  have hstops := stops_append hb stops_nil
  rwa [List.append_nil] at hstops

namespace Reader

/-! ### Putting readers together -/

theorem bind_of_ok {reader : Reader α} {f : α → Reader β} {c d : Cursor} {a : α}
    (h : reader c = .ok (a, d)) : (reader >>= f) c = f a d := by
  show (reader c >>= fun r => f r.1 r.2) = f a d
  rw [h]
  rfl

theorem bind_of_error {reader : Reader α} {f : α → Reader β} {c : Cursor} {e : Failure}
    (h : reader c = .error e) : (reader >>= f) c = .error e := by
  show (reader c >>= fun r => f r.1 r.2) = .error e
  rw [h]
  rfl

theorem Reads.cast {reader : Reader α} {cs ds rest : List Char} {a : α}
    (h : reader.Reads cs rest a) (hcs : cs = ds) : reader.Reads ds rest a := hcs ▸ h

/-- Two readers behind each other take two stretches behind each other. -/
theorem Reads.bind {reader : Reader α} {f : α → Reader β} {s t rest : List Char} {a : α} {b : β}
    (ha : reader.Reads s (t ++ rest) a) (hb : (f a).Reads t rest b) :
    (reader >>= f).Reads (s ++ t) rest b := by
  intro p
  have h₁ := ha p
  rw [← List.append_assoc] at h₁
  rw [bind_of_ok h₁, hb, Place.past_append]

theorem Reads.pure (a : α) (rest : List Char) : (Pure.pure a : Reader α).Reads [] rest a :=
  fun _ => rfl

/-- A value that is made of what was read takes nothing more. -/
theorem Reads.map {reader : Reader α} {cs rest : List Char} {a : α} (f : α → β)
    (h : reader.Reads cs rest a) : (reader >>= fun a => Pure.pure (f a)).Reads cs rest (f a) := by
  have := h.bind (f := fun a => Pure.pure (f a)) (t := []) (Reads.pure (f a) rest)
  rwa [List.append_nil] at this

/-- The cursor takes nothing, and is used for its length only. -/
theorem Reads.get_bind {f : Cursor → Reader β} {cs rest : List Char} {b : β}
    (h : ∀ p, (f ⟨cs ++ rest, p⟩).Reads cs rest b) : (get >>= f).Reads cs rest b :=
  fun p => h p p

theorem Reads.settled {reader : Reader α} {finish : Cursor → Cursor} {cs rest : List Char} {a : α}
    (h : reader.Reads cs rest a) : (settled finish reader).Reads cs rest a := by
  intro p
  rw [Reader.settled, h p]

/-! ### Single characters -/

theorem reads_peek (rest : List Char) : peek.Reads [] rest rest.head? := fun _ => rfl

theorem reads_skip (c : Char) (rest : List Char) : skip.Reads [c] rest () := fun _ => rfl

theorem reads_skipMany (cs rest : List Char) : (skipMany cs.length).Reads cs rest () := by
  intro p
  show Except.ok ((), (⟨(cs ++ rest).drop cs.length,
    ((cs ++ rest).take cs.length).foldl Place.behind p⟩ : Cursor)) = _
  rw [List.drop_left, List.take_left]
  rfl

/-- A span is passed over as a whole. -/
theorem dropWhile_cursor {q : Char → Bool} {cs rest : List Char} (hcs : ∀ c ∈ cs, q c = true)
    (hrest : ∀ c ∈ rest.head?, q c = false) (p : Place) :
    (⟨cs ++ rest, p⟩ : Cursor).dropWhile q = ⟨rest, p.past cs⟩ := by
  show (⟨(cs ++ rest).dropWhile q, ((cs ++ rest).takeWhile q).foldl Place.behind p⟩ : Cursor) = _
  rw [Text.takeWhile_append hcs hrest, Text.dropWhile_append hcs hrest]
  rfl

/-- Blanks are passed over up to what comes behind them. -/
theorem reads_peekBehindSpace {blanks rest : List Char} (hb : Blanks blanks)
    (hr : ∀ c ∈ rest.head?, isSpace c = false) :
    peekBehindSpace.Reads blanks rest rest.head? := by
  intro p
  rw [peekBehindSpace, dropWhile_cursor hb hr]

/-- Blanks in front of a character are passed over, and the character is seen. -/
theorem reads_peek_behind {blanks : List Char} (hb : Blanks blanks) {c : Char}
    (hc : isSpace c = false) (cs : List Char) : peekBehindSpace.Reads blanks (c :: cs) (some c) :=
  reads_peekBehindSpace hb fun d hd => by
    obtain rfl : c = d := Option.some.inj hd
    exact hc

/-- A reader that looks at the first character behind blanks goes on from there. -/
theorem Reads.of_peek {blanks cs rest : List Char} {c : Char} {a : α}
    {f : Option Char → Reader α} (hb : Blanks blanks) (hc : isSpace c = false)
    (h : (f (some c)).Reads (c :: cs) rest a) :
    (peekBehindSpace >>= f).Reads (blanks ++ c :: cs) rest a :=
  (reads_peek_behind hb hc (cs ++ rest)).bind h

/-- The letters of a name. -/
theorem reads_letters (ls rest : List Char) : (letters ls).Reads ls rest () := by
  induction ls with
  | nil => exact Reads.pure () rest
  | cons l ls ih =>
    refine Reads.bind (s := []) (reads_peek (l :: (ls ++ rest))) ?_
    show (if l = l then _ else _ : Reader Unit).Reads _ _ _
    rw [if_pos rfl]
    exact Reads.bind (reads_skip l (ls ++ rest)) ih

end Reader

/-! ### Whole documents -/

namespace Document

open Reader

theorem whole_eq (reader : Reader α) (document : String) : whole reader document =
    match (reader >>= fun a => finish >>= fun _ => pure a) (Cursor.ofString document) with
    | .ok (a, _) => .ok a
    | .error e => .error e := rfl

theorem whole_of_error {reader : Reader α} {document : String} {e : Failure}
    (h : reader (Cursor.ofString document) = .error e) : whole reader document = .error e := by
  rw [whole_eq, bind_of_error h]

/-- A whole document is read if a value is, and nothing comes behind it. -/
theorem whole_eq_ok_iff {reader : Reader α} {document : String} {a : α} :
    whole reader document = .ok a ↔
      ∃ c d, reader (Cursor.ofString document) = .ok (a, c) ∧ finish c = .ok ((), d) := by
  rw [whole_eq]
  cases hr : reader (Cursor.ofString document) with
  | error e =>
    rw [bind_of_error hr]
    refine ⟨(fun h => nomatch h), ?_⟩
    rintro ⟨_, _, h, -⟩
    nomatch h
  | ok r =>
    obtain ⟨a', c⟩ := r
    rw [bind_of_ok hr]
    cases hf : finish c with
    | error e =>
      rw [bind_of_error hf]
      refine ⟨(fun h => nomatch h), ?_⟩
      rintro ⟨_, _, h, hd⟩
      obtain ⟨-, rfl⟩ := Prod.mk.inj (Except.ok.inj h)
      rw [hf] at hd
      nomatch hd
    | ok d =>
      rw [bind_of_ok hf]
      constructor
      · intro h
        obtain rfl : a' = a := Except.ok.inj h
        exact ⟨c, d.2, rfl, hf⟩
      · rintro ⟨_, _, h, -⟩
        exact congrArg Except.ok (Prod.mk.inj (Except.ok.inj h)).1

/-- A document that consists of one value, with blanks behind it. -/
theorem whole_of_reads {reader : Reader α} {s : String} {cs blanks : List Char} {a : α}
    (hs : s.toList = cs ++ blanks) (hb : Blanks blanks) (h : reader.Reads cs blanks a) :
    whole reader s = .ok a := by
  have hread := h ⟨1, 0⟩
  rw [← hs] at hread
  have hfinish : finish ⟨blanks, (⟨1, 0⟩ : Place).past cs⟩ =
      .ok ((), ⟨[], ((⟨1, 0⟩ : Place).past cs).past blanks⟩) := by
    have hend : ∀ c ∈ ([] : List Char).head?, isSpace c = false := fun _ h => nomatch h
    have hpeek := reads_peekBehindSpace hb hend ((⟨1, 0⟩ : Place).past cs)
    rw [List.append_nil] at hpeek
    rw [finish, bind_of_ok hpeek]
    rfl
  exact whole_eq_ok_iff.mpr ⟨_, _, hread, hfinish⟩

theorem whole_of_decodes {reader : Reader α} {s : String} {cs blanks : List Char} {a : α}
    (hs : s.toList = cs ++ blanks) (hb : Blanks blanks) (h : reader.Decodes cs a) :
    whole reader s = .ok a := whole_of_reads hs hb (h.reads (stops_blanks hb))

end Document
end Json
end CodeQuality
