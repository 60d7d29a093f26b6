import CodeQuality.Proofs.Json.Direct

/-!
# Values of a schema read back

What a faithful schema writes is read by it as the value that was written, whatever the layout: the
document holds the value that was laid out, no object in it repeats a name, and the schema makes of
a document what it makes of such a value.

* `Schema.reader_laidOut` — reading from the document.
* `Schema.written_write`, `Schema.read_write` — writing a document and reading it.
-/

namespace CodeQuality
namespace Json

/-- What a schema writes is read from the document that it stands in. -/
theorem Schema.reader_laidOut (l : Layout) (s : Schema) (hs : s.faithful = true)
    (depth levels : Nat) (hn : s.nesting ≤ levels) (a : s.Val)
    (h : ∀ t ∈ s.dates a, Timestamp.Exact t) :
    (s.reader levels).Decodes ((s.toValue a).laidOut l depth) a := by
  intro blanks rest hb hr place
  have hwritten := Document.written_laidOut l (s.toValue a) depth levels (s.fits_toValue hs hn a)
    blanks rest hb hr place
  have hfollows := s.streams hwritten (Schema.distinct_toValue hs a)
  exact hfollows.ok_iff.mpr ⟨Schema.ofValue_canonical s hs a h, rfl⟩

/-- What was written is, as a document, the value that was written. -/
theorem Schema.written_write {s : Schema} (hs : s.faithful = true) (hn : s.nesting ≤ maxLevels)
    (a : s.Val) : Value.written (s.write a) = .ok (s.toValue a) := by
  have hread := Document.written_laidOut .compact (s.toValue a) 0 maxLevels
    (Schema.fits_toValue hs hn a)
  rw [← Value.compactChars_eq] at hread
  have hwrite : (s.write a).toList = (s.toValue a).compactChars ++ [] := by
    rw [write, Value.compact, String.toList_ofList, List.append_nil]
  exact Document.whole_of_decodes hwrite no_blanks hread

/-- What a faithful schema writes is read back. -/
theorem Schema.read_write {s : Schema} (hs : s.faithful = true) (hn : s.nesting ≤ maxLevels)
    {a : s.Val} (h : ∀ t ∈ s.dates a, Timestamp.Exact t) : s.read (s.write a) = .ok a :=
  (s.read_ok_iff (Schema.written_write hs hn a) (Schema.distinct_toValue hs a)).mpr
    (Schema.ofValue_canonical s hs a h)

end Json
end CodeQuality
