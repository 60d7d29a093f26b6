import CodeQuality.Proofs.Json.Dates

/-!
# What is shown is read again

A value is shown on lines of its own with a line break behind it. That is one document, and it is
read as the value with its dates cut to milliseconds; the same holds where it stands as the only
member of an object, line break and all.

* `Schema.reader_pretty` — wherever it stands.
* `Schema.read_shown`, `Schema.reader_single` — as a document, and inside an object.
-/

namespace CodeQuality
namespace Json

open Reader Container

variable {s : Schema} {a : s.Val}

theorem Value.toList_shown (v : Value) :
    (v.pretty ++ "\n").toList = v.prettyChars 0 ++ ['\n'] := by
  rw [String.toList_append, Value.pretty, String.toList_ofList]
  rfl

/-- A line break behind a value is a blank. -/
theorem blanks_lineBreak : Blanks ['\n'] :=
  List.forall_mem_singleton.mpr rfl

/-- What is shown of a value is read as that value with its dates cut. -/
theorem Schema.reader_pretty (hs : s.faithful = true) {levels : Nat} (hn : s.nesting ≤ levels)
    (hdated : s.Dated a) (hyears : ∀ t ∈ s.dates a, 0 ≤ t.year ∧ t.year ≤ 9999) :
    (s.reader levels).Decodes ((s.toValue a).prettyChars 0) (s.cut a) := by
  have hread := Schema.reader_laidOut .pretty s hs 0 levels hn (s.cut a) (exact_cut hdated hyears)
  rwa [toValue_cut, ← Value.prettyChars_eq] at hread

theorem Schema.read_shown (hs : s.faithful = true) (hn : s.nesting ≤ maxLevels)
    (hdated : s.Dated a) (hyears : ∀ t ∈ s.dates a, 0 ≤ t.year ∧ t.year ≤ 9999) :
    s.read ((s.toValue a).pretty ++ "\n") = .ok (s.cut a) :=
  Document.whole_of_decodes (s.toValue a).toList_shown blanks_lineBreak
    (reader_pretty hs hn hdated hyears)

/-- What is shown is a document. -/
theorem Schema.valueRead_shown (hs : s.faithful = true) (hn : s.nesting ≤ maxLevels) (a : s.Val) :
    Value.read (s.toValue a).pretty = .ok (s.toValue a).canonical := by
  have hread := Document.value_laidOut .pretty (s.toValue a) 0 maxLevels (fits_toValue hs hn a)
  rw [← Value.prettyChars_eq] at hread
  have hpretty : (s.toValue a).pretty.toList = (s.toValue a).prettyChars 0 ++ [] := by
    rw [Value.pretty, String.toList_ofList, List.append_nil]
  exact Document.whole_of_decodes hpretty no_blanks hread

/-- A record is read if its members are and its row is complete. -/
theorem Schema.reader_record (name : String) {fs : Fields} {levels : Nat}
    {lead close : List Char} (hl : Blanks lead) (hc : Blanks close)
    {ms : List (String × List Char)} {slots : fs.Slots} {row : fs.Row}
    (h : Gathers (fun name slots => fs.memberReader levels name slots) ms fs.emptySlots slots)
    (hrow : fs.row slots = .ok row) :
    ((Schema.record name fs).reader (levels + 1)).Decodes
      ('\x7b' :: (between lead close (ms.map memberChars) ++ ['\x7d'])) row :=
  fun _ rest hb _ => reads_record name hb (reads_objectBody hl hc h rest) hrow

/-- A member of the first field fills its slot, if that is still empty. -/
theorem Fields.memberStep_decodes {label : Label} {schema : Schema} {rest : Fields} {levels : Nat}
    {gap cs : List Char} {a : schema.Val} (hg : Blanks gap) (h : (schema.reader levels).Decodes cs a)
    (slots : rest.Slots) :
    ((Fields.cons label schema rest).memberStep levels label.name
      (slotsCons label none slots)).Decodes (':' :: (gap ++ cs))
        (slotsCons label (some a) slots) := by
  have hmember := behind_colon hg h fun a => slotsCons label (some a) slots
  intro blanks rest' hb hr
  rw [memberStep, memberReader_cons, if_pos label.covers_name]
  exact hmember blanks rest' hb hr

/-- A record with one field is read from an object whose only member is that of the field. -/
theorem Schema.reader_single (name : String) {label : Label} {levels : Nat}
    {cs gap close : List Char} (hg : Blanks gap) (hc : Blanks close)
    (h : (s.reader levels).Decodes cs a) :
    ((Schema.record name (.cons label s .nil)).reader (levels + 1)).Decodes
      ('\x7b' :: (quotedChars label.name ++ ':' :: (gap ++ cs) ++ close ++ ['\x7d']))
      (Fields.rowCons label a ()) := by
  have hmember : Gathers ((Fields.cons label s .nil).memberStep levels)
      [(label.name, ':' :: (gap ++ cs))] (Fields.cons label s .nil).emptySlots
      (Fields.slotsCons label (some a) Fields.nil.emptySlots) :=
    ⟨_, Fields.memberStep_decodes hg h Fields.nil.emptySlots, rfl⟩
  have hrecord := Schema.reader_record name no_blanks hc hmember
    (Fields.row_cons_iff.mpr ⟨.inl rfl, rfl⟩)
  rwa [List.map_singleton, Value.between_singleton, List.nil_append, memberChars] at hrecord

end Json
end CodeQuality
