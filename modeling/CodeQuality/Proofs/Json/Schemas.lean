import CodeQuality.Proofs.Json.Canonical

/-!
# Readers of schemas

What the readers of schemas are made of, equation by equation, and what the readers of lists and
records read that are put together of their parts.

* `Schema.reader_list_eq`, `Schema.reader_record_eq`, `Fields.memberReader_cons`,
  `Fields.rowReader_cons` — the equations.
* `Schema.reads_list`, `Schema.reads_record` — containers put together of their parts.
-/

namespace CodeQuality
namespace Json

open Reader Container

theorem Reader.standing_reads {α : Type} {x : Except Cause α} {a : α} (h : x = .ok a)
    (rest : List Char) : (standing x).Reads [] rest a := by
  rw [h]
  exact Reads.pure a rest

/-- Reading a value of the wrong kind fails, whatever it is. -/
theorem Reader.unexpected_ne_ok {α : Type} (expected : Expected) (c : Cursor) (r : α × Cursor) :
    unexpected expected c ≠ .ok r := by
  intro h
  obtain ⟨l, d, -, h⟩ := of_bind_ok h
  cases l <;> nomatch h

theorem Schema.reader_date (levels : Nat) : Schema.date.reader levels =
    (Reader.optional (Reader.text .text) >>= fun s? =>
      match s? with
      | none => pure none
      | some s => standing (dateOf s) : Reader (Option Instant)) := rfl

theorem Schema.reader_list_eq (item : Schema) (levels : Nat) : (Schema.list item).reader levels =
    (peekBehindSpace >>= fun
      | none => failHere .endInValue
      | some '[' => Container.list levels item.reader
      | some _ => unexpected .list : Reader (List item.Val)) := rfl

section Fields

variable {label : Label} {schema : Schema} {rest : Fields} {levels : Nat}

/-- The reader of a record's members. -/
abbrev Fields.memberStep (fs : Fields) (levels : Nat) (name : String) (slots : fs.Slots) :
    Reader fs.Slots := fs.memberReader levels name slots

theorem Fields.memberReader_cons {name : String} {slot : Option schema.Val}
    {slots : rest.Slots} :
    (Fields.cons label schema rest).memberReader levels name (slotsCons label slot slots) =
      if label.covers name then
        match slot with
        | some _ => fail (.repeatedMember label.name)
        | none => colon >>= fun _ => schema.reader levels >>= fun a =>
            pure (slotsCons label (some a) slots)
      else rest.memberReader levels name slots >>= fun slots' =>
        pure (slotsCons label slot slots') := rfl

theorem Schema.reader_record_eq (record : String) (fs : Fields) (levels : Nat) :
    ((Schema.record record fs).reader levels) =
      (peekBehindSpace >>= fun
        | none => failHere .endInValue
        | some '\x7b' => opening levels fun levels => settled objectEnd (
          objectBody (fs.memberStep levels) fs.emptySlots >>= fun slots =>
            standing ((fs.row slots).mapError missing) >>= fun row =>
              closeObject >>= fun _ => pure row)
        | some '[' => opening levels fun levels => settled listEnd (
          fs.rowReader levels record fs.size 0 true >>= fun row => closeList >>= fun _ => pure row)
        | some _ => unexpected (.record record) : Reader fs.Row) := rfl

theorem Fields.rowReader_cons (label : Label) (schema : Schema) (rest : Fields) (levels : Nat)
    (name : String) (total index : Nat) (first : Bool) :
    (Fields.cons label schema rest).rowReader levels name total index first =
      (Container.hasItem first >>= fun more =>
        if more then schema.reader levels >>= fun a =>
          rest.rowReader levels name total (index + 1) false >>= fun row =>
            pure (rowCons label a row)
        else if label.required then Reader.fail (.wrongLength index (.elements name total))
        else rest.rowReader levels name total (index + 1) first >>= fun row =>
          pure (rowCons label schema.zero row)) := rfl

end Fields

section Containers

variable {blanks rest inner : List Char}

/-- What stands between the brackets of a list is read by its loop. -/
theorem Schema.reads_list {item : Schema} {levels : Nat} {as : List item.Val}
    (hb : Blanks blanks) (h : (listBody (item.reader levels)).Reads inner (']' :: rest) as) :
    ((Schema.list item).reader (levels + 1)).Reads (blanks ++ '[' :: (inner ++ [']'])) rest as := by
  rw [Schema.reader]
  refine Reads.of_peek hb rfl ?_
  refine Reads.bind (s := ['[']) (reads_skip '[' _) ?_
  refine Reads.settled (Reads.bind h ?_)
  exact Reads.bind (s := [']']) (reads_closeList rest) (Reads.pure _ rest)

/-- What stands between the braces of an object is read by its loop, and its row has to be
complete. -/
theorem Schema.reads_record (name : String) {fs : Fields} {levels : Nat} {slots : fs.Slots}
    {row : fs.Row} (hb : Blanks blanks)
    (h : (objectBody (fun name slots => fs.memberReader levels name slots) fs.emptySlots).Reads
      inner ('\x7d' :: rest) slots) (hrow : fs.row slots = .ok row) :
    ((Schema.record name fs).reader (levels + 1)).Reads
      (blanks ++ '\x7b' :: (inner ++ ['\x7d'])) rest row := by
  rw [Schema.reader]
  refine Reads.of_peek hb rfl ?_
  refine Reads.bind (s := ['\x7b']) (reads_skip '\x7b' _) ?_
  refine Reads.settled (Reads.bind h ?_)
  refine Reads.bind (s := []) (standing_reads (mapError_ok_iff.mpr hrow) _) ?_
  exact Reads.bind (s := ['\x7d']) (reads_closeObject rest) (Reads.pure _ rest)

end Containers

end Json
end CodeQuality
