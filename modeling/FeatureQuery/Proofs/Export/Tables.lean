import FeatureQuery.Proofs.Cli.Effects

/-!
# Tables that are read back

`Csv.read` reads a table with commas, one character after the other. A field ends at a comma and a
row at a line break, unless they stand between double quotes; there a doubled quote stands for a
quote, and any other quote ends the field. A line with nothing in it is no row, so that a carriage
return and a line feed end one row together.

What a sink writes for records is read as one row for the names of the first record and one for each
record (`sink_table_read`). The rows come back one by one (`Reading.foldl_next_row`), because a
field that holds a comma, a quote or a line break stands between quotes. A row that is one empty
field would be an empty line and is written as two quotes; a row without fields would be written in
the same way, which is why the first record must have an attribute.
-/

namespace FeatureQuery

namespace Csv

/-! ### Reading a table -/

/-- Where a reader of a table stands. -/
inductive Stage where
  /-- Before a row. -/
  | row
  /-- Before a field, after a comma. -/
  | field
  /-- In a field, or behind one, outside all quotes. -/
  | outside
  /-- In a field, between quotes. -/
  | inside
  /-- After a quote in a field between quotes, which ends them unless another quote follows. -/
  | ended
  deriving DecidableEq

/-- How far a table was read. -/
structure Reading where
  /-- The rows that ended. -/
  rows : List (List (List Char))
  /-- The fields that ended in the row that did not. -/
  done : List (List Char)
  /-- What was read of the field that did not end. -/
  text : List Char
  /-- Where the reader stands. -/
  stage : Stage

namespace Reading

/-- The field ends. -/
def endField (s : Reading) : Reading := ⟨s.rows, s.done ++ [s.text], [], .field⟩

/-- The row ends, and its last field with it. -/
def endRow (s : Reading) : Reading := ⟨s.rows ++ [s.done ++ [s.text]], [], [], .row⟩

/-- Reads a character outside all quotes that opens none. -/
def nextOutside (s : Reading) (c : Char) : Reading :=
  if c = ',' then s.endField
  else if c = '\n' ∨ c = '\r' then s.endRow
  else { s with text := s.text ++ [c], stage := .outside }

/-- Reads one character. -/
def next (s : Reading) (c : Char) : Reading :=
  match s.stage with
  | .row =>
    if c = '\n' ∨ c = '\r' then s
    else if c = '"' then { s with stage := .inside }
    else s.nextOutside c
  | .field => if c = '"' then { s with stage := .inside } else s.nextOutside c
  | .outside => s.nextOutside c
  | .inside => if c = '"' then { s with stage := .ended } else { s with text := s.text ++ [c] }
  | .ended =>
    if c = '"' then { s with text := s.text ++ [c], stage := .inside } else s.nextOutside c

/-- The rows at the end of a text. The last one needs no line break. -/
def finish (s : Reading) : List (List (List Char)) :=
  match s.stage with
  | .row => s.rows
  | _ => s.endRow.rows

end Reading

/-- The rows of a table, with the fields of each. -/
def read (text : String) : List (List String) :=
  (text.toList.foldl Reading.next ⟨[], [], [], .row⟩).finish.map (List.map String.ofList)

/-! ### What was written is read -/

namespace Reading

variable {rows : List (List (List Char))} {done : List (List Char)} {text cs : List Char}
  {stage : Stage}

/-- **Between quotes** a text with its quotes doubled is read as it is. -/
theorem foldl_next_double (cs : List Char) :
    (double cs).foldl next ⟨rows, done, text, .inside⟩ = ⟨rows, done, text ++ cs, .inside⟩ := by
  induction cs generalizing text with
  | nil => simp [double]
  | cons c cs ih =>
    have hdouble : double (c :: cs) = (if c = '"' then ['"', '"'] else [c]) ++ double cs :=
      List.flatMap_cons
    rw [hdouble, List.foldl_append]
    by_cases hc : c = '"'
    · simpa [hc, next] using @ih (text ++ ['"'])
    · simpa [hc, next] using @ih (text ++ [c])

/-- A character that means nothing is one of the field, unless quotes were opened before it. -/
theorem next_of_not_isSpecial {c : Char} (h : isSpecial c = false) (hinside : stage ≠ .inside) :
    next ⟨rows, done, text, stage⟩ c = ⟨rows, done, text ++ [c], .outside⟩ := by
  simp only [isSpecial, Bool.or_eq_false_iff, beq_eq_false_iff_ne] at h
  cases stage with
  | inside => exact absurd rfl hinside
  | _ => simp [next, nextOutside, h]

/-- **Without quotes** a text is read as it is if no character of it means anything. -/
theorem foldl_next_outside (h : ∀ c ∈ cs, isSpecial c = false) :
    cs.foldl next ⟨rows, done, text, .outside⟩ = ⟨rows, done, text ++ cs, .outside⟩ := by
  induction cs generalizing text with
  | nil => simp
  | cons c cs ih =>
    obtain ⟨hc, hcs⟩ := List.forall_mem_cons.mp h
    rw [List.foldl_cons, next_of_not_isSpecial hc (by simp), ih hcs]
    simp

/-- **A field** is read up to its end, and where it ends nothing is between quotes. Only an empty
field leaves the reader before the row. -/
theorem foldl_next_field (rows : List (List (List Char))) (done : List (List Char))
    (hstage : stage = .row ∨ stage = .field) (cs : List Char) :
    ∃ after, (field cs).foldl next ⟨rows, done, [], stage⟩ = ⟨rows, done, cs, after⟩ ∧
      after ≠ .inside ∧ (after = .row → stage = .row ∧ cs = []) := by
  by_cases hspecial : cs.any isSpecial = true
  · refine ⟨.ended, ?_, by simp, by simp⟩
    have hopen : next ⟨rows, done, [], stage⟩ '"' = ⟨rows, done, [], .inside⟩ := by
      obtain rfl | rfl := hstage <;> rfl
    rw [field, if_pos hspecial, List.foldl_cons, hopen, List.foldl_append, foldl_next_double]
    rfl
  · have hplain : ∀ c ∈ cs, isSpecial c = false := by simpa using hspecial
    rw [field, if_neg hspecial]
    cases cs with
    | nil => exact ⟨stage, rfl, by obtain rfl | rfl := hstage <;> simp, fun h => ⟨h, rfl⟩⟩
    | cons c cs =>
      obtain ⟨hc, hcs⟩ := List.forall_mem_cons.mp hplain
      have hinside : stage ≠ .inside := by obtain rfl | rfl := hstage <;> simp
      refine ⟨.outside, ?_, by simp, by simp⟩
      rw [List.foldl_cons, next_of_not_isSpecial hc hinside, foldl_next_outside hcs]
      rfl

theorem next_comma (h : stage ≠ .inside) :
    next ⟨rows, done, text, stage⟩ ',' = ⟨rows, done ++ [text], [], .field⟩ := by
  cases stage with
  | inside => exact absurd rfl h
  | _ => rfl

theorem next_newline (hinside : stage ≠ .inside) (hrow : stage ≠ .row) :
    next ⟨rows, done, text, stage⟩ '\n' = ⟨rows ++ [done ++ [text]], [], [], .row⟩ := by
  cases stage with
  | inside => exact absurd rfl hinside
  | row => exact absurd rfl hrow
  | _ => rfl

/-- **Fields with commas between them** are read as these fields, unless they are nothing but an
empty field at the start of a row. -/
theorem foldl_next_fields {texts : List (List Char)} (hne : texts ≠ [])
    (hstage : stage = .field ∨ stage = .row ∧ texts ≠ [[]]) :
    (fields texts ++ ['\n']).foldl next ⟨rows, done, [], stage⟩ =
      ⟨rows ++ [done ++ texts], [], [], .row⟩ := by
  have hstart : stage = .row ∨ stage = .field := hstage.symm.imp_left And.left
  fun_induction fields texts generalizing done stage with
  | case1 => exact absurd rfl hne
  | case2 text =>
    obtain ⟨after, hfield, hinside, hrow⟩ := foldl_next_field rows done hstart text
    have hnotRow : after ≠ .row := by
      intro h
      obtain ⟨rfl, rfl⟩ := hrow h
      simp at hstage
    rw [List.foldl_append, hfield]
    exact next_newline hinside hnotRow
  | case3 text second rest ih =>
    obtain ⟨after, hfield, hinside, -⟩ := foldl_next_field rows done hstart text
    rw [List.append_assoc, List.foldl_append, hfield, List.cons_append, List.foldl_cons,
      next_comma hinside, ih (by simp) (.inl rfl) (.inr rfl)]
    simp

/-- **A row** is read as its fields. -/
theorem foldl_next_row {texts : List (List Char)} (hne : texts ≠ []) :
    (row texts).foldl next ⟨rows, [], [], .row⟩ = ⟨rows ++ [texts], [], [], .row⟩ := by
  by_cases hempty : texts = [[]]
  · rw [row, if_pos (.inr hempty), hempty]
    rfl
  · rw [row, if_neg (not_or.mpr ⟨hne, hempty⟩), foldl_next_fields hne (.inr ⟨rfl, hempty⟩)]
    simp

/-- **Row after row** is read as it was written. -/
theorem foldl_next_rows {table : List (List (List Char))} (h : ∀ texts ∈ table, texts ≠ []) :
    (table.flatMap row).foldl next ⟨rows, [], [], .row⟩ = ⟨rows ++ table, [], [], .row⟩ := by
  induction table generalizing rows with
  | nil => simp
  | cons texts table ih =>
    obtain ⟨hne, htable⟩ := List.forall_mem_cons.mp h
    rw [List.flatMap_cons, List.foldl_append, foldl_next_row hne, ih htable]
    simp

end Reading

/-- **Rows that were written** are read as they were, if each has a field. -/
theorem read_flatMap_row {table : List (List String)} (h : ∀ texts ∈ table, texts ≠ []) :
    read (String.ofList (table.flatMap fun texts => row (texts.map String.toList))) = table := by
  have hrows : ∀ texts ∈ table.map (List.map String.toList), texts ≠ [] := by
    simpa using h
  have hflat : (table.flatMap fun texts => row (texts.map String.toList)) =
      (table.map (List.map String.toList)).flatMap row := by
    rw [List.flatMap_map]
  rw [read, String.toList_ofList, hflat, Reading.foldl_next_rows hrows]
  simp [Reading.finish, Function.comp_def]

/-! ### The table of records -/

/-- What the table shows of a record under a name. -/
def cell (r : Record) (name : String) : String :=
  match r.attributes.get? name with
  | none => ""
  | some .null => ""
  | some (.number d) => d.plainText
  | some (.text s) => s

theorem shown_value (r : Record) (name : String) : (r.value name).shown = cell r name := by
  rw [Record.value, cell]
  cases r.attributes.get? name with
  | none => rfl
  | some v => cases v <;> rfl

/-- **The table of some records** is read back if the first one has an attribute. -/
theorem read_write {r : Record} (rest : List Record) (h : r.attributes.keys ≠ []) :
    read (write (r :: rest)) =
      r.attributes.keys :: (r :: rest).map fun r' => r.attributes.keys.map (cell r') := by
  have htexts : ∀ r', texts r.attributes.keys r' = r.attributes.keys.map (cell r') := fun r' =>
    List.map_congr_left fun name _ => shown_value r' name
  have htable : table (r :: rest) =
      r.attributes.keys :: (r :: rest).map fun r' => r.attributes.keys.map (cell r') := by
    simp only [table, header, funext htexts]
  rw [write, read_flatMap_row, htable]
  rw [htable, List.forall_mem_cons]
  refine ⟨h, fun texts hmem => ?_⟩
  obtain ⟨r', -, rfl⟩ := List.mem_map.mp hmem
  simpa using h

end Csv

namespace Cli

/-- **A table comes back as the records.** No write of a sink for tables fails, whatever the records
are, and a reader of what was written finds one row with the names of the first record, in order,
and then one row for each record, in order: under each name the value of the record as it is shown,
and nothing where it is null or missing. -/
theorem sink_table_read (place : Place) (r : Record) (rest : List Record)
    (h : r.attributes.keys ≠ []) :
    ∃ text, (∀ w : World, Sink.writeAll place .csv (r :: rest) (w.holding place "") =
        .ok () (w.holding place text)) ∧
      Csv.read text =
        r.attributes.keys :: (r :: rest).map fun r' => r.attributes.keys.map (Csv.cell r') :=
  ⟨OutputFormat.csv.write (r :: rest), fun w => writeAll_holding w place .csv (r :: rest),
    Csv.read_write rest h⟩

/-- A name with a comma and quotes heads a single column, in which a null, a line break and a
missing value come one below the other. -/
theorem sink_table_read_column :
    let r := Record.ofAttributes [("zona, \"a\"", .null)]
    let rest := [.ofAttributes [("nombre", .text "Cadiz"), ("zona, \"a\"", .text "\"sur\"\r\n")],
      .ofAttributes []]
    r.attributes.keys ≠ [] ∧ ∃ text,
      (∀ w : World, Sink.writeAll .stdout .csv (r :: rest) (w.holding .stdout "") =
        .ok () (w.holding .stdout text)) ∧
      Csv.read text = [["zona, \"a\""], [""], ["\"sur\"\r\n"], [""]] := by
  intro r rest
  have hne : r.attributes.keys ≠ [] := by decide +kernel
  obtain ⟨text, hwritten, hread⟩ := sink_table_read .stdout r rest hne
  refine ⟨hne, text, hwritten, hread.trans ?_⟩
  decide +kernel

end Cli

end FeatureQuery
