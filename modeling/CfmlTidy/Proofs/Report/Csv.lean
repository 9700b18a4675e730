import Mathlib
import CfmlTidy.Report.Csv

/-!
# Reading comma-separated values

What a file of comma-separated values says is told by a grammar: a field is plain or stands in
quotes with its own quotes doubled, commas stand between the fields of a record, and a carriage
return and a newline end a record, which the last one may lack. `read?` reads such files, and by
`read?_eq_some_iff` it reads exactly what the grammar allows, so a text has one reading at most. What
is written for a report follows the grammar, whatever characters its fields have.
-/

namespace CfmlTidy.Report.Csv

variable {text rest value : List Char} {values : List (List Char)}
  {rows : List (List (List Char))}

/-- A character that may stand in a field without quotes. -/
def isPlain (c : Char) : Bool := c != ',' && c != '"' && c != '\r' && c != '\n'

/-- What stands between the quotes of a field, and its value: quotes are doubled. -/
inductive Inside : List Char → List Char → Prop where
  /-- Nothing. -/
  | nothing : Inside [] []
  /-- A quote is written twice. -/
  | quote {text value : List Char} : Inside text value → Inside ('"' :: '"' :: text) ('"' :: value)
  /-- Any other character stands for itself. -/
  | other {c : Char} {text value : List Char} : c ≠ '"' → Inside text value →
    Inside (c :: text) (c :: value)

/-- A field and its value. -/
inductive Field : List Char → List Char → Prop where
  /-- Without quotes, a field is its value. -/
  | plain {value : List Char} : (∀ c ∈ value, isPlain c = true) → Field value value
  /-- In quotes, a field may have any characters. -/
  | quoted {text value : List Char} : Inside text value → Field ('"' :: (text ++ ['"'])) value

/-- A record without its end, and the values of its fields. -/
inductive Record : List Char → List (List Char) → Prop where
  /-- A record has at least one field. -/
  | last {text value : List Char} : Field text value → Record text [value]
  /-- A comma stands between fields. -/
  | more {text value rest : List Char} {values : List (List Char)} : Field text value →
    Record rest values → Record (text ++ ',' :: rest) (value :: values)

/-- A file of comma-separated values, and its records. -/
inductive Document : List Char → List (List (List Char)) → Prop where
  /-- The empty file has no records. -/
  | nothing : Document [] []
  /-- The last record may have no end. -/
  | unended {text : List Char} {values : List (List Char)} : text ≠ [] → Record text values →
    Document text [values]
  /-- A carriage return and a newline end a record. -/
  | ended {text rest : List Char} {values : List (List Char)}
    {rows : List (List (List Char))} : Record text values → Document rest rows →
    Document (text ++ '\r' :: '\n' :: rest) (values :: rows)

/-- Read up to the quote that closes a field, with the text behind it. -/
def readQuoted? : List Char → Option (List Char × List Char)
  | '"' :: '"' :: rest => (readQuoted? rest).map fun (value, behind) => ('"' :: value, behind)
  | '"' :: rest => some ([], rest)
  | c :: rest => (readQuoted? rest).map fun (value, behind) => (c :: value, behind)
  | [] => none

/-- Read a field, with the text behind it. -/
def readField? : List Char → Option (List Char × List Char)
  | '"' :: rest => readQuoted? rest
  | text => some (text.takeWhile isPlain, text.dropWhile isPlain)

/-- What may stand behind a field: nothing, or a character that neither continues it nor opens
quotes. -/
def Stops (rest : List Char) : Prop := ∀ c, rest.head? = some c → isPlain c = false ∧ c ≠ '"'

/-- A field in quotes is read up to its last quote. -/
theorem readQuoted?_complete (inside : Inside text value) (stops : Stops rest) :
    readQuoted? (text ++ '"' :: rest) = some (value, rest) := by
  induction inside with
  | nothing =>
    cases rest with
    | nil => rfl
    | cons c behind =>
      have apart := (stops c rfl).2
      simp [readQuoted?, apart]
  | quote inside ih => simp [readQuoted?, ih]
  | other differs inside ih => simp [readQuoted?, differs, ih]

/-- What is read up to a quote is the inside of a quoted field. -/
theorem readQuoted?_sound (read : readQuoted? text = some (value, rest)) :
    ∃ front, text = front ++ '"' :: rest ∧ Inside front value := by
  fun_induction readQuoted? text generalizing value with
  | case1 behind ih =>
    obtain ⟨⟨later, after⟩, found, same⟩ := Option.map_eq_some_iff.mp read
    obtain ⟨rfl, rfl⟩ := Prod.mk.inj same
    obtain ⟨front, rfl, inside⟩ := ih found
    exact ⟨'"' :: '"' :: front, rfl, .quote inside⟩
  | case2 behind =>
    obtain ⟨rfl, rfl⟩ := Prod.mk.inj (Option.some.inj read)
    exact ⟨[], rfl, .nothing⟩
  | case3 c behind _ single ih =>
    obtain ⟨⟨later, after⟩, found, same⟩ := Option.map_eq_some_iff.mp read
    obtain ⟨rfl, rfl⟩ := Prod.mk.inj same
    obtain ⟨front, rfl, inside⟩ := ih found
    exact ⟨c :: front, rfl, .other (fun quote => single quote) inside⟩
  | case4 => contradiction

/-- A field is read up to where it stops. -/
theorem readField?_complete (field : Field text value) (stops : Stops rest) :
    readField? (text ++ rest) = some (value, rest) := by
  cases field with
  | plain plain =>
    have behind : rest.takeWhile isPlain = [] ∧ rest.dropWhile isPlain = rest := by
      cases rest with
      | nil => exact ⟨rfl, rfl⟩
      | cons c more =>
        have ends := (stops c rfl).1
        simp [ends]
    have unquoted : ∀ more, text ++ rest ≠ '"' :: more := by
      intro more same
      cases text with
      | nil => exact (stops '"' (by rw [← List.nil_append rest, same]; rfl)).2 rfl
      | cons c others =>
        obtain ⟨rfl, -⟩ := List.cons.inj same
        exact absurd (plain '"' List.mem_cons_self) (by decide)
    rw [readField?.eq_2 _ unquoted, List.takeWhile_append_of_pos plain,
      List.dropWhile_append_of_pos plain, behind.1, behind.2, List.append_nil]
  | quoted inside =>
    rw [List.cons_append, List.append_assoc]
    exact readQuoted?_complete inside stops

/-- What is read as a field is one. -/
theorem readField?_sound (read : readField? text = some (value, rest)) :
    ∃ front, text = front ++ rest ∧ Field front value := by
  fun_cases readField? text with
  | case1 behind =>
    obtain ⟨front, rfl, inside⟩ := readQuoted?_sound read
    exact ⟨'"' :: (front ++ ['"']), by simp, .quoted inside⟩
  | case2 _ unquoted =>
    rw [readField?.eq_2 _ unquoted, Option.some.injEq, Prod.mk.injEq] at read
    obtain ⟨rfl, rfl⟩ := read
    exact ⟨_, List.takeWhile_append_dropWhile.symm, .plain fun c => List.mem_takeWhile_imp⟩

/-- What is left behind a field is no longer than the text. -/
theorem length_of_readField? (read : readField? text = some (value, rest)) :
    rest.length ≤ text.length := by
  obtain ⟨front, rfl, -⟩ := readField?_sound read
  simp

/-- Read a record with its end, with the text behind it. -/
def readRecord? (text : List Char) : Option (List (List Char) × List Char) :=
  match _ : readField? text with
  | some (value, ',' :: rest) =>
    (readRecord? rest).map fun (values, behind) => (value :: values, behind)
  | some (value, '\r' :: '\n' :: rest) => some ([value], rest)
  | some (value, []) => some ([value], [])
  | _ => none
termination_by text.length
decreasing_by
  have shorter := length_of_readField? ‹readField? text = some (value, ',' :: rest)›
  rw [List.length_cons] at shorter
  omega

/-- What ends a record, and the text behind it. -/
inductive Ends : List Char → List Char → Prop where
  /-- A carriage return and a newline. -/
  | line {rest : List Char} : Ends ('\r' :: '\n' :: rest) rest
  /-- The end of the file. -/
  | file : Ends [] []

/-- What follows a record stops its last field. -/
theorem Ends.stops {after : List Char} (ends : Ends after rest) : Stops after := by
  cases ends with
  | line =>
    rintro c ⟨⟩
    decide
  | file =>
    rintro c ⟨⟩

/-- A comma stops a field. -/
theorem stops_comma (rest : List Char) : Stops (',' :: rest) := by
  rintro c ⟨⟩
  decide

/-- A record is read up to its end. -/
theorem readRecord?_complete {after : List Char} (record : Record text values)
    (ends : Ends after rest) : readRecord? (text ++ after) = some (values, rest) := by
  induction record with
  | last field =>
    rw [readRecord?, readField?_complete field ends.stops]
    cases ends with
    | line => rfl
    | file => rfl
  | @more text value others values field _ ih =>
    rw [List.append_assoc, List.cons_append, readRecord?, readField?_complete field (stops_comma _)]
    simp [ih]

/-- What is read as a record is one, with its end behind it. -/
theorem readRecord?_sound (read : readRecord? text = some (values, rest)) :
    ∃ front after, text = front ++ after ∧ Record front values ∧ Ends after rest := by
  fun_induction readRecord? text generalizing values with
  | case1 text value behind found ih =>
    obtain ⟨⟨others, after⟩, later, same⟩ := Option.map_eq_some_iff.mp read
    obtain ⟨rfl, rfl⟩ := Prod.mk.inj same
    obtain ⟨front, rfl, field⟩ := readField?_sound found
    obtain ⟨middle, after, rfl, record, ends⟩ := ih later
    exact ⟨front ++ ',' :: middle, after, by simp, .more field record, ends⟩
  | case2 text value behind found =>
    obtain ⟨rfl, rfl⟩ := Prod.mk.inj (Option.some.inj read)
    obtain ⟨front, rfl, field⟩ := readField?_sound found
    exact ⟨front, _, rfl, .last field, .line⟩
  | case3 text value found =>
    obtain ⟨rfl, rfl⟩ := Prod.mk.inj (Option.some.inj read)
    obtain ⟨front, rfl, field⟩ := readField?_sound found
    exact ⟨front, [], rfl, .last field, .file⟩
  | case4 => contradiction

/-- What is left behind a record is shorter than the text. -/
theorem length_of_readRecord? (filled : text ≠ []) (read : readRecord? text = some (values, rest)) :
    rest.length < text.length := by
  obtain ⟨front, after, rfl, -, ends⟩ := readRecord?_sound read
  cases ends with
  | line =>
    simp only [List.length_append, List.length_cons]
    omega
  | file => exact List.length_pos_of_ne_nil filled

/-- Read a file of comma-separated values. -/
def read? (text : List Char) : Option (List (List (List Char))) :=
  if _ : text = [] then some []
  else
    match _ : readRecord? text with
    | some (values, rest) => (read? rest).map (values :: ·)
    | none => none
termination_by text.length
decreasing_by exact length_of_readRecord? ‹text ≠ []› ‹readRecord? text = some (values, rest)›

/-- The empty text holds no records. -/
theorem read?_nil : read? [] = some [] := by rw [read?, dif_pos rfl]

/-- A file is read record by record. -/
theorem read?_of_readRecord? (filled : text ≠ [])
    (found : readRecord? text = some (values, rest)) :
    read? text = (read? rest).map (values :: ·) := by
  rw [read?, dif_neg filled]
  split
  · rename_i others behind again
    rw [found] at again
    obtain ⟨rfl, rfl⟩ := Prod.mk.inj (Option.some.inj again)
    rfl
  · rename_i refused
    rw [found] at refused
    contradiction

/-- What the grammar allows is read. -/
theorem read?_complete (document : Document text rows) : read? text = some rows := by
  induction document with
  | nothing => exact read?_nil
  | @unended text values filled record =>
    have found := readRecord?_complete record .file
    rw [List.append_nil] at found
    rw [read?_of_readRecord? filled found, read?_nil]
    rfl
  | ended record _ ih =>
    rw [read?_of_readRecord? (by simp) (readRecord?_complete record .line), ih]
    rfl

/-- What is read is allowed by the grammar. -/
theorem read?_sound (read : read? text = some rows) : Document text rows := by
  fun_induction read? text generalizing rows with
  | case1 =>
    obtain rfl := Option.some.inj read
    exact .nothing
  | case2 text filled values rest found ih =>
    obtain ⟨others, later, rfl⟩ := Option.map_eq_some_iff.mp read
    obtain ⟨front, after, rfl, record, ends⟩ := readRecord?_sound found
    cases ends with
    | line => exact .ended record (ih later)
    | file =>
      obtain rfl := Option.some.inj (read?_nil.symm.trans later)
      rw [List.append_nil] at filled ⊢
      exact .unended filled record
  | case3 => contradiction

/-- Files are read exactly as the grammar allows, so no text has two readings. -/
theorem read?_eq_some_iff : read? text = some rows ↔ Document text rows :=
  ⟨read?_sound, read?_complete⟩

-- In quotes, commas and line ends are characters like others; a quote opens none behind a letter.
example : read? "a,\"b\"\"\r\n,\"\r\n".toList = some [["a".toList, "b\"\r\n,".toList]] ∧
    read? "a\"b\"".toList = none := by decide +kernel

/-- Doubled quotes are read back, and all else as it is. -/
theorem inside_doubled (value : List Char) :
    Inside (value.flatMap fun c => if c = '"' then ['"', '"'] else [c]) value := by
  induction value with
  | nil => exact .nothing
  | cons c rest ih =>
    rw [List.flatMap_cons]
    split_ifs with quote
    · subst quote
      exact .quote ih
    · exact .other quote ih

/-- A written field is a field of the grammar with the value it was written for. -/
theorem field_writeField (value : List Char) : Field (writeField value) value := by
  unfold writeField
  split_ifs with special
  · exact .quoted (inside_doubled value)
  · refine .plain fun c inside => ?_
    simp only [needsQuotes, List.any_eq_true, not_exists, not_and] at special
    have ordinary := special c inside
    simp only [Bool.or_eq_true, beq_iff_eq, not_or] at ordinary
    simp [isPlain, ordinary]

/-- Written fields with commas between them are a record. -/
theorem record_joinWith (filled : values ≠ []) :
    Record (CfmlTidy.Text.joinWith [','] (values.map writeField)) values := by
  induction values with
  | nil => contradiction
  | cons value others ih =>
    cases others with
    | nil => exact .last (field_writeField value)
    | cons next more =>
      have later := ih (List.cons_ne_nil next more)
      simp only [List.map_cons, CfmlTidy.Text.joinWith, List.append_assoc,
        List.singleton_append] at later ⊢
      exact .more (field_writeField value) later

/-- Written records, each with its end, are a file. -/
theorem document_flatMap_writeRecord (filled : ∀ values ∈ rows, values ≠ []) :
    Document (rows.flatMap writeRecord) rows := by
  induction rows with
  | nil => exact .nothing
  | cons values others ih =>
    obtain ⟨here, later⟩ := List.forall_mem_cons.mp filled
    rw [List.flatMap_cons, writeRecord, List.append_assoc]
    exact .ended (record_joinWith here) (ih later)

/-- Read a file of comma-separated values as texts. -/
def rowsOf? (text : String) : Option (List (List String)) :=
  (read? text.toList).map fun rows => rows.map fun values => values.map String.ofList

/-- What a report has of a violation: file, line, column, severity, rule and message. -/
def told (violation : Violation) : String × Nat × Nat × Severity × String × String :=
  (violation.file, violation.line, violation.column, violation.severity, violation.ruleId,
    violation.message)

/-- The texts that tell it. -/
def rowOf : String × Nat × Nat × Severity × String × String → List String
  | (file, line, column, severity, rule, message) =>
    [file, toString line, toString column, severity.name, rule, message]

/-- Severities have different names. -/
theorem name_injective : Function.Injective Severity.name := by
  intro left right same
  cases left <;> cases right <;> simp_all [Severity.name]

/-- Nothing is lost in the texts: numbers and severities can be told from them. -/
theorem rowOf_injective : Function.Injective rowOf := by
  rintro ⟨file, line, column, severity, rule, message⟩
    ⟨file', line', column', severity', rule', message'⟩ same
  simp only [rowOf, List.cons.injEq, and_true] at same
  obtain ⟨rfl, lines, columns, names, rfl, rfl⟩ := same
  rw [Nat.repr_inj.mp lines, Nat.repr_inj.mp columns, name_injective names]

/-- The fields of a violation are the texts that tell it. -/
theorem fieldsOf_eq (violation : Violation) :
    fieldsOf violation = (rowOf (told violation)).map String.toList := by
  have digits (number : Nat) : Json.natText number = toString number := rfl
  simp only [fieldsOf, rowOf, told, digits, List.map_cons, List.map_nil]

/-- The fields of violations are the rows of what violations tell. -/
theorem map_fieldsOf (violations : List Violation) :
    violations.map fieldsOf =
      (violations.map told).map fun entry => (rowOf entry).map String.toList := by
  rw [List.map_map]
  exact List.map_congr_left fun violation _ => fieldsOf_eq violation

/-- The text of a report follows the grammar. -/
theorem document_render (result : RunResult) :
    Document (render result).toList (header :: result.violations.map fieldsOf) := by
  rw [render, String.toList_ofList]
  refine document_flatMap_writeRecord (List.forall_mem_cons.mpr ⟨by decide, ?_⟩)
  intro values listed
  obtain ⟨violation, -, rfl⟩ := List.mem_map.mp listed
  exact List.cons_ne_nil _ _

/-- A text that is a document of rows is read as these rows. -/
theorem rowsOf?_of_document {text : String} (document : Document text.toList rows) :
    rowsOf? text = some (rows.map fun values => values.map String.ofList) := by
  rw [rowsOf?, read?_complete document]
  rfl

/-- What is read of a report: the names of the fields, and the texts that tell each violation. -/
theorem rowsOf?_render_eq (result : RunResult) :
    rowsOf? (render result) =
      some (["file", "line", "column", "severity", "rule", "message"] ::
        (result.violations.map told).map rowOf) := by
  have named : header.map String.ofList =
      ["file", "line", "column", "severity", "rule", "message"] := by decide
  have back (row : List String) : (row.map String.toList).map String.ofList = row := by simp
  rw [rowsOf?_of_document (document_render result), List.map_cons, named, map_fieldsOf,
    List.map_map]
  simp only [Function.comp_def, back]

/-- The report of a run is a file of comma-separated values. It is read as a header and one record
per violation in order, with its file, line, column, severity, rule and message, whatever
characters they have, and no other records can be read from it. Nothing is lost: two runs have one
report exactly when these six are the same for all their violations. -/
theorem rowsOf?_render (result : RunResult) :
    rowsOf? (render result) =
        some (["file", "line", "column", "severity", "rule", "message"] ::
          result.violations.map fun violation =>
            [violation.file, toString violation.line, toString violation.column,
              violation.severity.name, violation.ruleId, violation.message]) ∧
      (∀ found, Document (render result).toList found ↔
        found = header :: result.violations.map fieldsOf) ∧
      ∀ other : RunResult, render other = render result ↔
        other.violations.map told = result.violations.map told := by
  have document := document_render result
  refine ⟨?_, fun found => ⟨fun read => ?_, fun same => same ▸ document⟩, fun other =>
    ⟨fun same => ?_, fun same => ?_⟩⟩
  · rw [rowsOf?_render_eq, List.map_map]
    rfl
  · exact Option.some.inj ((read?_complete read).symm.trans (read?_complete document))
  · have told_alike := rowsOf?_render_eq other
    rw [same, rowsOf?_render_eq result, Option.some.injEq, List.cons.injEq] at told_alike
    exact (List.map_injective_iff.mpr rowOf_injective told_alike.2).symm
  · rw [render, render, records, records, map_fieldsOf, map_fieldsOf, same]

end CfmlTidy.Report.Csv
