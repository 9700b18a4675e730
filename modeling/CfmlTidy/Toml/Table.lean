import CfmlTidy.Toml.Moment

/-!
# TOML tables

Puts the statements of a TOML document together. A table may be opened once by a header; tables
that were only passed through, by a header or by a dotted key, may be filled later by the same
means; a value in braces is closed. A key may be set once.
-/

namespace CfmlTidy.Toml

/-- How a table came about. -/
inductive Origin where
  /-- It was passed through by a header. -/
  | passed
  /-- It was passed through by a dotted key. -/
  | dotted
  /-- It was opened by a header. -/
  | header
deriving DecidableEq

/-- What a key stands for while a document is read. -/
inductive Node where
  /-- A value that is complete. -/
  | value (value : Json)
  /-- A table. -/
  | table (origin : Origin) (entries : List (String × Node))
  /-- A list of tables; later headers add to the last. -/
  | tables (items : List (List (String × Node)))

/-- The entries of a table. -/
abbrev Entries := List (String × Node)

/-- Set the node of a key. -/
def put (key : String) (node : Node) : Entries → Entries
  | [] => [(key, node)]
  | (other, current) :: rest =>
    if other = key then (key, node) :: rest else (other, current) :: put key node rest

/-- Change the table that keys lead to, passing through tables on the way. The change is told how
the table came about. -/
def alter (means : Origin) (change : Origin → Entries → Option Entries) :
    (origin : Origin) → List String → Entries → Option Entries
  | origin, [], entries => change origin entries
  | _, key :: rest, entries =>
    match entries.lookup key with
    | none => do
      let inner ← alter means change means rest []
      some (put key (.table means inner) entries)
    | some (.table origin inner) =>
      if means = .dotted ∧ origin = .header then none
      else do
        let changed ← alter means change origin rest inner
        some (put key (.table origin changed) entries)
    | some (.tables items) =>
      match items.getLast? with
      | none => none
      | some last => do
        let changed ← alter means change .header rest last
        some (put key (.tables (items.dropLast ++ [changed])) entries)
    | some (.value _) => none

/-- Set a key of a table, through the tables that a dotted key names. Each of these must have come
about by a dotted key. -/
def setKey (keys : List String) (value : Json) (entries : Entries) : Option Entries :=
  match keys.getLast? with
  | none => none
  | some last =>
    alter .dotted
      (fun origin table =>
        if keys.length ≠ 1 ∧ origin ≠ .dotted then none
        else
          match table.lookup last with
          | none => some (table ++ [(last, .value value)])
          | some _ => none)
      .header keys.dropLast entries

/-- Set keys in order. -/
def setKeys (pairs : List (List String × Json)) (entries : Entries) : Option Entries :=
  pairs.foldlM (fun table pair => setKey pair.1 pair.2 table) entries

/-- A header with the keys set below it. -/
structure Part where
  /-- The keys of the header. -/
  path : List String
  /-- Whether the header adds a table to a list of tables. -/
  isList : Bool
  /-- The keys set below it. -/
  pairs : List (List String × Json)

/-- Add a header and the keys below it. -/
def addPart (entries : Entries) (part : Part) : Option Entries :=
  match part.path.getLast? with
  | none => none
  | some last =>
    alter .passed
      (fun _ table =>
        match part.isList, table.lookup last with
        | false, none => do
          let inner ← setKeys part.pairs []
          some (put last (.table .header inner) table)
        | false, some (.table .passed inner) => do
          let filled ← setKeys part.pairs inner
          some (put last (.table .header filled) table)
        | true, none => do
          let inner ← setKeys part.pairs []
          some (put last (.tables [inner]) table)
        | true, some (.tables items) => do
          let inner ← setKeys part.pairs []
          some (put last (.tables (items ++ [inner])) table)
        | _, _ => none)
      .header part.path.dropLast entries

/-- The value of a table below the document. A table whose first field is the one that holds the
text of a moment stands for that moment, and has to hold such a text. -/
def tableJson? (fields : List (String × Json)) : Option Json :=
  match Json.object fields with
  | .obj ((name, value) :: rest) =>
    if name = dateField then
      match value with
      | .str text => (Moment.read? text.toList).map Moment.toJson
      | _ => none
    else some (.obj ((name, value) :: rest))
  | other => some other

mutual

/-- A node as a JSON value. -/
def Node.toJson? : Node → Option Json
  | .value value => some value
  | .table _ entries => do
    let fields ← entriesJson? entries
    tableJson? fields
  | .tables items => do
    let values ← itemsJson? items
    some (.arr values)

/-- Entries as the fields of an object. -/
def entriesJson? : List (String × Node) → Option (List (String × Json))
  | [] => some []
  | (key, node) :: rest => do
    let value ← node.toJson?
    let fields ← entriesJson? rest
    some ((key, value) :: fields)

/-- A list of tables as JSON values. -/
def itemsJson? : List (List (String × Node)) → Option (List Json)
  | [] => some []
  | entries :: rest => do
    let fields ← entriesJson? entries
    let value ← tableJson? fields
    let values ← itemsJson? rest
    some (value :: values)

end

/-- The document of the keys before the first header and the headers after them. -/
def assemble? (pairs : List (List String × Json)) (parts : List Part) : Option Json := do
  let root ← setKeys pairs []
  let entries ← parts.foldlM addPart root
  let fields ← entriesJson? entries
  some (Json.object fields)

/-- The value of a table in braces. -/
def inlineTable? (pairs : List (List String × Json)) : Option Json := do
  let entries ← setKeys pairs []
  let fields ← entriesJson? entries
  tableJson? fields

end CfmlTidy.Toml
