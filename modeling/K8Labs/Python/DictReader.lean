import K8Labs.Python.Groups
import K8Labs.Python.Str
import K8Labs.Python.Value

/-!
# Rows of a table

`csv.DictReader`: the first record of a file names the columns, and every other record that is not
empty becomes a dictionary.  A short record leaves columns without a value, and of two columns with
one name the last counts.  What a long record has left over is filed under `None`, which nobody
reads.
-/

namespace Py

/-- What a reader yields of a file: the first record and the others. -/
structure Table where
  header : List String
  records : List (List String)

/-- A row: the value of every column. -/
abbrev Row := List (String × Option String)

/-- The row of a record. -/
def dictRow (header record : List String) : Row :=
  Dict.index Prod.fst Prod.snd (header.zip
    (record.map some ++ List.replicate (header.length - record.length) none))

/-- `list(csv.DictReader(stream))`. -/
def Table.rows (table : Table) : List Row :=
  (table.records.filter (· ≠ [])).map (dictRow table.header)

/-- `row[name]`, of a column that the table has. -/
def Row.field (row : Row) (name : String) : Option String := (row.lookup name).join

/-- `row[name].strip()`; a missing value has no such method. -/
def Row.stripped (row : Row) (name : String) : Except Exc String :=
  match row.field name with
  | some text => .ok (strip text)
  | none => .error ⟨.attributeError, "'NoneType' object has no attribute 'strip'"⟩

/-- `repr` of a field. -/
def quotedField : Option String → String
  | some text => quoted text
  | none => "None"

/-- `str` of a field. -/
def fieldText (value : Option String) : String := value.getD "None"

/-! ### Orders of the records -/

/-- The table with its records in another order. -/
def Table.reorder (table : Table) (records : List (List String)) : Table :=
  { table with records := records }

theorem Table.rows_reorder_perm {table : Table} {records : List (List String)}
    (h : records.Perm table.records) : (table.reorder records).rows.Perm table.rows :=
  (h.filter _).map _

/-- The records whose rows pass a test make the rows that do. -/
theorem Table.rows_filter (table : Table) (p : Row → Bool) :
    (table.reorder (table.records.filter fun record => p (dictRow table.header record))).rows =
      table.rows.filter p := by
  rw [Table.rows, Table.rows, List.filter_map, List.filter_filter]
  simp only [Table.reorder, List.filter_filter]
  refine congrArg (List.map _) (List.filter_congr fun record _ => ?_)
  exact Bool.and_comm _ _

theorem Table.rows_append (table : Table) (xs ys : List (List String)) :
    (table.reorder (xs ++ ys)).rows = (table.reorder xs).rows ++ (table.reorder ys).rows := by
  rw [Table.rows, Table.reorder, List.filter_append, List.map_append]
  rfl

end Py
