import K8Labs.Capture.Summary
import K8Labs.Python.Csv
import K8Labs.Python.Str

/-!
# Reading the trace

`parse_trace_csv` reads the records of a scheduler trace with the strict reader of the `csv` module
and keeps those that have an event, a timestamp and a pid.

* `rowEvent` is the body of the loop over the records; `parseTraceLines` is the function over the
  lines of the file and `parseTraceCsv` over its text.
* `parseTraceLines_append` says how a trace is read piece by piece.
* `parseTraceCsv_drops_iff` says when a malformed record costs only itself: **a record that the
  reader itself refuses ends the iteration, and with it everything behind it is lost.**
-/

namespace Capture

open Py

/-! ### Records -/

/-- `TRACE_COLUMNS`. -/
def traceColumns : List String :=
  ["protocol", "run_id", "block_id", "cell_id", "source", "event", "ts_ns", "cpu", "pid", "tgid",
    "comm", "target_pid", "latency_ns", "runtime_ns", "prev_state", "cgroup_path"]

/-- `_optional_int`. -/
def optionalInt (value : String) : Option ℤ :=
  let stripped := strip value
  if stripped = "" then none else (parseInt stripped).toOption

/-- `row.get(column, "")` for the dictionary of a header and the values of a record; of two columns
with one name the last one counts. -/
def column (header values : List String) (name : String) : String :=
  ((header.zip values).reverse.lookup name).getD ""

/-- The column of the timestamp: `ts_ns`, or `timestamp` in a trace of the probe. -/
def tsColumn (header : List String) : String := if "ts_ns" ∈ header then "ts_ns" else "timestamp"

/-- The header has the columns every record needs. -/
def headerAccepted (header : List String) : Bool :=
  decide ("event" ∈ header) && decide (tsColumn header ∈ header) && decide ("pid" ∈ header)

/-- `row.get("target_pid", "") or row.get("next_pid", "")`. -/
def targetText (header values : List String) : String :=
  if column header values "target_pid" = "" then column header values "next_pid"
  else column header values "target_pid"

/-- The record under the stable columns. -/
def normalized (header values : List String) : List (String × String) :=
  traceColumns.map fun name => (name, column header values name)

/-- The event of a record, when it is well formed. -/
def rowEvent (header values : List String) : Option TraceEvent :=
  if values.length ≠ header.length then none
  else
    let event := strip (column header values "event")
    match optionalInt (column header values (tsColumn header)),
      optionalInt (column header values "pid") with
    | some tsNs, some pid =>
      if event = "" ∨ tsNs < 0 ∨ pid < 0 then none
      else
        some
          { event := event
            tsNs := tsNs
            pid := pid
            targetPid := optionalInt (targetText header values)
            runtimeNs := optionalInt (column header values "runtime_ns")
            row := normalized header values }
    | _, _ => none

/-- The events of the records behind a header. -/
def rowEvents (header : List String) (rows : List (List String)) : List TraceEvent :=
  if headerAccepted header then rows.filterMap (rowEvent header) else []

/-- `parse_trace_csv` over the lines of the file.  An exception of the reader ends the loop. -/
def parseTraceLines (lines : List Csv.Line) : List TraceEvent :=
  match Csv.records {} lines with
  | [] => []
  | header :: rows => rowEvents header rows

/-- `parse_trace_csv` over the text of the file. -/
def parseTraceCsv (text : String) : List TraceEvent := parseTraceLines (Csv.lines text.toList)

/-! ### Damage -/

@[simp] theorem rowEvents_nil (header : List String) : rowEvents header [] = [] := by
  simp [rowEvents]

theorem rowEvents_append (header : List String) (rows rows' : List (List String)) :
    rowEvents header (rows ++ rows') = rowEvents header rows ++ rowEvents header rows' := by
  unfold rowEvents
  split_ifs
  · rw [List.filterMap_append]
  · rfl

theorem rowEvents_cons_of_none {header values : List String} (h : rowEvent header values = none)
    (rows : List (List String)) : rowEvents header (values :: rows) = rowEvents header rows := by
  simp [rowEvents, h]

theorem rowEvents_eq_nil {header : List String} {rows : List (List String)} :
    rowEvents header rows = [] ↔
      headerAccepted header = false ∨ ∀ values ∈ rows, rowEvent header values = none := by
  unfold rowEvents
  cases headerAccepted header <;> simp [List.filterMap_eq_nil_iff]

/-- A trace whose first lines are whole records, the header among them, is read piece by piece. -/
theorem parseTraceLines_append {before : List Csv.Line} {header : List String}
    {rows : List (List String)} (h : Csv.scan {} before = some (header :: rows, {}))
    (after : List Csv.Line) :
    parseTraceLines (before ++ after) =
      rowEvents header rows ++ rowEvents header (Csv.records {} after) := by
  rw [parseTraceLines, Csv.records_append h, List.cons_append]
  exact rowEvents_append header rows _

/-- The lines `bad`, in front of the lines `after`, are one malformed record: the reader takes
exactly them, and either refuses the record or yields one that is no event. -/
inductive Malformed (header : List String) (bad after : List Csv.Line) : Prop where
  | dropped (values : List String) (read : Csv.next {} (bad ++ after) = .record values after)
      (noEvent : rowEvent header values = none)
  | refused (error : Csv.Error) (read : Csv.next {} (bad ++ after) = .failed error after)

/-- **When a malformed record costs only itself.**  For every text and every malformed record
behind its header, `parse_trace_csv` returns the events it would return without the record's lines
exactly when the `csv` reader does not refuse the record, or there is nothing to lose: the header is
not admitted, or no record behind it is well formed. -/
theorem parseTraceCsv_drops_iff (text : String) (before bad after : List Csv.Line)
    (header : List String) (rows : List (List String))
    (htext : Csv.lines text.toList = before ++ bad ++ after)
    (hbefore : Csv.scan {} before = some (header :: rows, {}))
    (hbad : Malformed header bad after) :
    (parseTraceCsv text = parseTraceLines (before ++ after) ↔
      (∃ values, Csv.next {} (bad ++ after) = .record values after) ∨
        headerAccepted header = false ∨
        ∀ values ∈ Csv.records {} after, rowEvent header values = none) ∧
    parseTraceLines (before ++ after) =
      rowEvents header rows ++ rowEvents header (Csv.records {} after) := by
  have hafter := parseTraceLines_append hbefore after
  refine ⟨?_, hafter⟩
  rw [parseTraceCsv, htext, List.append_assoc, parseTraceLines_append hbefore, hafter,
    List.append_cancel_left_eq, Csv.records_eq_next, ← rowEvents_eq_nil]
  cases hbad with
  | dropped values read noEvent =>
    rw [read]
    simp only [rowEvents_cons_of_none noEvent, true_iff]
    exact .inl ⟨values, rfl⟩
  | refused error read =>
    -- the iteration ends here
    rw [read, rowEvents_nil]
    constructor
    · exact fun h => .inr h.symm
    · rintro (⟨values, hvalues⟩ | h)
      · cases hvalues
      · exact h.symm

/-- A header, a record with a character behind its closing quote, and a well-formed record. -/
def strayQuoteTrace : String := "event,ts_ns,pid\n\"sched\"x,1,7\nsched_wakeup,5,7\n"

/-- **A stray quote loses the tail.**  Nothing is returned, although the record behind the malformed
one is well formed and is returned without its line. -/
theorem strayQuoteTrace_loses_tail :
    Csv.lines strayQuoteTrace.toList =
        ["event,ts_ns,pid\n".toList] ++ ["\"sched\"x,1,7\n".toList] ++
          ["sched_wakeup,5,7\n".toList] ∧
      Malformed ["event", "ts_ns", "pid"] ["\"sched\"x,1,7\n".toList] ["sched_wakeup,5,7\n".toList] ∧
      (parseTraceCsv strayQuoteTrace).length = 0 ∧
      (parseTraceLines (["event,ts_ns,pid\n".toList] ++ ["sched_wakeup,5,7\n".toList])).length = 1 := by
  refine ⟨by decide +kernel, .refused .delimiterExpected ?_, by decide +kernel, by decide +kernel⟩
  decide +kernel

/-- A record without a pid costs only itself. -/
theorem parseTraceCsv_drops_iff_pidless :
    parseTraceCsv "event,ts_ns,pid\nsched_switch,1,\nsched_wakeup,5,7\n" =
      parseTraceLines (["event,ts_ns,pid\n".toList] ++ ["sched_wakeup,5,7\n".toList]) := by
  refine (parseTraceCsv_drops_iff _ _ ["sched_switch,1,\n".toList] _ ["event", "ts_ns", "pid"] []
    (by decide +kernel) (by decide +kernel) (.dropped ["sched_switch", "1", ""] ?_ ?_)).1.2
    (.inl ⟨["sched_switch", "1", ""], ?_⟩)
  all_goals decide +kernel

end Capture
