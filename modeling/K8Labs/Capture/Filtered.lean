import K8Labs.Capture.ParseTrace
import K8Labs.Python.Sorted

/-!
# The filtered trace

The filter mode writes the records of the target processes under the stable columns, in the order
of time, and the result is meant to be read again by the same parser.

* `writeFilteredTrace` is `_write_filtered_trace`, before compression.
* `reparse_eq` says what reading it gives: the record is read back as it was written
  (`Py.Csv.records_write`), so each event is rebuilt from its stable columns (`rebuilt`).
* `filteredTrace_survives_iff` says when nothing is lost: **the stable columns have neither
  `timestamp` nor `next_pid`**, which the parser accepts and the shipped probe prints.
-/

namespace Capture

open Py

/-- The fields `DictWriter.writerow` writes for an event. -/
def writtenRow (event : TraceEvent) : List String :=
  traceColumns.map fun name => (event.row.lookup name).getD ""

/-- `_write_filtered_trace`, as the text it compresses. -/
def writeFilteredTrace (targetPids : Finset ℤ) (events : List TraceEvent) : String :=
  String.ofList (Csv.write
    (traceColumns :: ((byTime events).filter (related targetPids)).map writtenRow))

/-! ### Columns -/

theorem lookup_map_self (names : List String) (f : String → String) (name : String) :
    (names.map fun n => (n, f n)).lookup name = if name ∈ names then some (f name) else none := by
  induction names with
  | nil => simp
  | cons n names ih =>
    by_cases h : name = n
    · subst h
      simp
    · have hne : (name == n) = false := by simpa using h
      rw [List.map_cons, List.lookup_cons, hne, ih]
      simp [h]

/-- A column of the values that a function gives to the names of the header. -/
theorem column_map (names : List String) (f : String → String) (name : String) :
    column names (names.map f) name = if name ∈ names then f name else "" := by
  have hzip : (names.zip (names.map f)).reverse = names.reverse.map fun n => (n, f n) := by
    rw [← List.map_prod_left_eq_zip, List.map_reverse]
  rw [column, hzip, lookup_map_self]
  simp only [List.mem_reverse]
  split_ifs <;> rfl

theorem writtenRow_of_normalized {event : TraceEvent} {header values : List String}
    (h : event.row = normalized header values) :
    writtenRow event = traceColumns.map (column header values) := by
  refine List.map_congr_left fun name hname => ?_
  rw [h, normalized, lookup_map_self, if_pos hname]
  rfl

/-- A column is empty or one of the values. -/
theorem column_eq_or_mem (header values : List String) (name : String) :
    column header values name = "" ∨ column header values name ∈ values := by
  rw [column]
  cases h : (header.zip values).reverse.lookup name with
  | none => exact .inl rfl
  | some value =>
    right
    obtain ⟨before, after, hsplit, -⟩ := List.lookup_eq_some_iff.1 h
    have hmem : (name, value) ∈ (header.zip values).reverse := by simp [hsplit]
    exact (List.of_mem_zip (List.mem_reverse.1 hmem)).2

theorem column_eq_empty_of_notMem {header values : List String} {name : String}
    (h : name ∉ header) : column header values name = "" := by
  rw [column]
  cases hl : (header.zip values).reverse.lookup name with
  | none => rfl
  | some value =>
    obtain ⟨before, after, hsplit, -⟩ := List.lookup_eq_some_iff.1 hl
    have hmem : (name, value) ∈ (header.zip values).reverse := by simp [hsplit]
    exact absurd (List.of_mem_zip (List.mem_reverse.1 hmem)).1 h

/-! ### Reading an event back -/

/-- What is checked of a record that yields an event. -/
theorem rowEvent_eq_some {header values : List String} {event : TraceEvent}
    (h : rowEvent header values = some event) :
    strip (column header values "event") = event.event ∧
      optionalInt (column header values (tsColumn header)) = some event.tsNs ∧
      optionalInt (column header values "pid") = some event.pid ∧
      optionalInt (targetText header values) = event.targetPid ∧
      optionalInt (column header values "runtime_ns") = event.runtimeNs ∧
      event.row = normalized header values ∧
      ¬ (event.event = "" ∨ event.tsNs < 0 ∨ event.pid < 0) := by
  rw [rowEvent] at h
  split_ifs at h with hlen
  generalize strip (column header values "event") = name at h ⊢
  generalize optionalInt (column header values (tsColumn header)) = tsNs at h ⊢
  generalize optionalInt (column header values "pid") = pid at h ⊢
  generalize optionalInt (targetText header values) = target at h ⊢
  generalize optionalInt (column header values "runtime_ns") = runtime at h ⊢
  generalize normalized header values = row at h ⊢
  cases tsNs with
  | none => cases h
  | some tsNs =>
    cases pid with
    | none => cases h
    | some pid =>
      simp only at h
      split_ifs at h with hbad
      cases h
      exact ⟨rfl, rfl, rfl, rfl, rfl, rfl, hbad⟩

/-- The event rebuilt from its stable columns: without the column `ts_ns` there is none, and the
target is that of the column `target_pid`. -/
def rebuilt (header values : List String) (event : TraceEvent) : Option TraceEvent :=
  if "ts_ns" ∈ header then
    some { event with targetPid := optionalInt (column header values "target_pid") }
  else none

theorem rowEvent_writtenRow {header values : List String} {event : TraceEvent}
    (h : rowEvent header values = some event) :
    rowEvent traceColumns (writtenRow event) = rebuilt header values event := by
  obtain ⟨hevent, hts, hpid, -, hruntime, hrow, hok⟩ := rowEvent_eq_some h
  have hcol : ∀ name, column traceColumns (writtenRow event) name =
      if name ∈ traceColumns then column header values name else "" := by
    intro name
    rw [writtenRow_of_normalized hrow, column_map]
  have htscol : tsColumn traceColumns = "ts_ns" := by decide
  have hin : ∀ name, name ∈ traceColumns →
      column traceColumns (writtenRow event) name = column header values name := fun name hn => by
    rw [hcol, if_pos hn]
  have htarget : optionalInt (targetText traceColumns (writtenRow event)) =
      optionalInt (column header values "target_pid") := by
    have hnext : column traceColumns (writtenRow event) "next_pid" = "" := by
      rw [hcol, if_neg (by decide)]
    rw [targetText, hin "target_pid" (by decide), hnext]
    split_ifs with hempty
    · rw [hempty]
    · rfl
  have hnormal : normalized traceColumns (writtenRow event) = event.row := by
    rw [hrow, normalized, normalized]
    refine List.map_congr_left fun name hn => ?_
    rw [hin name hn]
  have hlen : (writtenRow event).length = traceColumns.length := by simp [writtenRow]
  rw [rowEvent, if_neg (by simp [hlen]), htscol, hin "event" (by decide), hin "ts_ns" (by decide),
    hin "pid" (by decide), hin "runtime_ns" (by decide), hevent, hpid, hruntime, htarget, hnormal,
    rebuilt]
  by_cases hheader : "ts_ns" ∈ header
  · rw [tsColumn, if_pos hheader] at hts
    simp only [hts, if_neg hok, if_pos hheader]
  · rw [column_eq_empty_of_notMem hheader, if_neg hheader]
    have hempty : optionalInt "" = none := by decide
    rw [hempty]

/-! ### Reading the file back -/

/-- Every event of a trace comes from a record behind an admitted header. -/
theorem exists_row_of_mem {text : String} {header : List String} {rows : List (List String)}
    (hrecords : Csv.records {} (Csv.lines text.toList) = header :: rows) {event : TraceEvent}
    (h : event ∈ parseTraceCsv text) :
    headerAccepted header = true ∧ ∃ values ∈ rows, rowEvent header values = some event := by
  rw [parseTraceCsv, parseTraceLines, hrecords] at h
  simp only [rowEvents] at h
  split_ifs at h with haccepted
  · exact ⟨haccepted, List.mem_filterMap.1 h⟩
  · simp at h

/-- The written fields are within the reader's limit, since they were read. -/
theorem length_writtenRow {text : String} {event : TraceEvent} (h : event ∈ parseTraceCsv text) :
    ∀ field ∈ writtenRow event, field.length ≤ Csv.fieldLimit := by
  have hwithin : ({} : Csv.State).Within := ⟨Nat.zero_le _, by simp⟩
  have hfields : ∀ row ∈ Csv.records {} (Csv.lines text.toList), ∀ field ∈ row,
      field.length ≤ Csv.fieldLimit := Csv.length_le_of_mem_records hwithin
  cases hrecords : Csv.records {} (Csv.lines text.toList) with
  | nil =>
    rw [parseTraceCsv, parseTraceLines, hrecords] at h
    cases h
  | cons header rows =>
    obtain ⟨-, values, hvalues, hevent⟩ := exists_row_of_mem hrecords h
    rw [hrecords] at hfields
    intro field hfield
    rw [writtenRow_of_normalized (rowEvent_eq_some hevent).2.2.2.2.2.1] at hfield
    obtain ⟨name, -, rfl⟩ := List.mem_map.1 hfield
    rcases column_eq_or_mem header values name with hempty | hmem
    · rw [hempty]
      exact Nat.zero_le _
    · exact hfields values (List.mem_cons_of_mem _ hvalues) _ hmem

/-- The events read back from the filtered trace are rebuilt one by one. -/
theorem reparse_eq (targetPids : Finset ℤ) (text : String) :
    parseTraceCsv (writeFilteredTrace targetPids (parseTraceCsv text)) =
      ((byTime (parseTraceCsv text)).filter (related targetPids)).filterMap fun event =>
        rowEvent traceColumns (writtenRow event) := by
  have hcolumns : ∀ field ∈ traceColumns, field.length ≤ Csv.fieldLimit := by decide
  rw [parseTraceCsv, writeFilteredTrace, String.toList_ofList, parseTraceLines, Csv.records_write]
  · have haccepted : headerAccepted traceColumns = true := by decide
    dsimp only
    rw [rowEvents, if_pos haccepted, List.filterMap_map, Function.comp_def]
  · rw [List.forall_mem_cons]
    refine ⟨hcolumns, fun row hrow => ?_⟩
    obtain ⟨event, hevent, rfl⟩ := List.mem_map.1 hrow
    exact length_writtenRow ((List.mem_insertionSort _).1 (List.mem_filter.1 hevent).1)

theorem pairwise_byTime (events : List TraceEvent) :
    (byTime events).Pairwise fun a b => a.tsNs ≤ b.tsNs := by
  have : Std.Total (α := TraceEvent) fun a b => a.tsNs ≤ b.tsNs := ⟨fun a b => le_total a.tsNs b.tsNs⟩
  have : IsTrans TraceEvent fun a b => a.tsNs ≤ b.tsNs := ⟨fun _ _ _ => le_trans⟩
  exact List.pairwise_insertionSort _ _

/-- Sorting is stable, so filtering before or after makes no difference. -/
theorem byTime_filter (p : TraceEvent → Bool) (events : List TraceEvent) :
    byTime (events.filter p) = (byTime events).filter p := by
  have : Std.Total (α := TraceEvent) fun a b => a.tsNs ≤ b.tsNs := ⟨fun a b => le_total a.tsNs b.tsNs⟩
  have : IsTrans TraceEvent fun a b => a.tsNs ≤ b.tsNs := ⟨fun _ _ _ => le_trans⟩
  exact Py.insertionSort_filter p events

/-! ### What survives -/

/-- The kind, the time and the target of an event. -/
def eventKey (event : TraceEvent) : String × ℤ × Option ℤ :=
  (event.event, event.tsNs, event.targetPid)

/-- A record that the stable columns hold in full: it has the column `ts_ns`, and its target stands
in the column `target_pid`, or there is none. -/
def Kept (header values : List String) : Prop :=
  "ts_ns" ∈ header ∧
    (column header values "target_pid" ≠ "" ∨ optionalInt (column header values "next_pid") = none)

theorem rebuilt_eq_some_iff {header values : List String} {event : TraceEvent}
    (h : rowEvent header values = some event) :
    (∃ event', rebuilt header values event = some event' ∧ eventKey event' = eventKey event) ↔
      Kept header values := by
  have htarget := (rowEvent_eq_some h).2.2.2.1
  have hempty : optionalInt "" = none := by decide
  rw [rebuilt, Kept]
  by_cases hheader : "ts_ns" ∈ header
  · simp only [eventKey, hheader, true_and, ← htarget, targetText]
    by_cases ht : column header values "target_pid" = ""
    · rw [if_pos ht, ht, hempty]
      simp [eq_comm]
    · rw [if_neg ht]
      simp [ht]
  · simp [hheader]

/-- A record that is kept is rebuilt as it was. -/
theorem rebuilt_of_kept {header values : List String} {event : TraceEvent}
    (h : rowEvent header values = some event) (hkept : Kept header values) :
    rebuilt header values event = some event := by
  obtain ⟨event', hevent', hkey⟩ := (rebuilt_eq_some_iff h).2 hkept
  rw [rebuilt, if_pos hkept.1] at hevent' ⊢
  cases hevent'
  have htarget := congrArg (fun key => key.2.2) hkey
  simp only [eventKey] at htarget
  rw [htarget]

theorem key_of_map_filterMap_eq {f : TraceEvent → Option TraceEvent} {events : List TraceEvent}
    (hsome : ∀ x ∈ events, (f x).isSome = true)
    (h : (events.filterMap f).map eventKey = events.map eventKey) :
    ∀ x ∈ events, ∃ y, f x = some y ∧ eventKey y = eventKey x := by
  induction events with
  | nil => simp
  | cons event events ih =>
    rw [List.forall_mem_cons] at hsome ⊢
    obtain ⟨y, hy⟩ := Option.isSome_iff_exists.1 hsome.1
    rw [List.filterMap_cons_some hy, List.map_cons, List.map_cons, List.cons.injEq] at h
    exact ⟨⟨y, hy, h.1⟩, ih hsome.2 h.2⟩

/-- **When the filter keeps the trace.**  For every trace and every set of targets, the kinds, times
and targets of the related events are read back from the filtered trace, and it has the summary of
the events that were filtered, exactly when every related record has its time in the column `ts_ns`
and its target, if any, in the column `target_pid`. -/
theorem filteredTrace_survives_iff (targetPids : Finset ℤ) (text : String) :
    ((parseTraceCsv (writeFilteredTrace targetPids (parseTraceCsv text))).map eventKey =
        ((byTime (parseTraceCsv text)).filter (related targetPids)).map eventKey ∧
      summarizeTrace targetPids (parseTraceCsv (writeFilteredTrace targetPids (parseTraceCsv text))) =
        summarizeTrace targetPids ((parseTraceCsv text).filter (related targetPids))) ↔
    ∀ header rows, Csv.records {} (Csv.lines text.toList) = header :: rows →
      headerAccepted header = true → ∀ values ∈ rows, ∀ event, rowEvent header values = some event →
        related targetPids event = true → Kept header values := by
  rw [reparse_eq]
  set kept := (byTime (parseTraceCsv text)).filter (related targetPids) with hkept
  have hmem : ∀ event ∈ kept, event ∈ parseTraceCsv text ∧ related targetPids event = true := by
    intro event hevent
    rw [hkept, List.mem_filter] at hevent
    exact ⟨(List.mem_insertionSort _).1 hevent.1, hevent.2⟩
  constructor
  · rintro ⟨hkeys, -⟩ header rows hrecords haccepted values hvalues event hevent hrelated
    have hin : event ∈ kept := by
      rw [hkept, List.mem_filter]
      refine ⟨(List.mem_insertionSort _).2 ?_, hrelated⟩
      rw [parseTraceCsv, parseTraceLines, hrecords]
      simp only [rowEvents, haccepted, if_true]
      exact List.mem_filterMap.2 ⟨values, hvalues, hevent⟩
    have hrebuilt : ∀ x ∈ kept, ∃ vs, rowEvent traceColumns (writtenRow x) = rebuilt header vs x := by
      intro x hx
      obtain ⟨-, vs, -, hvs⟩ := exists_row_of_mem hrecords (hmem x hx).1
      exact ⟨vs, rowEvent_writtenRow hvs⟩
    -- the writer names its time column `ts_ns`, whatever column the time was read from
    by_cases hheader : "ts_ns" ∈ header
    · have hsome : ∀ x ∈ kept, (rowEvent traceColumns (writtenRow x)).isSome = true := by
        intro x hx
        obtain ⟨vs, hvs⟩ := hrebuilt x hx
        rw [hvs, rebuilt, if_pos hheader]
        rfl
      obtain ⟨y, hy, hkey⟩ := key_of_map_filterMap_eq hsome hkeys event hin
      rw [rowEvent_writtenRow hevent] at hy
      exact (rebuilt_eq_some_iff hevent).1 ⟨y, hy, hkey⟩
    · -- without `ts_ns` nothing is read back
      have hnil : kept.filterMap (fun x => rowEvent traceColumns (writtenRow x)) = [] := by
        refine List.filterMap_eq_nil_iff.2 fun x hx => ?_
        obtain ⟨vs, hvs⟩ := hrebuilt x hx
        rw [hvs, rebuilt, if_neg hheader]
      rw [hnil, List.map_nil, eq_comm, List.map_eq_nil_iff] at hkeys
      rw [hkeys] at hin
      cases hin
  · intro hcond
    -- under the condition every row is read back as the event it was written from
    have hself : kept.filterMap (fun x => rowEvent traceColumns (writtenRow x)) = kept := by
      have hsome : ∀ x ∈ kept, rowEvent traceColumns (writtenRow x) = some x := by
        intro x hx
        obtain ⟨hx, hrelated⟩ := hmem x hx
        cases hrecords : Csv.records {} (Csv.lines text.toList) with
        | nil =>
          rw [parseTraceCsv, parseTraceLines, hrecords] at hx
          cases hx
        | cons header rows =>
          obtain ⟨haccepted, values, hvalues, hevent⟩ := exists_row_of_mem hrecords hx
          rw [rowEvent_writtenRow hevent]
          exact rebuilt_of_kept hevent
            (hcond header rows hrecords haccepted values hvalues x hevent hrelated)
      rw [List.filterMap_congr hsome, List.filterMap_some]
    rw [hself]
    refine ⟨rfl, ?_⟩
    have hsorted : kept.Pairwise fun a b => a.tsNs ≤ b.tsNs := (pairwise_byTime _).filter _
    rw [summarizeTrace, summarizeTrace, byTime_of_sorted hsorted, byTime_filter]

/-- A wakeup and a switch as the probe `sched-trace.bt` prints them. -/
def probeTrace : String :=
  "timestamp,event,cpu,pid,comm,prev_state,next_pid,next_comm,runtime_ns,cgroup_id\n" ++
    "10,sched_wakeup,0,3,irq,,7,worker,,1\n15,sched_switch,0,3,irq,0,7,worker,,1\n"

/-- **The filter empties a trace of the probe.**  Its two events and their delay are gone. -/
theorem probeTrace_lost :
    (parseTraceCsv probeTrace).map eventKey =
        [("sched_wakeup", 10, some 7), ("sched_switch", 15, some 7)] ∧
      (summarizeTrace {7} ((parseTraceCsv probeTrace).filter (related {7}))).runQueueDelaysNs =
        [⟨7, 10, 15, 5⟩] ∧
      parseTraceCsv (writeFilteredTrace {7} (parseTraceCsv probeTrace)) = [] ∧
      (summarizeTrace {7}
        (parseTraceCsv (writeFilteredTrace {7} (parseTraceCsv probeTrace)))).runQueueDelaysNs = [] := by
  decide +kernel

end Capture
