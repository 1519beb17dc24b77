import RustHouse.HttpRequestSound
import RustHouse.HttpResponseMessages

/-!
# Responses are bounded and their lengths exact

The length computed ahead of a response is that of the bytes that are written,
and an exchange writes one response within the limit or no byte at all. A
mutation whose response would not fit is not executed.
-/

namespace RustHouse.Http

open Batch (Database FloatText emit stringLen)
open Batch.SharedDatabase
open Checked Exec Method Words

/-! ## Lengths -/

theorem saturatingSum_eq {start : Nat} (hstart : start ≤ usizeMax) (parts : List Nat) :
    saturatingSum start parts = min (start + parts.sum) usizeMax := foldl_saturatingAdd start hstart parts

theorem usizeDecimalLenFrom_eq (digits value : Nat) :
    usizeDecimalLenFrom (digits + 1) value = digits + (Nat.toDigits 10 value).length := by
  induction value using Nat.strongRecOn generalizing digits with
  | ind value ih =>
    rw [usizeDecimalLenFrom]
    by_cases hlt : value < 10
    · rw [if_neg (Nat.not_le.2 hlt), Nat.toDigits_of_lt_base hlt, List.length_singleton]
    · rw [if_pos (Nat.not_lt.1 hlt), ih (value / 10) (by omega), Nat.toDigits_of_base_le (by decide) (Nat.not_lt.1 hlt),
        List.length_append, List.length_singleton]
      omega

theorem usizeDecimalLen_eq (value : Nat) : usizeDecimalLen value = (utf8 (toString value)).length := by
  rw [usizeDecimalLen, usizeDecimalLenFrom_eq, Nat.zero_add, length_utf8_toString]

theorem isizeMax_le_usizeMax : isizeMax ≤ usizeMax := by decide

/-- The lengths of the texts that every response has. -/
theorem fixedLengths :
    ((utf8 "HTTP/1.1 ").length = 9 ∧ (utf8 " ").length = 1 ∧ (utf8 "\r\n").length = 2 ∧
      (utf8 "Content-Length: ").length = 16 ∧ (utf8 "\n").length = 1) ∧
    (ascii "Content-Type: ").length = 14 ∧ (ascii "\r\n").length = 2 ∧ (ascii "Connection: close\r\n").length = 19 ∧
    (ascii "HTTP/1.1 ").length = 9 ∧ (ascii "\r\nContent-Type: ").length = 16 ∧
    (ascii "\r\nContent-Length: ").length = 18 ∧ (ascii "\r\nConnection: close\r\n").length = 21 ∧ 9 ≤ usizeMax := by
  decide +kernel

theorem length_responseHeader (status : Status) (extraHeaders responseHeaders : List Bytes) (contentType : Bytes)
    (bodyLen : Nat) : (responseHeader status extraHeaders responseHeaders contentType bodyLen).length =
      67 + usizeDecimalLen status.code + stringLen status.reason + contentType.length + usizeDecimalLen bodyLen +
        ((extraHeaders ++ responseHeaders).map List.length).sum := by
  have hstatus : (utf8 s!"HTTP/1.1 {status.code} {status.reason}\r\n").length =
      12 + usizeDecimalLen status.code + stringLen status.reason := by
    have htext : s!"HTTP/1.1 {status.code} {status.reason}\r\n" =
        "HTTP/1.1 " ++ toString status.code ++ " " ++ status.reason ++ "\r\n" := rfl
    rw [htext, utf8_append, utf8_append, utf8_append, utf8_append]
    simp only [List.length_append, ← usizeDecimalLen_eq, fixedLengths, stringLen]
    omega
  have hcontentLength : (utf8 s!"Content-Length: {bodyLen}\r\n").length = 18 + usizeDecimalLen bodyLen := by
    have htext : s!"Content-Length: {bodyLen}\r\n" = "Content-Length: " ++ toString bodyLen ++ "\r\n" := rfl
    rw [htext, utf8_append, utf8_append, List.length_append, List.length_append, ← usizeDecimalLen_eq]
    simp only [fixedLengths]
    omega
  simp only [responseHeader, List.length_append, hstatus, hcontentLength, fixedLengths, List.length_flatten, List.map_append,
    List.sum_append]
  omega

theorem responseLen_eq (status : Status) (extraHeaders responseHeaders : List Bytes) (contentType body : Bytes) :
    responseLen status extraHeaders responseHeaders contentType body.length =
      min (responseHeader status extraHeaders responseHeaders contentType body.length ++ body).length usizeMax := by
  have hstart : (ascii "HTTP/1.1 ").length ≤ usizeMax := by
    simp only [fixedLengths]
  rw [responseLen, saturatingSum_eq hstart, saturatingSum_eq (Nat.zero_le _), List.length_append, length_responseHeader]
  simp only [List.sum_cons, List.sum_nil, fixedLengths]
  omega

theorem prepareResponse_eq_ok {status : Status} {extraHeaders responseHeaders : List Bytes} {contentType body : Bytes}
    {maxResponseBytes : Nat} {response : Bytes} :
    prepareResponse status extraHeaders responseHeaders contentType body maxResponseBytes = .ok response ↔
      response = responseHeader status extraHeaders responseHeaders contentType body.length ++ body ∧
        response.length ≤ maxResponseBytes ∧ response.length ≤ isizeMax := by
  have hlen := responseLen_eq status extraHeaders responseHeaders contentType body
  have hmachine := isizeMax_le_usizeMax
  rw [prepareResponse]
  dsimp only
  split
  · refine ⟨(fun h => by cases h), ?_⟩
    rintro ⟨rfl, hfits, _⟩
    omega
  · split
    · refine ⟨(fun h => by cases h), ?_⟩
      rintro ⟨rfl, _, hfits⟩
      omega
    · constructor
      · intro h
        obtain rfl := Exec.ok.inj h
        exact ⟨rfl, by omega, by omega⟩
      · rintro ⟨rfl, _, _⟩
        rfl

theorem prepareResponse_eq_error {status : Status} {extraHeaders responseHeaders : List Bytes}
    {contentType body : Bytes} {maxResponseBytes bytes : Nat} :
    prepareResponse status extraHeaders responseHeaders contentType body maxResponseBytes = .error bytes ↔
      bytes = responseLen status extraHeaders responseHeaders contentType body.length ∧ maxResponseBytes < bytes := by
  rw [prepareResponse]
  dsimp only
  split
  · rename_i hlimit
    refine ⟨fun h => ?_, fun h => by rw [h.1]⟩
    obtain rfl := Exec.error.inj h
    exact ⟨rfl, hlimit⟩
  · rename_i hfits
    constructor
    · split
      · exact fun h => by cases h
      · exact fun h => by cases h
    · rintro ⟨rfl, hlimit⟩
      exact absurd hlimit hfits

theorem responseLen_of_ok {status : Status} {extraHeaders responseHeaders : List Bytes} {contentType body : Bytes}
    {maxResponseBytes : Nat} {response : Bytes}
    (h : prepareResponse status extraHeaders responseHeaders contentType body maxResponseBytes = .ok response) :
    responseLen status extraHeaders responseHeaders contentType body.length = response.length := by
  obtain ⟨rfl, _, hfits⟩ := prepareResponse_eq_ok.1 h
  have hmachine := isizeMax_le_usizeMax
  rw [responseLen_eq, Nat.min_eq_left (by omega)]

/-! ## Metrics -/

def metricText (before : String) (value : Nat) : Bytes := utf8 before ++ utf8 s!"{value}\n"

def tableMetricText (before table : String) (value : Nat) : Bytes :=
  utf8 before ++ (utf8 table ++ metricText tableRowMetricSeparator value)

def metricsText (metrics : DatabaseMetricsWithTables) : Bytes :=
  metricText tablesMetricPrefix metrics.totals.tableCount ++
  (metricText columnsMetricPrefix metrics.totals.columnCount ++
  (metricText retainedRowsMetricPrefix metrics.totals.retainedRowCount ++
  (metricText retainedValueBytesMetricPrefix metrics.totals.retainedValueBytes ++
  (metricText globalAggregateWorkerCapMetricPrefix metrics.globalAggregateWorkerCap ++
  (metricText indexScannedBlocksMetricPrefix metrics.indexPruning.scannedBlocks ++
  (metricText indexPrunedBlocksMetricPrefix metrics.indexPruning.prunedBlocks ++
  (utf8 tableRowsMetricHeader ++
  (metrics.tables.flatMap (fun table => tableMetricText tableRowMetricPrefix table.1 table.2.1) ++
  (utf8 tableRetainedValueBytesMetricHeader ++
    metrics.tables.flatMap fun table => tableMetricText tableRetainedValueBytesMetricPrefix table.1 table.2.2)))))))))

section
variable {σ ε : Type} (sink : Sink σ ε)

theorem writeMetric_writes (before : String) (value : Nat) :
    sink.Writes (writeMetric sink before value) (metricText before value) := (Sink.Writes.chunk _).bind (.chunk _)

theorem writeTableMetric_writes (before table : String) (value : Nat) :
    sink.Writes (writeTableMetric sink before table value) (tableMetricText before table value) :=
  (Sink.Writes.chunk _).bind ((Sink.Writes.chunk _).bind (writeMetric_writes sink _ _))

theorem writePrometheusMetrics_writes (metrics : DatabaseMetricsWithTables) :
    sink.Writes (writePrometheusMetrics sink metrics) (metricsText metrics) := by
  have hmetric := writeMetric_writes sink
  refine (hmetric _ _).bind ((hmetric _ _).bind ((hmetric _ _).bind ((hmetric _ _).bind ((hmetric _ _).bind
    ((hmetric _ _).bind ((hmetric _ _).bind ((Sink.Writes.chunk _).bind (Sink.Writes.bind ?_
      ((Sink.Writes.chunk _).bind ?_)))))))))
  · exact Sink.Writes.forM fun table _ => writeTableMetric_writes sink _ _ _
  · exact Sink.Writes.forM fun table _ => writeTableMetric_writes sink _ _ _

end

theorem length_metricText (before : String) (value : Nat) :
    (metricText before value).length = stringLen before + usizeDecimalLen value + 1 := by
  have htext : s!"{value}\n" = toString value ++ "\n" := rfl
  rw [metricText, htext, utf8_append, List.length_append, List.length_append, ← usizeDecimalLen_eq, fixedLengths.1.2.2.2.2, stringLen,
    Nat.add_assoc]

theorem length_flatMap_tableMetricText (before : String) (value : String × Nat × Nat → Nat)
    (tables : List (String × Nat × Nat)) :
    (tables.flatMap fun table => tableMetricText before table.1 (value table)).length =
      tables.length * (stringLen before + stringLen tableRowMetricSeparator + 1) +
        (tables.map fun table => stringLen table.1).sum + (tables.map fun table => usizeDecimalLen (value table)).sum := by
  induction tables with
  | nil => simp
  | cons table tables ih =>
    rw [List.flatMap_cons, List.length_append, ih, tableMetricText, List.length_append, List.length_append,
      length_metricText, List.length_cons, List.map_cons, List.map_cons, List.sum_cons, List.sum_cons, Nat.succ_mul]
    simp only [stringLen]
    omega

/-- The sums of the names and of the decimal numbers, up to the largest number of the machine. -/
theorem variableBytes_eq (tables : List (String × Nat × Nat)) : variableBytes tables =
    (min (tables.map fun table => stringLen table.1).sum usizeMax,
      min (tables.map fun table => usizeDecimalLen table.2.1).sum usizeMax,
        min (tables.map fun table => usizeDecimalLen table.2.2).sum usizeMax) := by
  have hsum : ∀ (names rows values : Nat),
      tables.foldl (fun lengths table => (saturatingAdd lengths.1 (stringLen table.1),
        saturatingAdd lengths.2.1 (usizeDecimalLen table.2.1), saturatingAdd lengths.2.2 (usizeDecimalLen table.2.2)))
          (names, rows, values) =
        ((tables.map fun table => stringLen table.1).foldl saturatingAdd names,
          (tables.map fun table => usizeDecimalLen table.2.1).foldl saturatingAdd rows,
            (tables.map fun table => usizeDecimalLen table.2.2).foldl saturatingAdd values) := by
    induction tables with
    | nil => exact fun _ _ _ => rfl
    | cons table tables ih => exact fun _ _ _ => ih _ _ _
  refine (hsum 0 0 0).trans ?_
  rw [foldl_saturatingAdd_zero, foldl_saturatingAdd_zero, foldl_saturatingAdd_zero]

theorem saturated_parts {fixed lines names rows values total max : Nat}
    (h : total = fixed + (lines + (names * 2 + (rows + values)))) :
    min (min fixed max + (min lines max + (min (min names max * 2) max + (min rows max + (min values max + 0))))) max =
      min total max := by
  have hcut (a b c : Nat) (hbc : min b max = min c max) : min (min a max + b) max = min (a + c) max := by omega
  have hnames : min (min names max * 2) max = min (names * 2) max := by omega
  rw [h, hnames]
  refine hcut _ _ _ (hcut _ _ _ (hcut _ _ _ (hcut _ _ _ ?_)))
  rw [Nat.add_zero, Nat.min_assoc, Nat.min_self]

theorem prometheusMetricsBodyLen_eq {metrics : DatabaseMetricsWithTables}
    (hcount : metrics.totals.tableCount = metrics.tables.length) {nameBytes rowCountBytes valueByteCountBytes : Nat}
    (hvariable : variableBytes metrics.tables = (nameBytes, rowCountBytes, valueByteCountBytes)) :
    prometheusMetricsBodyLen metrics.totals metrics.globalAggregateWorkerCap metrics.indexPruning nameBytes
      rowCountBytes valueByteCountBytes = min (metricsText metrics).length usizeMax := by
  rw [variableBytes_eq] at hvariable
  obtain ⟨hnames, hrest⟩ := Prod.mk.inj hvariable
  obtain ⟨hrows, hvalues⟩ := Prod.mk.inj hrest
  have hfixed : stringLen tablesMetricPrefix ≤ usizeMax ∧ stringLen tableRowMetricPrefix +
      [stringLen tableRowMetricSeparator, 1, stringLen tableRetainedValueBytesMetricPrefix,
        stringLen tableRowMetricSeparator, 1].sum ≤ usizeMax := by
    decide +kernel
  have hline := (saturatingSum_eq (le_trans (Nat.le_add_right _ _) hfixed.2) _).trans (Nat.min_eq_left hfixed.2)
  rw [prometheusMetricsBodyLen, hline, saturatingSum_eq hfixed.1, saturatingSum_eq (Nat.min_le_right _ _), ← hnames, ← hrows, ← hvalues]
  have hlength : ∀ text : String, (utf8 text).length = stringLen text := fun _ => rfl
  simp only [metricsText, List.length_append, length_metricText, length_flatMap_tableMetricText, hlength, hcount]
  -- What the fixed texts are does not matter, only that both sides have the same.
  clear hfixed hline
  generalize stringLen tablesMetricPrefix = tables, stringLen columnsMetricPrefix = columns,
    stringLen retainedRowsMetricPrefix = rows, stringLen retainedValueBytesMetricPrefix = bytes,
    stringLen globalAggregateWorkerCapMetricPrefix = cap, stringLen indexScannedBlocksMetricPrefix = scanned,
    stringLen indexPrunedBlocksMetricPrefix = pruned, stringLen tableRowsMetricHeader = rowsHeader,
    stringLen tableRetainedValueBytesMetricHeader = bytesHeader, stringLen tableRowMetricPrefix = row,
    stringLen tableRowMetricSeparator = separator, stringLen tableRetainedValueBytesMetricPrefix = value
  have hsum (part : Nat) (parts : List Nat) : (part :: parts).sum = part + parts.sum := List.sum_cons
  simp only [hsum, List.sum_nil, saturatingMul, Nat.mul_add]
  refine saturated_parts ?_
  omega

theorem metricsSnapshotWithTables_available {lock : Batch.TryLock} {indexPruning : IndexPruningMetrics} {db : Database}
    {fits : DatabaseMetrics → Nat → IndexPruningMetrics → Nat × Nat × Nat → Bool} {metrics : DatabaseMetricsWithTables}
    (h : metricsSnapshotWithTables lock indexPruning db fits = .available metrics) :
    metrics.totals.tableCount = metrics.tables.length ∧
      variableBytes metrics.tables = tableMetricVariableBytes db.catalog := by
  rw [metricsSnapshotWithTables] at h
  split at h
  · cases h
  · dsimp only at h
    split at h
    · cases h
    · obtain rfl := DatabaseMetricsSnapshot.available.inj h
      have hperm := List.mergeSort_perm db.catalog.tables.entries fun left right => decide (left.1 ≤ right.1)
      refine ⟨?_, ?_⟩
      · dsimp only [tableMetrics, Database.retainedMetrics, Batch.Catalog.tableCount]
        rw [List.length_map, hperm.length_eq]
      · rw [tableMetricVariableBytes, variableBytes_eq, variableBytes_eq, tableMetrics]
        simp only [List.map_map, ((hperm.map _).sum_eq)]

/-! ## One response -/

/-- A response within the limit, and a message, which is composed of what the server composes responses of. -/
structure ResponseOf (authentication : Authentication) (maxResponseBytes : Nat) (response : Bytes) (status : Status)
    (extraHeaders : List Bytes) (contentType body : Bytes) : Prop where
  status_mem : status ∈ Status.all
  extraHeaders_mem : extraHeaders ∈ failureHeaders
  contentType_mem : contentType ∈ contentTypes
  response_eq : response =
    responseHeader status extraHeaders authentication.responseHeaders contentType body.length ++ body
  message : ∃ startLine headers, Message response startLine headers body
  length_le : response.length ≤ maxResponseBytes

def IsResponse (authentication : Authentication) (maxResponseBytes : Nat) (response : Bytes) : Prop :=
  ∃ status extraHeaders contentType body,
    ResponseOf authentication maxResponseBytes response status extraHeaders contentType body

def errorText (message : String) : Bytes :=
  ascii "\x7b\"error\":" ++ (emit (Batch.jsonStringText message) ++ ascii "\x7d")

theorem errorBody_eq {ε : Type} (message : String) : (errorBody message : Exec ε Bytes) = .ok (errorText message) := by
  have hwrites : Sink.Writes (.vec : Sink Bytes ε) (writeErrorBody .vec message) (errorText message) :=
    (Sink.Writes.chunk _).bind ((Batch.writeJsonString_writes _ message).bind (.chunk _))
  have hrun := hwrites.vec []
  rw [errorBody, applied, expect, hrun]
  rfl

def limitErrorLen (responseHeaders : List Bytes) : Nat :=
  responseLen .internalServerError [] responseHeaders contentTypeJson (errorText responseLimitMessage).length

section
variable {ι ω σ : Type} (output : Sink σ ω) (authentication : Authentication) (maxResponseBytes : Nat)

/-- How an exchange leaves its output: one response was written, or the connection broke while it was, or there was
none that fits, or no request. -/
def Concluded (s : σ) : Except (HttpQueryError ι ω) Unit → σ → Prop
  | .ok _, s' =>
    ∃ response, IsResponse authentication maxResponseBytes response ∧ output.writeAll response s = some (.ok (), s')
  | .error (.write failure), s' =>
    ∃ response, IsResponse authentication maxResponseBytes response ∧
      output.writeAll response s = some (.error failure, s')
  | .error (.responseLimitExceeded _ _), s' => s' = s ∧ maxResponseBytes < limitErrorLen authentication.responseHeaders
  | .error (.read _), s' => s' = s

structure Concludes (m : Method σ (HttpQueryError ι ω) Unit) : Prop where
  outcome : ∀ s, wlp m
    (fun u s' => Concluded output authentication maxResponseBytes s (.ok u : Except (HttpQueryError ι ω) Unit) s')
    (fun e s' => Concluded output authentication maxResponseBytes s (.error e) s') s

end

section
variable {ι ω σ : Type} {output : Sink σ ω} {authentication : Authentication} {maxResponseBytes : Nat}

theorem concludes_panic :
    Concludes output authentication maxResponseBytes (.call .panic : Method σ (HttpQueryError ι ω) Unit) :=
  ⟨fun _ => trivial⟩

theorem concludes_writeAll {response : Bytes} (h : IsResponse authentication maxResponseBytes response) :
    Concludes output authentication maxResponseBytes
      (.mapError .write (output.writeAll response) : Method σ (HttpQueryError ι ω) Unit) := by
  refine ⟨fun s => ?_⟩
  rw [wlp_mapError, wlp_iff]
  exact ⟨fun _ s' hrun => ⟨response, h, hrun⟩, fun _ s' hrun => ⟨response, h, hrun⟩⟩

theorem prepareResponse_isResponse {status : Status} {extraHeaders : List Bytes} {contentType body response : Bytes}
    (hstatus : status ∈ Status.all) (hextra : extraHeaders ∈ failureHeaders) (hcontent : contentType ∈ contentTypes)
    (h : prepareResponse status extraHeaders authentication.responseHeaders contentType body maxResponseBytes = .ok response) :
    IsResponse authentication maxResponseBytes response := by
  obtain ⟨hresponse, hlimit, hfits⟩ := prepareResponse_eq_ok.1 h
  have hbody : body.length ≤ usizeMax := by
    have hmachine := isizeMax_le_usizeMax
    rw [hresponse, List.length_append] at hfits
    omega
  obtain ⟨startLine, headers, hhead⟩ :=
    responseHeader_headed hstatus hextra (responseHeaders_mem authentication) hcontent hbody
  exact ⟨status, extraHeaders, contentType, body, hstatus, hextra, hcontent, hresponse,
    ⟨startLine, headers, _, hhead, hresponse⟩, hlimit⟩

theorem concludes_writeResponseLimitError :
    Concludes output authentication maxResponseBytes
      (writeResponseLimitError output authentication.responseHeaders maxResponseBytes : Method σ (HttpQueryError ι ω) Unit) := by
  refine ⟨fun s => ?_⟩
  rw [writeResponseLimitError, errorBody_eq, wlp_bind, wlp_call]
  refine ⟨fun body hbody => ?_, fun e he => by cases he⟩
  obtain rfl := Exec.ok.inj hbody
  rw [wlp_bind, wlp_call]
  refine ⟨fun response hresponse => ?_, fun e he => ?_⟩
  · have hprepared := mapError_eq_ok.1 hresponse
    have hisResponse := prepareResponse_isResponse Fact.out nil_mem_failureHeaders contentTypeJson_mem hprepared
    exact (concludes_writeAll hisResponse).outcome s
  · obtain ⟨bytes, hbytes, rfl⟩ := mapError_eq_error.1 he
    obtain ⟨rfl, hlimit⟩ := prepareResponse_eq_error.1 hbytes
    exact ⟨rfl, hlimit⟩

theorem concludes_writeResponse {status : Status} {extraHeaders : List Bytes} {contentType : Bytes} (body : Bytes)
    (hstatus : status ∈ Status.all) (hextra : extraHeaders ∈ failureHeaders) (hcontent : contentType ∈ contentTypes) :
    Concludes output authentication maxResponseBytes
      (writeResponse output status extraHeaders authentication.responseHeaders contentType body maxResponseBytes :
        Method σ (HttpQueryError ι ω) Unit) := by
  unfold writeResponse
  cases hprepared : prepareResponse status extraHeaders authentication.responseHeaders contentType body maxResponseBytes with
  | ok response => exact concludes_writeAll (prepareResponse_isResponse hstatus hextra hcontent hprepared)
  | error bytes => exact concludes_writeResponseLimitError
  | panic => exact concludes_panic

theorem concludes_writeErrorResponse {status : Status} {extraHeaders : List Bytes} (message : String)
    (hstatus : status ∈ Status.all) (hextra : extraHeaders ∈ failureHeaders) :
    Concludes output authentication maxResponseBytes
      (writeErrorResponse output status extraHeaders authentication.responseHeaders message maxResponseBytes :
        Method σ (HttpQueryError ι ω) Unit) := by
  refine ⟨fun s => ?_⟩
  rw [writeErrorResponse, errorBody_eq, wlp_bind, wlp_call]
  refine ⟨fun body hbody => ?_, fun e he => by cases he⟩
  exact (concludes_writeResponse body hstatus hextra contentTypeJson_mem).outcome s

theorem concludes_writeOk :
    Concludes output authentication maxResponseBytes
      (writeOk output authentication.responseHeaders maxResponseBytes : Method σ (HttpQueryError ι ω) Unit) := by
  unfold writeOk
  exact concludes_writeResponse _ Fact.out nil_mem_failureHeaders contentTypeText_mem

theorem concludes_writeUnavailable {status : Status} (hstatus : status ∈ Status.all) :
    Concludes output authentication maxResponseBytes
      (writeUnavailable output authentication.responseHeaders maxResponseBytes status :
        Method σ (HttpQueryError ι ω) Unit) := by
  unfold writeUnavailable
  exact concludes_writeErrorResponse _ hstatus nil_mem_failureHeaders

variable {env : Environment}

theorem concludes_writeDatabaseError (failure : Batch.SharedDatabaseError) :
    Concludes output authentication maxResponseBytes
      (writeDatabaseError output env authentication.responseHeaders maxResponseBytes failure : Method σ (HttpQueryError ι ω) Unit) := by
  cases failure with
  | databaseBusy => exact concludes_writeUnavailable Fact.out
  | lockPoisoned => exact concludes_writeUnavailable Fact.out
  | _ => exact concludes_writeErrorResponse _ Fact.out nil_mem_failureHeaders

theorem concludes_writeMetricsResponse (db : Database) :
    Concludes output authentication maxResponseBytes
      (writeMetricsResponse output env authentication.responseHeaders maxResponseBytes db : Method σ (HttpQueryError ι ω) Unit) := by
  unfold writeMetricsResponse
  split
  · exact concludes_writeResponseLimitError
  · exact concludes_writeUnavailable Fact.out
  · split
    · exact concludes_panic
    · exact concludes_writeResponseLimitError
    · exact concludes_writeResponse _ Fact.out nil_mem_failureHeaders contentTypePrometheus_mem

theorem concludes_writeQuery (db : Database) (sql : String) (responseFormat : QueryResponseFormat)
    (limits : ParameterizedWorkloadLimits) :
    Concludes output authentication maxResponseBytes
      (writeQuery output env authentication.responseHeaders maxResponseBytes db sql responseFormat limits :
        Method σ (HttpQueryError ι ω) Unit) := by
  unfold writeQuery
  split
  · exact concludes_panic
  · exact concludes_writeDatabaseError _
  · split
    · exact concludes_panic
    · exact concludes_writeResponseLimitError
    · exact concludes_writeResponse _ Fact.out nil_mem_failureHeaders (contentTypeOf_mem responseFormat)

end

/-! ## The exchange -/

section
variable {ι ω σ : Type} (output : Sink σ ω) (authentication : Authentication) (maxResponseBytes : Nat)

def successLen (responseHeaders : List Bytes) : Nat := responseLen .ok [] responseHeaders contentTypeText 0

/-- How an exchange ends: with one response or none, and with the database as it was unless the response to a success
would have fit. -/
def Ends (s : Exchange ι σ) (outcome : Except (HttpQueryError ι ω) Unit) (s' : Exchange ι σ) : Prop :=
  Concluded output authentication maxResponseBytes s.output outcome s'.output ∧
    (maxResponseBytes < successLen authentication.responseHeaders → s'.database = s.database)

end

section
variable {ι ω σ : Type} {output : Sink σ ω} {authentication : Authentication} {maxResponseBytes : Nat} {env : Environment}

theorem ends_onOutput {m : Method σ (HttpQueryError ι ω) Unit} (h : Concludes output authentication maxResponseBytes m)
    {s t : Exchange ι σ} (hout : t.output = s.output)
    (hdatabase : maxResponseBytes < successLen authentication.responseHeaders → t.database = s.database) :
    wlp (Exchange.onOutput m : Method (Exchange ι σ) (HttpQueryError ι ω) Unit)
      (fun u s' => Ends output authentication maxResponseBytes s (.ok u : Except (HttpQueryError ι ω) Unit) s')
      (fun e s' => Ends output authentication maxResponseBytes s (.error e) s') t := by
  rw [Exchange.onOutput, wlp_zoom, hout]
  exact wlp_mono (h.outcome s.output) (fun _ _ hconcluded => ⟨hconcluded, hdatabase⟩) fun _ _ hconcluded => ⟨hconcluded, hdatabase⟩

theorem ends_writeMutation {α : Type} (mutation : Method Database Batch.SharedDatabaseError α) (s : Exchange ι σ) :
    wlp (writeMutation output env authentication.responseHeaders maxResponseBytes mutation :
        Method (Exchange ι σ) (HttpQueryError ι ω) Unit)
      (fun u s' => Ends output authentication maxResponseBytes s (.ok u : Except (HttpQueryError ι ω) Unit) s')
      (fun e s' => Ends output authentication maxResponseBytes s (.error e) s') s := by
  unfold writeMutation
  cases hprepared : prepareResponse .ok [] authentication.responseHeaders contentTypeText [] maxResponseBytes with
  | panic => exact trivial
  | error bytes => exact ends_onOutput concludes_writeResponseLimitError rfl fun _ => rfl
  | ok successResponse =>
    have hsuccess : ¬ maxResponseBytes < successLen authentication.responseHeaders := by
      rw [Nat.not_lt, successLen]
      exact (Nat.le_of_eq (responseLen_of_ok hprepared)).trans (prepareResponse_eq_ok.1 hprepared).2.1
    dsimp only
    rw [wlp_bind, Exchange.onDatabase, wlp_zoom, wlp_attempt, wlp_iff]
    refine ⟨fun a db _ => ?_, fun failure db _ => ?_⟩
    · have hisResponse := prepareResponse_isResponse Fact.out nil_mem_failureHeaders contentTypeText_mem hprepared
      exact ends_onOutput (concludes_writeAll hisResponse) rfl fun h => absurd h hsuccess
    · exact ends_onOutput (concludes_writeDatabaseError failure) rfl fun h => absurd h hsuccess

variable {limits : HttpQueryLimits}

theorem ends_answer (request : HttpRequest) (s : Exchange ι σ) :
    wlp (answer output env limits authentication request : Method (Exchange ι σ) (HttpQueryError ι ω) Unit)
      (fun u s' => Ends output authentication limits.maxResponseBytes s
        (.ok u : Except (HttpQueryError ι ω) Unit) s')
      (fun e s' => Ends output authentication limits.maxResponseBytes s (.error e) s') s := by
  rw [answer, wlp_bind, wlp_read]
  cases request with
  | ping => exact ends_onOutput concludes_writeOk rfl fun _ => rfl
  | ready =>
    dsimp only
    split
    · exact ends_onOutput concludes_writeOk rfl fun _ => rfl
    · exact ends_onOutput (concludes_writeUnavailable Fact.out) rfl fun _ => rfl
  | metrics => exact ends_onOutput (concludes_writeMetricsResponse _) rfl fun _ => rfl
  | insert sql => exact ends_writeMutation _ s
  | tableInsert table body inputFormat => exact ends_writeMutation _ s
  | query sql responseFormat workloadLimits => exact ends_onOutput (concludes_writeQuery _ _ _ _) rfl fun _ => rfl

theorem ends_handleHttpQueryExchange (access : HttpAccess) (s : Exchange ι σ) :
    wlp (handleHttpQueryExchange output env limits authentication access :
        Method (Exchange ι σ) (HttpQueryError ι ω) Unit)
      (fun u s' => Ends output authentication limits.maxResponseBytes s
        (.ok u : Except (HttpQueryError ι ω) Unit) s')
      (fun e s' => Ends output authentication limits.maxResponseBytes s (.error e) s') s := by
  rw [handleHttpQueryExchange, wlp_bind, Exchange.onInput, wlp_zoom, wlp_attempt, wlp_iff]
  refine ⟨fun request input _ => ?_, fun failure input hfailure => ?_⟩
  · exact ends_answer request { s with input }
  · cases failure with
    | io failure =>
      refine wlp_call.2 ⟨(fun _ h => by cases h), fun e he => ?_⟩
      cases he
      exact ⟨rfl, fun _ => rfl⟩
    | protocol failure =>
      have hknown := (wlp_iff.1 (readRequest_known s.input)).2 _ input hfailure
      exact ends_onOutput (concludes_writeErrorResponse _ hknown.1 hknown.2) rfl fun _ => rfl

end

/-! ## The responses of the server -/

theorem writeResponse_neither {ι ω σ : Type} (output : Sink σ ω) {status : Status}
    {extraHeaders responseHeaders : List Bytes} {contentType body : Bytes} {maxResponseBytes : Nat}
    (hresponse : maxResponseBytes < responseLen status extraHeaders responseHeaders contentType body.length)
    (hlimit : maxResponseBytes < limitErrorLen responseHeaders) (s : σ) :
    (writeResponse output status extraHeaders responseHeaders contentType body maxResponseBytes :
      Method σ (HttpQueryError ι ω) Unit) s =
        some (.error (.responseLimitExceeded (limitErrorLen responseHeaders) maxResponseBytes), s) := by
  have hprepared : prepareResponse status extraHeaders responseHeaders contentType body maxResponseBytes =
      .error (responseLen status extraHeaders responseHeaders contentType body.length) := if_pos hresponse
  have hfixed : prepareResponse .internalServerError [] responseHeaders contentTypeJson
      (errorText responseLimitMessage) maxResponseBytes = .error (limitErrorLen responseHeaders) := if_pos hlimit
  rw [writeResponse, hprepared]
  dsimp only
  rw [writeResponseLimitError, errorBody_eq, bind_of_ok (call_eq_ok.2 ⟨rfl, rfl⟩), hfixed]
  exact bind_of_error (call_eq_error.2 ⟨rfl, rfl⟩)

/-- **Responses are bounded and their lengths exact.** An exchange writes one response within the limit, which announces
the length of its body, or leaves its output as it was, and it does not execute a mutation whose response would not
fit. Behind a response at the front of a response there is nothing. What fits is emitted, and the lengths computed
ahead are those of the responses and of the metrics. -/
theorem responses_exact {ι ω σ : Type} (output : Sink σ ω) (env : Environment) (limits : HttpQueryLimits)
    (authentication : Authentication) (access : HttpAccess) :
    (∀ (s s' : Exchange ι σ) (outcome : Except (HttpQueryError ι ω) Unit),
      handleHttpQueryExchange output env limits authentication access s = some (outcome, s') →
        Ends output authentication limits.maxResponseBytes s outcome s') ∧
    (∀ response, IsResponse authentication limits.maxResponseBytes response →
      ∀ front startLine headers body, Message front startLine headers body → front <+: response → front = response) ∧
    (∀ (status : Status) (extraHeaders responseHeaders : List Bytes) (contentType body : Bytes) (maxResponseBytes : Nat),
      (maxResponseBytes < responseLen status extraHeaders responseHeaders contentType body.length →
        maxResponseBytes < limitErrorLen responseHeaders → ∀ s : σ,
          (writeResponse output status extraHeaders responseHeaders contentType body maxResponseBytes :
            Method σ (HttpQueryError ι ω) Unit) s =
              some (.error (.responseLimitExceeded (limitErrorLen responseHeaders) maxResponseBytes), s)) ∧
      responseLen status extraHeaders responseHeaders contentType body.length =
        min (responseHeader status extraHeaders responseHeaders contentType body.length ++ body).length usizeMax ∧
      (∀ response,
        prepareResponse status extraHeaders responseHeaders contentType body maxResponseBytes = .ok response ↔
          response = responseHeader status extraHeaders responseHeaders contentType body.length ++ body ∧
            response.length ≤ maxResponseBytes ∧ response.length ≤ isizeMax) ∧
      (∀ response,
        prepareResponse status extraHeaders responseHeaders contentType body maxResponseBytes = .ok response →
          responseLen status extraHeaders responseHeaders contentType body.length = response.length) ∧
      ∀ bytes, prepareResponse status extraHeaders responseHeaders contentType body maxResponseBytes = .error bytes ↔
        bytes = responseLen status extraHeaders responseHeaders contentType body.length ∧ maxResponseBytes < bytes) ∧
    (∀ metrics : DatabaseMetricsWithTables, metrics.totals.tableCount = metrics.tables.length →
      ∀ nameBytes rowCountBytes valueByteCountBytes,
        variableBytes metrics.tables = (nameBytes, rowCountBytes, valueByteCountBytes) →
          ∃ body, applied (writePrometheusMetrics (.vec : Sink Bytes Unit) metrics) [] = .ok body ∧
            prometheusMetricsBodyLen metrics.totals metrics.globalAggregateWorkerCap metrics.indexPruning nameBytes
              rowCountBytes valueByteCountBytes = min body.length usizeMax) ∧
    ∀ (db : Database) (fits : DatabaseMetrics → Nat → IndexPruningMetrics → Nat × Nat × Nat → Bool)
      (metrics : DatabaseMetricsWithTables),
      metricsSnapshotWithTables env.lock env.indexPruning db fits = .available metrics →
        metrics.totals.tableCount = metrics.tables.length ∧
          variableBytes metrics.tables = tableMetricVariableBytes db.catalog := by
  refine ⟨fun s s' outcome h => ?_, fun response h front startLine headers body hfront hprefix => ?_,
    fun status extraHeaders responseHeaders contentType body maxResponseBytes => ?_,
    fun metrics hcount nameBytes rowCountBytes valueByteCountBytes hvariable => ?_,
    fun db fits metrics h => metricsSnapshotWithTables_available h⟩
  · have hends := wlp_iff.1 (@ends_handleHttpQueryExchange ι ω σ output authentication env limits access s)
    cases outcome with
    | ok u => exact hends.1 u s' h
    | error failure => exact hends.2 failure s' h
  · obtain ⟨_, _, _, _, hresponse⟩ := h
    obtain ⟨_, _, hmessage⟩ := hresponse.message
    exact hfront.unique hmessage hprefix
  · exact ⟨writeResponse_neither output, responseLen_eq .., fun _ => prepareResponse_eq_ok,
      fun _ h => responseLen_of_ok h, fun _ => prepareResponse_eq_error⟩
  · refine ⟨metricsText metrics, ?_, prometheusMetricsBodyLen_eq hcount hvariable⟩
    rw [applied, (writePrometheusMetrics_writes .vec metrics).vec []]
    rfl

def sampleEnvironment : Environment :=
  ⟨Batch.sampleFloatText, fun _ => "", fun _ _ _ _ => .panic, .success, .acquired, ⟨0, 0⟩⟩

def pingResponse : Bytes :=
  ascii "HTTP/1.1 200 OK\r\nContent-Type: text/plain; charset=utf-8\r\nContent-Length: 4\r\nConnection: close\r\n\r\nOk.\n"

theorem handleHttpQueryExchange_ping (maxResponseBytes : Nat) {outcome : Except (HttpQueryError Unit Unit) Unit}
    {written : Bytes} (h : writeOk .vec [] maxResponseBytes [] = some (outcome, written)) :
    handleHttpQueryExchange .vec sampleEnvironment { sampleLimits with maxResponseBytes } .none .readWrite
      ⟨pingTransport, [], .new⟩ = some (outcome, ⟨⟨[], none⟩, written, .new⟩) := by
  have hread : readRequest Batch.sampleFloatText { sampleLimits with maxResponseBytes } .none .readWrite pingTransport =
      some (.ok .ping, ⟨[], none⟩) := by
    have hlimits : readRequest (ι := Unit) Batch.sampleFloatText { sampleLimits with maxResponseBytes } .none .readWrite =
        readRequest Batch.sampleFloatText sampleLimits .none .readWrite := rfl
    rw [hlimits]
    decide +kernel
  have hinput : (Exchange.onInput (.attempt (readRequest Batch.sampleFloatText { sampleLimits with maxResponseBytes } .none
      .readWrite)) : Method (Exchange Unit Bytes) (HttpQueryError Unit Unit) _) ⟨pingTransport, [], .new⟩ =
        some (.ok (.ok .ping), ⟨⟨[], none⟩, [], .new⟩) := by
    rw [Exchange.onInput, zoom, attempt, hread]
    rfl
  refine (bind_of_ok hinput).trans ?_
  show (zoom Exchange.output (fun output exchange => { exchange with output })
    (writeOk .vec [] maxResponseBytes)) (⟨⟨[], none⟩, [], .new⟩ : Exchange Unit Bytes) = _
  rw [zoom, h]
  rfl

/-- A ping is answered, and where neither the answer nor the fixed response fits, nothing is written. -/
theorem responses_exact_sample :
    IsResponse .none 1000 pingResponse ∧
      ∃ s' : Exchange Unit Bytes, handleHttpQueryExchange (.vec : Sink Bytes Unit) sampleEnvironment
        { sampleLimits with maxResponseBytes := 20 } .none .readWrite ⟨pingTransport, [], .new⟩ =
          some (.error (.responseLimitExceeded (limitErrorLen []) 20), s') ∧ s'.output = [] := by
  have hexact (maxResponseBytes : Nat) := @responses_exact Unit Unit Bytes .vec sampleEnvironment
    { sampleLimits with maxResponseBytes } .none .readWrite
  have hok : (writeOk .vec [] 1000 : Method Bytes (HttpQueryError Unit Unit) Unit) [] = some (.ok (), pingResponse) := by
    decide +kernel
  have hneither := ((hexact 20).2.2.1 .ok [] [] contentTypeText (ascii "Ok.\n") 20).1 (by decide +kernel)
    (by decide +kernel) []
  have hrefused := handleHttpQueryExchange_ping 20 hneither
  obtain ⟨response, hresponse, hwritten⟩ := ((hexact 1000).1 _ _ _ (handleHttpQueryExchange_ping 1000 hok)).1
  obtain rfl : response = pingResponse := (Prod.mk.inj (Option.some.inj hwritten)).2
  exact ⟨hresponse, _, hrefused, ((hexact 20).1 _ _ _ hrefused).1.1⟩

end RustHouse.Http
