import RustHouse.HttpRequest
import RustHouse.JsonOutput
import RustHouse.SharedDatabase

/-!
# HTTP responses

A response is prepared as a whole before its first byte is written. Its length
is computed first, and a response beyond the limit gives way to a fixed one that
says so. A request that changes the database is executed only once the response
to its success has been prepared.
-/

namespace RustHouse.Http

open Batch (Database FloatText Queries QueryResult SharedDatabaseError TryLock emit stringLen)
open Batch.SharedDatabase
open Checked Exec Method Words

/-! ## Lengths -/

/-- `start.saturating_add(..)` for each part. -/
def saturatingSum (start : Nat) (parts : List Nat) : Nat := parts.foldl saturatingAdd start

def contentTypeCsv : Bytes := ascii "text/csv; charset=utf-8"
def contentTypeJson : Bytes := ascii "application/json"
def contentTypeText : Bytes := ascii "text/plain; charset=utf-8"
def contentTypeTsv : Bytes := ascii "text/tab-separated-values; charset=utf-8"
def contentTypePrometheus : Bytes := ascii "text/plain; version=0.0.4; charset=utf-8"

def responseLen (status : Status) (extraHeaders responseHeaders : List Bytes) (contentType : Bytes) (bodyLen : Nat) :
    Nat :=
  let extraHeaderBytes := saturatingSum 0 ((extraHeaders ++ responseHeaders).map List.length)
  saturatingSum (ascii "HTTP/1.1 ").length
    [usizeDecimalLen status.code, 1, stringLen status.reason, (ascii "\r\nContent-Type: ").length, contentType.length,
      (ascii "\r\nContent-Length: ").length, usizeDecimalLen bodyLen, (ascii "\r\nConnection: close\r\n").length,
      extraHeaderBytes, (ascii "\r\n").length, bodyLen]

/-! ## Responses -/

def responseHeader (status : Status) (extraHeaders responseHeaders : List Bytes) (contentType : Bytes) (bodyLen : Nat) :
    Bytes :=
  utf8 s!"HTTP/1.1 {status.code} {status.reason}\r\n" ++
    ascii "Content-Type: " ++ contentType ++ ascii "\r\n" ++
    utf8 s!"Content-Length: {bodyLen}\r\n" ++
    ascii "Connection: close\r\n" ++
    extraHeaders.flatten ++
    responseHeaders.flatten ++
    ascii "\r\n"

/-- A response within the limit, or the length of one beyond it. -/
def prepareResponse (status : Status) (extraHeaders responseHeaders : List Bytes) (contentType body : Bytes)
    (maxResponseBytes : Nat) : Exec Nat Bytes :=
  let responseBytes := responseLen status extraHeaders responseHeaders contentType body.length
  if responseBytes > maxResponseBytes then .error responseBytes
  else
    let response := responseHeader status extraHeaders responseHeaders contentType body.length ++ body
    -- A vector never grows beyond `isizeMax` bytes.
    if response.length > isizeMax then .panic else .ok response

inductive HttpQueryError (ι ω : Type) where
  | read (error : ι)
  | write (error : ω)
  | responseLimitExceeded (bytes maxBytes : Nat)
  deriving DecidableEq

def writeErrorBody {σ ε : Type} (sink : Sink σ ε) (message : String) : Method σ ε Unit := do
  sink.writeAll (ascii "\x7b\"error\":")
  Batch.writeJsonString sink message
  sink.writeAll (ascii "\x7d")

/-- The body of an error; writing to a vector cannot fail. -/
def errorBody {ε : Type} (message : String) : Exec ε Bytes := applied (.expect (writeErrorBody .vec message)) []

def responseLimitMessage : String := "response exceeds configured byte limit"

section
variable {ι ω σ : Type} (output : Sink σ ω)

def writeResponseLimitError (responseHeaders : List Bytes) (maxResponseBytes : Nat) :
    Method σ (HttpQueryError ι ω) Unit := do
  let body ← .call (errorBody responseLimitMessage)
  let response ← .call (mapError (fun bytes => .responseLimitExceeded bytes maxResponseBytes)
    (prepareResponse .internalServerError [] responseHeaders contentTypeJson body maxResponseBytes))
  .mapError .write (output.writeAll response)

def writeResponse (status : Status) (extraHeaders responseHeaders : List Bytes) (contentType body : Bytes)
    (maxResponseBytes : Nat) : Method σ (HttpQueryError ι ω) Unit :=
  match prepareResponse status extraHeaders responseHeaders contentType body maxResponseBytes with
  | .ok response => .mapError .write (output.writeAll response)
  | .error _ => writeResponseLimitError output responseHeaders maxResponseBytes
  | .panic => .call .panic

def writeErrorResponse (status : Status) (extraHeaders responseHeaders : List Bytes) (message : String)
    (maxResponseBytes : Nat) : Method σ (HttpQueryError ι ω) Unit := do
  let body ← .call (errorBody message)
  writeResponse output status extraHeaders responseHeaders contentTypeJson body maxResponseBytes

end

/-- A buffer that refuses a chunk beyond its bound. -/
def boundedVec (maxBytes : Nat) : Sink Bytes Unit where
  writeAll chunk bytes :=
    -- The bound is one of the machine: a sum that overflows exceeds it as well.
    if bytes.length + chunk.length > maxBytes then some (.error (), bytes) else some (.ok (), bytes ++ chunk)

/-! ## Metrics -/

def tablesMetricPrefix : String :=
  "# HELP rusthouse_tables Number of tables retained by the database.\n# TYPE rusthouse_tables gauge\nrusthouse_tables "
def columnsMetricPrefix : String :=
  "# HELP rusthouse_columns Number of columns retained by the database.\n# TYPE rusthouse_columns gauge\nrusthouse_columns "
def retainedRowsMetricPrefix : String :=
  "# HELP rusthouse_retained_rows Number of rows retained across all tables.\n# TYPE rusthouse_retained_rows gauge\nrusthouse_retained_rows "
def retainedValueBytesMetricPrefix : String :=
  "# HELP rusthouse_retained_value_bytes Scalar payload bytes retained across all tables.\n# TYPE rusthouse_retained_value_bytes gauge\nrusthouse_retained_value_bytes "
def globalAggregateWorkerCapMetricPrefix : String :=
  "# HELP rusthouse_global_aggregate_worker_cap Configured computation-lane cap for supported aggregate queries.\n# TYPE rusthouse_global_aggregate_worker_cap gauge\nrusthouse_global_aggregate_worker_cap "
def indexScannedBlocksMetricPrefix : String :=
  "# HELP rusthouse_index_scanned_blocks Sparse-index blocks selected for exact evaluation by indexed query attempts.\n# TYPE rusthouse_index_scanned_blocks counter\nrusthouse_index_scanned_blocks "
def indexPrunedBlocksMetricPrefix : String :=
  "# HELP rusthouse_index_pruned_blocks Sparse-index blocks rejected using metadata by indexed query attempts.\n# TYPE rusthouse_index_pruned_blocks counter\nrusthouse_index_pruned_blocks "
def tableRowsMetricHeader : String :=
  "# HELP rusthouse_table_rows Number of rows retained by a table.\n# TYPE rusthouse_table_rows gauge\n"
def tableRowMetricPrefix : String := "rusthouse_table_rows\x7btable=\""
def tableRowMetricSeparator : String := "\"\x7d "
def tableRetainedValueBytesMetricHeader : String :=
  "# HELP rusthouse_table_retained_value_bytes Scalar payload bytes retained by a table.\n# TYPE rusthouse_table_retained_value_bytes gauge\n"
def tableRetainedValueBytesMetricPrefix : String := "rusthouse_table_retained_value_bytes\x7btable=\""

def prometheusMetricsBodyLen (totals : DatabaseMetrics) (globalAggregateWorkerCap : Nat)
    (indexPruning : IndexPruningMetrics) (tableNameBytes rowCountBytes retainedValueByteCountBytes : Nat) : Nat :=
  let fixedBytes := saturatingSum (stringLen tablesMetricPrefix)
    [stringLen columnsMetricPrefix, stringLen retainedRowsMetricPrefix, stringLen retainedValueBytesMetricPrefix,
      stringLen globalAggregateWorkerCapMetricPrefix, stringLen indexScannedBlocksMetricPrefix,
      stringLen indexPrunedBlocksMetricPrefix, stringLen tableRowsMetricHeader,
      stringLen tableRetainedValueBytesMetricHeader, 7,
      usizeDecimalLen totals.tableCount, usizeDecimalLen totals.columnCount, usizeDecimalLen totals.retainedRowCount,
      usizeDecimalLen totals.retainedValueBytes, usizeDecimalLen globalAggregateWorkerCap,
      usizeDecimalLen indexPruning.scannedBlocks, usizeDecimalLen indexPruning.prunedBlocks]
  let perTableFixedBytes := saturatingSum (stringLen tableRowMetricPrefix)
    [stringLen tableRowMetricSeparator, 1, stringLen tableRetainedValueBytesMetricPrefix,
      stringLen tableRowMetricSeparator, 1]
  saturatingSum fixedBytes
    [saturatingMul totals.tableCount perTableFixedBytes, saturatingMul tableNameBytes 2, rowCountBytes,
      retainedValueByteCountBytes]

section
variable {σ ε : Type} (sink : Sink σ ε)

/-- A number on the rest of its line. -/
def writeMetric (before : String) (value : Nat) : Method σ ε Unit := do
  sink.writeAll (utf8 before)
  sink.writeAll (utf8 s!"{value}\n")

def writeTableMetric (before table : String) (value : Nat) : Method σ ε Unit := do
  sink.writeAll (utf8 before)
  sink.writeAll (utf8 table)
  writeMetric sink tableRowMetricSeparator value

def writePrometheusMetrics (metrics : DatabaseMetricsWithTables) : Method σ ε Unit := do
  writeMetric sink tablesMetricPrefix metrics.totals.tableCount
  writeMetric sink columnsMetricPrefix metrics.totals.columnCount
  writeMetric sink retainedRowsMetricPrefix metrics.totals.retainedRowCount
  writeMetric sink retainedValueBytesMetricPrefix metrics.totals.retainedValueBytes
  writeMetric sink globalAggregateWorkerCapMetricPrefix metrics.globalAggregateWorkerCap
  writeMetric sink indexScannedBlocksMetricPrefix metrics.indexPruning.scannedBlocks
  writeMetric sink indexPrunedBlocksMetricPrefix metrics.indexPruning.prunedBlocks
  sink.writeAll (utf8 tableRowsMetricHeader)
  metrics.tables.forM fun table => writeTableMetric sink tableRowMetricPrefix table.1 table.2.1
  sink.writeAll (utf8 tableRetainedValueBytesMetricHeader)
  metrics.tables.forM fun table => writeTableMetric sink tableRetainedValueBytesMetricPrefix table.1 table.2.2

end

end RustHouse.Http
