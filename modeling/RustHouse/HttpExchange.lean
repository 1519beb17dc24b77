import RustHouse.HttpResponse

/-!
# One HTTP exchange

One request is read, answered with one response, and the connection is done.
-/

namespace RustHouse.Http

open Batch (Database FloatText Queries QueryResult SharedDatabaseError TryLock emit)
open Batch.SharedDatabase
open Checked Exec Method Words

/-- The two ends of a connection and the database behind it. -/
structure Exchange (ι σ : Type) where
  input : Transport ι
  output : σ
  database : Database

namespace Exchange

section
variable {ι σ ε α : Type}

def onInput (m : Method (Transport ι) ε α) : Method (Exchange ι σ) ε α :=
  .zoom Exchange.input (fun input exchange => { exchange with input }) m

def onOutput (m : Method σ ε α) : Method (Exchange ι σ) ε α :=
  .zoom Exchange.output (fun output exchange => { exchange with output }) m

def onDatabase (m : Method Database ε α) : Method (Exchange ι σ) ε α :=
  .zoom Exchange.database (fun database exchange => { exchange with database }) m

end

end Exchange

/-- What an exchange meets outside: how numbers and errors are displayed, how queries are answered, what the operating
system answers, whether the lock is free, and what the counters of the index have counted. -/
structure Environment where
  float : FloatText
  errorText : SharedDatabaseError → String
  queries : Nat → Queries
  io : CommitIo
  lock : TryLock
  indexPruning : IndexPruningMetrics

def Authentication.responseHeaders : Authentication → List Bytes
  | .clickHouseKey _ | .clickHousePrincipal _ _ | .clickHousePrincipalSet _ =>
    [ascii "Cache-Control: private, no-store\r\n"]
  | .none | .bearer _ => []

section
variable {ι ω σ : Type} (output : Sink σ ω) (env : Environment) (responseHeaders : List Bytes) (maxResponseBytes : Nat)

/-! ## Answers -/

def writeOk : Method σ (HttpQueryError ι ω) Unit :=
  writeResponse output .ok [] responseHeaders contentTypeText (ascii "Ok.\n") maxResponseBytes

def writeUnavailable (status : Status) : Method σ (HttpQueryError ι ω) Unit :=
  writeErrorResponse output status [] responseHeaders "database is unavailable" maxResponseBytes

def writeDatabaseError : SharedDatabaseError → Method σ (HttpQueryError ι ω) Unit
  | .databaseBusy => writeUnavailable output responseHeaders maxResponseBytes .serviceUnavailable
  | .lockPoisoned => writeUnavailable output responseHeaders maxResponseBytes .internalServerError
  | other => writeErrorResponse output .badRequest [] responseHeaders (env.errorText other) maxResponseBytes

def writeMetricsResponse (db : Database) : Method σ (HttpQueryError ι ω) Unit :=
  match metricsSnapshotWithTables env.lock env.indexPruning db
    fun totals globalAggregateWorkerCap indexPruning (tableNameBytes, rowCountBytes, retainedValueByteCountBytes) =>
      responseLen .ok [] responseHeaders contentTypePrometheus (prometheusMetricsBodyLen totals
        globalAggregateWorkerCap indexPruning tableNameBytes rowCountBytes retainedValueByteCountBytes) ≤
          maxResponseBytes with
  | .responseLimitExceeded => writeResponseLimitError output responseHeaders maxResponseBytes
  | .unavailable => writeUnavailable output responseHeaders maxResponseBytes .serviceUnavailable
  | .available metrics =>
    match applied (writePrometheusMetrics (boundedVec maxResponseBytes) metrics) [] with
    | .panic => .call .panic
    | .error _ => writeResponseLimitError output responseHeaders maxResponseBytes
    | .ok body => writeResponse output .ok [] responseHeaders contentTypePrometheus body maxResponseBytes

/-- A mutation, once the response to its success has been prepared. -/
def writeMutation {α : Type} (mutation : Method Database SharedDatabaseError α) :
    Method (Exchange ι σ) (HttpQueryError ι ω) Unit :=
  match prepareResponse .ok [] responseHeaders contentTypeText [] maxResponseBytes with
  | .panic => .call .panic
  | .error _ => Exchange.onOutput (writeResponseLimitError output responseHeaders maxResponseBytes)
  | .ok successResponse => do
    match ← Exchange.onDatabase (.attempt mutation) with
    | .ok _ => Exchange.onOutput (.mapError .write (output.writeAll successResponse))
    | .error failure => Exchange.onOutput (writeDatabaseError output env responseHeaders maxResponseBytes failure)

def tableInsert (limits : HttpQueryLimits) (table : String) (body : Bytes) :
    TableInsertFormat → Method Database SharedDatabaseError Nat
  | .csv => tryIngestCsv env.float env.io env.lock table body limits.csvIngestLimits
  | .csvWithNames => tryIngestCsvWithNames env.float env.io env.lock table body limits.csvIngestLimits
  | .tabSeparated => tryIngestTsv env.float env.io env.lock table body limits.tsvIngestLimits
  | .tabSeparatedWithNames => tryIngestTsvWithNames env.float env.io env.lock table body limits.tsvIngestLimits

/-! ## Queries -/

/-- The limits of a request; none at all leave the query to its own. -/
def queryWithin (db : Database) (sql : String) (limits : ParameterizedWorkloadLimits) :
    Exec SharedDatabaseError QueryResult :=
  if limits = .default then tryQuery env.float env.queries env.lock db sql
  else tryQueryWithParameterizedWorkloadLimits env.float env.queries env.lock db sql
    ⟨limits.maxResultBytes.getD 0, limits.maxResultRows.getD 0, limits.maxResultValues.getD 0,
      limits.maxRowsToRead.getD 0, limits.maxRowsToGroupBy.getD 0, limits.maxGroupKeyCells.getD 0,
      limits.maxGroupKeyBytes.getD 0, limits.maxOrderingStateBytes.getD 0, limits.maxAggregateStateCells.getD 0,
      limits.maxAggregateStateBytes.getD 0, limits.maxThreads.getD 0⟩

def contentTypeOf : QueryResponseFormat → Bytes
  | .json | .jsonEachRow | .jsonCompactEachRow => contentTypeJson
  | .csv | .csvWithNames => contentTypeCsv
  | .tabSeparated | .tabSeparatedWithNames => contentTypeTsv

/-- The body of a result; how a text comes in chunks makes no difference to a bounded buffer. -/
def renderResult (result : QueryResult) : QueryResponseFormat → Exec Unit Bytes
  | .json => applied (Batch.writeJson (boundedVec maxResponseBytes) env.float result) []
  | .csvWithNames => applied ((boundedVec maxResponseBytes).writeAll (emit (Batch.writeCsv env.float result))) []
  | .csv => applied ((boundedVec maxResponseBytes).writeAll (emit (Batch.writeCsvRows env.float result))) []
  | .tabSeparatedWithNames =>
    applied ((boundedVec maxResponseBytes).writeAll (emit (Batch.writeTsv env.float result))) []
  | .tabSeparated => applied ((boundedVec maxResponseBytes).writeAll (emit (Batch.writeTsvRows env.float result))) []
  | .jsonEachRow => mapError (fun _ => ())
    (applied (Batch.writeJsonEachRowWithLimit env.float (boundedVec maxResponseBytes) result maxResponseBytes) [])
  | .jsonCompactEachRow =>
    applied (Batch.writeJsonCompactEachRow (boundedVec maxResponseBytes) env.float result) []

def writeQuery (db : Database) (sql : String) (responseFormat : QueryResponseFormat)
    (limits : ParameterizedWorkloadLimits) : Method σ (HttpQueryError ι ω) Unit :=
  match queryWithin env db sql limits with
  | .panic => .call .panic
  | .error failure => writeDatabaseError output env responseHeaders maxResponseBytes failure
  | .ok result =>
    match renderResult env maxResponseBytes result responseFormat with
    | .panic => .call .panic
    | .error _ => writeResponseLimitError output responseHeaders maxResponseBytes
    | .ok body =>
      writeResponse output .ok [] responseHeaders (contentTypeOf responseFormat) body maxResponseBytes

end

/-! ## The exchange -/

section
variable {ι ω σ : Type} (output : Sink σ ω) (env : Environment) (limits : HttpQueryLimits)
  (authentication : Authentication)

def answer (request : HttpRequest) : Method (Exchange ι σ) (HttpQueryError ι ω) Unit := do
  let responseHeaders := authentication.responseHeaders
  let maxResponseBytes := limits.maxResponseBytes
  let exchange ← .read
  match request with
  | .ping => Exchange.onOutput (writeOk output responseHeaders maxResponseBytes)
  | .ready =>
    if isReadLockAvailable env.lock then Exchange.onOutput (writeOk output responseHeaders maxResponseBytes)
    else Exchange.onOutput (writeUnavailable output responseHeaders maxResponseBytes .serviceUnavailable)
  | .metrics =>
    Exchange.onOutput (writeMetricsResponse output env responseHeaders maxResponseBytes exchange.database)
  | .insert sql =>
    writeMutation output env responseHeaders maxResponseBytes (tryExecuteInsertBatch env.float env.io env.lock sql)
  | .tableInsert table body inputFormat =>
    writeMutation output env responseHeaders maxResponseBytes (tableInsert env limits table body inputFormat)
  | .query sql responseFormat workloadLimits =>
    Exchange.onOutput
      (writeQuery output env responseHeaders maxResponseBytes exchange.database sql responseFormat workloadLimits)

def handleHttpQueryExchange (access : HttpAccess) : Method (Exchange ι σ) (HttpQueryError ι ω) Unit := do
  match ← Exchange.onInput (.attempt (readRequest env.float limits authentication access)) with
  | .error (.io failure) => .call (.error (.read failure))
  | .error (.protocol failure) =>
    Exchange.onOutput
      (writeErrorResponse output failure.status failure.extraHeaders authentication.responseHeaders failure.message
        limits.maxResponseBytes)
  | .ok request => answer output env limits authentication request

end

end RustHouse.Http
