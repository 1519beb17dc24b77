import Mathlib.Data.List.DropRight
import RustHouse.Csv
import RustHouse.HttpQueryFormat
import RustHouse.Transport
import RustHouse.Tsv

/-!
# HTTP requests

A request is read from a transport in two steps: a header block, one byte at a
time, and a body whose length the header block gives. The body is read only
once the header block has been accepted.
-/

namespace RustHouse.Http

open Batch (CsvIngestLimits FloatText Statement TsvIngestLimits eqIgnoreAsciiCase isWhitespace validateTableName)
open Checked Exec Method Words

/-! ## Limits and access -/

structure HttpQueryLimits where
  maxHeaderBytes : Nat
  maxHeaderCount : Nat
  maxSqlBytes : Nat
  csvIngestLimits : CsvIngestLimits
  tsvIngestLimits : TsvIngestLimits
  maxResponseBytes : Nat

inductive HttpAccess where
  | readOnly | readWrite
  deriving DecidableEq, Repr

namespace HttpAccess

def allowsInsert (access : HttpAccess) : Bool := access = .readWrite

def tightenForRequest (access : HttpAccess) (readonly : Option Bool) : HttpAccess :=
  if readonly = some true then .readOnly else access

end HttpAccess

inductive ClickHousePrincipalRole where
  | readOnly | readWrite
  deriving DecidableEq, Repr

structure ClickHousePrincipal where
  user : String
  key : String
  role : ClickHousePrincipalRole

inductive Authentication where
  | none
  | bearer (token : Bytes)
  | clickHouseKey (key : Bytes)
  | clickHousePrincipal (user key : Bytes)
  | clickHousePrincipalSet (principals : List ClickHousePrincipal)

namespace Authentication

def isConfigured : Authentication → Bool
  | none => false
  | _ => true

def takesAuthorization : Authentication → Bool
  | bearer _ => true
  | _ => false

def takesUser : Authentication → Bool
  | clickHousePrincipal _ _ | clickHousePrincipalSet _ => true
  | _ => false

def takesKey : Authentication → Bool
  | clickHouseKey _ | clickHousePrincipal _ _ | clickHousePrincipalSet _ => true
  | _ => false

end Authentication

/-! ## Requests -/

inductive RequestReadError (ι : Type) where
  | io (error : ι)
  | protocol (failure : RequestFailure)
  deriving DecidableEq

inductive TableInsertFormat where
  | csv | csvWithNames | tabSeparated | tabSeparatedWithNames
  deriving DecidableEq, Repr

def TableInsertFormat.name : TableInsertFormat → String
  | csv => "CSV"
  | csvWithNames => "CSVWithNames"
  | tabSeparated => "TabSeparated"
  | tabSeparatedWithNames => "TabSeparatedWithNames"

def TableInsertFormat.outputSelectorRejectionMessage (format : TableInsertFormat) : String :=
  format.name ++ " INSERT does not accept an output format selector"

inductive QuerySource where
  | body
  | urlEncodedParameters (encodedParameters : Bytes) (method : ParameterizedQueryMethod)
  deriving DecidableEq, Repr

inductive RequestKind where
  | query (source : QuerySource)
  | insert
  | tableInsert (table : String)
  | ping | ready | metrics
  deriving DecidableEq, Repr

structure ParsedRequest where
  kind : RequestKind
  contentLength : Option Nat
  responseFormat : Option QueryResponseFormat
  tableInsertFormat : TableInsertFormat

inductive HttpRequest where
  | query (sql : String) (responseFormat : QueryResponseFormat) (workloadLimits : ParameterizedWorkloadLimits)
  | insert (sql : String)
  | tableInsert (table : String) (body : Bytes) (inputFormat : TableInsertFormat)
  | ping | ready | metrics
  deriving DecidableEq

def badRequest (message : String) : RequestFailure := .new .badRequest message

def withHeaders (status : Status) (message : String) (extraHeaders : List String) : RequestFailure :=
  ⟨status, message, extraHeaders.map ascii⟩

def eqIgnoreCase (left : Bytes) (right : String) : Bool := left.map toLowerByte = (ascii right).map toLowerByte
where
  toLowerByte (b : UInt8) : UInt8 := if byte 'A' ≤ b ∧ b ≤ byte 'Z' then b + 32 else b

def isAsciiAlphanumeric (b : UInt8) : Bool :=
  isAsciiDigit b || (byte 'a' ≤ b && b ≤ byte 'z') || (byte 'A' ≤ b && b ≤ byte 'Z')

/-! ## The request line -/

def targetNotFound : RequestFailure := .new .notFound "request target must be / or /query"

def parseTableInsertTarget (target : Bytes) : Option String := do
  let table ← (ascii "/insert/").isPrefixOf? target
  let table ← fromUtf8 table
  if validateTableName table = .ok () then some table else none

def isParameterTarget (target : Bytes) : Bool :=
  ["/?query=", "/?database=", "/?max_result_bytes=", "/?max_result_rows=", "/?max_result_values=",
    "/?max_rows_to_read=", "/?max_rows_to_group_by=", "/?max_group_key_cells=", "/?max_group_key_bytes=",
    "/?max_ordering_state_bytes=", "/?max_aggregate_state_cells=", "/?max_aggregate_state_bytes=", "/?max_threads=",
    "/?readonly=", "/?default_format="].any fun parameter => (ascii parameter).isPrefixOf target

def methodNotAllowed (message : String) (allow : String) : RequestFailure :=
  withHeaders .methodNotAllowed message ["Allow: " ++ allow ++ "\r\n"]

def requestKind (authenticatedInsertEnabled : Bool) (method target : Bytes) : Exec RequestFailure RequestKind :=
  let isPost := method = ascii "POST"
  let isGet := method = ascii "GET"
  let isRoot := target = ascii "/" ∨ target = ascii "/query"
  let hasParameters := (ascii "/?").isPrefixOf target
  if isPost ∧ isRoot then .ok (.query .body)
  else if isPost ∧ target = ascii "/insert" ∧ authenticatedInsertEnabled then .ok .insert
  else if isPost ∧ authenticatedInsertEnabled ∧ (ascii "/insert/").isPrefixOf target then
    getOr ((parseTableInsertTarget target).map .tableInsert) targetNotFound
  else if isGet ∧ hasParameters then .ok (.query (.urlEncodedParameters (target.drop 2) .get))
  else if isPost ∧ hasParameters then .ok (.query (.urlEncodedParameters (target.drop 2) .post))
  else if isGet ∧ target = ascii "/ping" then .ok .ping
  else if isGet ∧ target = ascii "/ready" then .ok .ready
  else if isGet ∧ target = ascii "/metrics" then .ok .metrics
  else if isRoot then .error (methodNotAllowed "method must be POST" "POST")
  else if isParameterTarget target then
    .error (methodNotAllowed "method must be GET or POST for /?query=" "GET, POST")
  else if target = ascii "/ping" then .error (methodNotAllowed "method must be GET for /ping" "GET")
  else if target = ascii "/ready" then .error (methodNotAllowed "method must be GET for /ready" "GET")
  else if target = ascii "/metrics" then .error (methodNotAllowed "method must be GET for /metrics" "GET")
  else if target = ascii "/insert" ∧ authenticatedInsertEnabled then
    .error (methodNotAllowed "method must be POST for /insert" "POST")
  else if authenticatedInsertEnabled ∧ (parseTableInsertTarget target).isSome then
    .error (methodNotAllowed "method must be POST for /insert/<table>" "POST")
  else if isPost then .error targetNotFound
  else if isGet then .error (.new .notFound "request target must be /ping, /ready, or /metrics")
  else .error (methodNotAllowed "method must be POST for / or /query or GET for /ping, /ready, or /metrics" "GET, POST")

def parseRequestLine (line : Bytes) (authenticatedInsertEnabled : Bool) : Exec RequestFailure RequestKind :=
  match line.splitOn (byte ' ') with
  | [method, target, version] => do
    rejectIf (method = [] ∨ target = [] ∨ version = []) (badRequest "malformed request line")
    rejectIf (version ≠ ascii "HTTP/1.1") (.new .httpVersionNotSupported "HTTP/1.1 is required")
    requestKind authenticatedInsertEnabled method target
  | _ => .error (badRequest "malformed request line")

/-! ## Header fields -/

/-- What the header fields that were read so far say. -/
structure HeaderFields where
  contentLength : Option Nat
  hostSeen : Bool
  transferEncodingSeen : Bool
  expectSeen : Bool
  authorization : Option Bytes
  duplicateAuthorization : Bool
  clickhouseUser : Option Bytes
  duplicateClickhouseUser : Bool
  clickhouseKey : Option Bytes
  duplicateClickhouseKey : Bool
  clickhouseFormat : Option Bytes
  duplicateClickhouseFormat : Bool
  clickhouseDatabase : Option Bytes
  duplicateClickhouseDatabase : Bool
  deriving DecidableEq

def HeaderFields.empty : HeaderFields :=
  ⟨none, false, false, false, none, false, none, false, none, false, none, false, none, false⟩

def requestBodyTooLong : RequestFailure := .new .payloadTooLarge "request body exceeds configured byte limit"

def parseContentLengthFrom (length : Nat) : Bytes → Exec RequestFailure Nat
  | [] => .ok length
  | b :: value => do
    let length ← getOr ((checkedMul length 10).bind fun length => checkedAdd length (b - byte '0').toNat)
      requestBodyTooLong
    parseContentLengthFrom length value

def parseContentLength (value : Bytes) : Exec RequestFailure Nat := do
  rejectIf (value = [] ∨ ¬ value.all isAsciiDigit) (badRequest "invalid Content-Length header")
  parseContentLengthFrom 0 value

def crlfRequired : RequestFailure := badRequest "HTTP headers require CRLF framing"

def malformedHeader : RequestFailure := badRequest "malformed HTTP header"

def strictHeaderLine (line : Bytes) (followedByLineFeed : Bool) : Exec RequestFailure Bytes :=
  if followedByLineFeed then getOr ([byte '\r'].isSuffixOf? line) crlfRequired
  else do
    rejectIf (byte '\r' ∈ line) malformedHeader
    .ok line

def isOptionalWhitespace (b : UInt8) : Bool := b = byte ' ' || b = byte '\t'

def trimOptionalWhitespace (value : Bytes) : Bytes :=
  (value.dropWhile isOptionalWhitespace).rdropWhile isOptionalWhitespace

def isHeaderNameByte (b : UInt8) : Bool := isAsciiAlphanumeric b || b ∈ ascii "!#$%&'*+-.^_\x60|~"

def isHeaderValueByte (b : UInt8) : Bool := b = byte '\t' || (byte ' ' ≤ b && b ≤ byte '~')

/-- The name of a header field, and its value without the white space around it. -/
def splitHeaderLine (line : Bytes) : Exec RequestFailure (Bytes × Bytes) := do
  let colon ← getOr (line.idxOf? (byte ':')) malformedHeader
  let name ← orPanic (slice line 0 colon)
  let value ← orPanic (slice line (colon + 1) line.length)
  let value := trimOptionalWhitespace value
  rejectIf (name = [] ∨ ¬ name.all isHeaderNameByte ∨ ¬ value.all isHeaderValueByte) malformedHeader
  .ok (name, value)

def recordContentLength (fields : HeaderFields) (value : Bytes) : Exec RequestFailure HeaderFields := do
  rejectIf (fields.contentLength.isSome = true) (badRequest "duplicate Content-Length header")
  let length ← parseContentLength value
  .ok { fields with contentLength := some length }

def recordHost (fields : HeaderFields) (value : Bytes) : Exec RequestFailure HeaderFields := do
  rejectIf (fields.hostSeen = true ∨ value = []) (badRequest "invalid Host header")
  .ok { fields with hostSeen := true }

/-- A field that may repeat keeps its last value. -/
def recordHeader (authentication : Authentication) (fields : HeaderFields) (name value : Bytes) :
    Exec RequestFailure HeaderFields :=
  if eqIgnoreCase name "content-length" then recordContentLength fields value
  else if eqIgnoreCase name "transfer-encoding" then .ok { fields with transferEncodingSeen := true }
  else if eqIgnoreCase name "expect" then .ok { fields with expectSeen := true }
  else if eqIgnoreCase name "host" then recordHost fields value
  else if authentication.takesAuthorization ∧ eqIgnoreCase name "authorization" then
    .ok { fields with
      authorization := some value
      duplicateAuthorization := fields.duplicateAuthorization || fields.authorization.isSome }
  else if authentication.takesUser ∧ eqIgnoreCase name "x-clickhouse-user" then
    .ok { fields with
      clickhouseUser := some value
      duplicateClickhouseUser := fields.duplicateClickhouseUser || fields.clickhouseUser.isSome }
  else if authentication.takesKey ∧ eqIgnoreCase name "x-clickhouse-key" then
    .ok { fields with
      clickhouseKey := some value
      duplicateClickhouseKey := fields.duplicateClickhouseKey || fields.clickhouseKey.isSome }
  else if eqIgnoreCase name "x-clickhouse-format" then
    .ok { fields with
      clickhouseFormat := some value
      duplicateClickhouseFormat := fields.duplicateClickhouseFormat || fields.clickhouseFormat.isSome }
  else if eqIgnoreCase name "x-clickhouse-database" then
    .ok { fields with
      clickhouseDatabase := some value
      duplicateClickhouseDatabase := fields.duplicateClickhouseDatabase || fields.clickhouseDatabase.isSome }
  else .ok fields

def tooManyHeaderFields : RequestFailure :=
  .new .requestHeaderFieldsTooLarge "request has too many header fields"

def parseHeaderLines (maxHeaderCount : Nat) (authentication : Authentication) (headerCount : Nat)
    (fields : HeaderFields) : List Bytes → Exec RequestFailure HeaderFields
  | [] => .ok fields
  | rawLine :: lines => do
    let line ← strictHeaderLine rawLine (lines ≠ [])
    let headerCount := saturatingAdd headerCount 1
    rejectIf (maxHeaderCount < headerCount) tooManyHeaderFields
    let (name, value) ← splitHeaderLine line
    let fields ← recordHeader authentication fields name value
    parseHeaderLines maxHeaderCount authentication headerCount fields lines

/-! ## Authentication -/

/-- Equality that looks at every byte. -/
def constantWorkEq (left right : Bytes) : Bool :=
  (List.range (max left.length right.length)).foldl
    (fun difference index => difference ||| (left.getD index 0 ^^^ right.getD index 0).toNat)
    (left.length ^^^ right.length) = 0

def isBearerTokenByte (b : UInt8) : Bool := isAsciiAlphanumeric b || b ∈ ascii "-._~+/"

def isValidBearerToken (token : Bytes) : Bool :=
  let unencoded := token.takeWhile (· ≠ byte '=')
  let padding := token.dropWhile (· ≠ byte '=')
  unencoded ≠ [] && unencoded.all isBearerTokenByte && padding.all (· = byte '=')

def parseBearerToken (value : Bytes) : Option Bytes :=
  if value.length ≤ 6 ∨ ¬ eqIgnoreCase (value.take 6) "Bearer" then none
  else
    let token := (value.drop 6).dropWhile (· = byte ' ')
    if token.length = (value.drop 6).length then none
    else if isValidBearerToken token then some token
    else none

def unauthorized (message scheme : String) : RequestFailure :=
  withHeaders .unauthorized message ["WWW-Authenticate: " ++ scheme ++ "\r\n"]

def principalRequired : RequestFailure :=
  unauthorized "X-ClickHouse-User and X-ClickHouse-Key authentication required" "X-ClickHouse-User, X-ClickHouse-Key"

def authenticate (authentication : Authentication) (fields : HeaderFields) (access : HttpAccess) :
    Exec RequestFailure HttpAccess :=
  match authentication with
  | .none => .ok access
  | .bearer expected => do
    let authorized := !fields.duplicateAuthorization &&
      ((fields.authorization.bind parseBearerToken).any fun provided => constantWorkEq provided expected)
    rejectIf (authorized = false) (unauthorized "bearer authentication required" "Bearer")
    .ok access
  | .clickHouseKey expected => do
    let keyMatches := fields.clickhouseKey.any fun provided => provided ≠ [] && constantWorkEq provided expected
    rejectIf (fields.duplicateClickhouseKey = true ∨ keyMatches = false)
      (unauthorized "X-ClickHouse-Key authentication required" "X-ClickHouse-Key")
    .ok access
  | .clickHousePrincipal user key => do
    let userMatches := constantWorkEq (fields.clickhouseUser.getD []) user
    let keyMatches := constantWorkEq (fields.clickhouseKey.getD []) key
    let authorized := userMatches && keyMatches && !fields.duplicateClickhouseUser && !fields.duplicateClickhouseKey
    rejectIf (authorized = false) principalRequired
    .ok access
  | .clickHousePrincipalSet principals => do
    let pairMatches (principal : ClickHousePrincipal) : Bool :=
      constantWorkEq (fields.clickhouseUser.getD []) (utf8 principal.user) &&
        constantWorkEq (fields.clickhouseKey.getD []) (utf8 principal.key)
    let readOnlyMatch := principals.any fun principal => principal.role = .readOnly && pairMatches principal
    let readWriteMatch := principals.any fun principal => principal.role = .readWrite && pairMatches principal
    let authorized := (readOnlyMatch || readWriteMatch) && !fields.duplicateClickhouseUser &&
      !fields.duplicateClickhouseKey
    rejectIf (authorized = false) principalRequired
    .ok (if readWriteMatch then .readWrite else .readOnly)

/-! ## Headers -/

namespace RequestKind

def isQuery : RequestKind → Bool
  | query _ => true
  | _ => false

def isTableInsert : RequestKind → Bool
  | tableInsert _ => true
  | _ => false

def isInsert : RequestKind → Bool
  | insert => true
  | kind => kind.isTableInsert

end RequestKind

def duplicateFormatHeader : RequestFailure := badRequest "duplicate X-ClickHouse-Format header"

def unsupportedFormatHeader : RequestFailure := badRequest "unsupported X-ClickHouse-Format header"

def headerResponseFormat (format : Bytes) : Exec RequestFailure QueryResponseFormat :=
  if format = ascii "CSV" then .ok .csv
  else if format = ascii "CSVWithNames" then .ok .csvWithNames
  else if format = ascii "TabSeparated" then .ok .tabSeparated
  else if format = ascii "TabSeparatedWithNames" then .ok .tabSeparatedWithNames
  else if format = ascii "JSONEachRow" then .ok .jsonEachRow
  else if format = ascii "JSONCompactEachRow" then .ok .jsonCompactEachRow
  else .error unsupportedFormatHeader

def selectedResponseFormat (kind : RequestKind) (fields : HeaderFields) :
    Exec RequestFailure (Option QueryResponseFormat) :=
  if kind.isQuery then do
    rejectIf (fields.duplicateClickhouseFormat = true) duplicateFormatHeader
    match fields.clickhouseFormat with
    | none => .ok none
    | some format => do
      let format ← headerResponseFormat format
      .ok (some format)
  else .ok none

def headerInsertFormat (format : Bytes) : Exec RequestFailure TableInsertFormat :=
  if format = ascii "CSVWithNames" then .ok .csvWithNames
  else if format = ascii "CSV" then .ok .csv
  else if format = ascii "TabSeparated" then .ok .tabSeparated
  else if format = ascii "TabSeparatedWithNames" then .ok .tabSeparatedWithNames
  else .error unsupportedFormatHeader

def selectedInsertFormat (kind : RequestKind) (fields : HeaderFields) : Exec RequestFailure TableInsertFormat :=
  if kind.isTableInsert then do
    rejectIf (fields.duplicateClickhouseFormat = true) duplicateFormatHeader
    match fields.clickhouseFormat with
    | none => .ok .csvWithNames
    | some format => headerInsertFormat format
  else .ok .csvWithNames

/-- The checks that come once all fields have been read, behind authentication. -/
def checkHeaders (kind : RequestKind) (fields : HeaderFields) (access : HttpAccess) : Exec RequestFailure Unit := do
  rejectIf (access.allowsInsert = false ∧ kind.isInsert = true) targetNotFound
  let takesDatabase := kind.isQuery || kind.isInsert
  rejectIf (takesDatabase = true ∧ fields.duplicateClickhouseDatabase = true)
    (badRequest "duplicate X-ClickHouse-Database header")
  rejectIf (takesDatabase = true ∧ fields.clickhouseDatabase.any (· ≠ ascii "default"))
    (badRequest "X-ClickHouse-Database header must be default")
  rejectIf (fields.transferEncodingSeen = true) (badRequest "Transfer-Encoding is not supported")
  rejectIf (fields.expectSeen = true) (.new .expectationFailed "Expect header is not supported")
  rejectIf (fields.hostSeen = false) (badRequest "Host header is required")

def terminator : Bytes := ascii "\r\n\r\n"

def parseHeaders (header : Bytes) (maxHeaderCount : Nat) (authentication : Authentication) (access : HttpAccess) :
    Exec RequestFailure (ParsedRequest × HttpAccess) := do
  let withoutTerminator ← getOr (terminator.isSuffixOf? header) (badRequest "malformed HTTP headers")
  match withoutTerminator.splitOn (byte '\n') with
  | [] => .error (badRequest "missing request line")
  | rawRequestLine :: lines => do
    let requestLine ← strictHeaderLine rawRequestLine (lines ≠ [])
    let kind ← parseRequestLine requestLine authentication.isConfigured
    let fields ← parseHeaderLines maxHeaderCount authentication 0 .empty lines
    let access ← authenticate authentication fields access
    checkHeaders kind fields access
    let responseFormat ← selectedResponseFormat kind fields
    let tableInsertFormat ← selectedInsertFormat kind fields
    .ok (⟨kind, fields.contentLength, responseFormat, tableInsertFormat⟩, access)

/-! ## Reading -/

section
variable {ι : Type}

def protocol {α : Type} (x : Exec RequestFailure α) : Method (Transport ι) (RequestReadError ι) α :=
  call (Exec.mapError .protocol x)

def readSome (count : Nat) : Method (Transport ι) (RequestReadError ι) Bytes :=
  Method.mapError .io (Transport.read count)

def headersTooLong : RequestFailure :=
  .new .requestHeaderFieldsTooLarge "request headers exceed configured byte limit"

/-- A carriage return and a line feed stand next to each other or not at all. -/
def breaksFraming (previous : Option UInt8) (b : UInt8) : Prop :=
  b = byte '\n' ∧ previous ≠ some (byte '\r') ∨ previous = some (byte '\r') ∧ b ≠ byte '\n'

instance (previous : Option UInt8) (b : UInt8) : Decidable (breaksFraming previous b) := by
  unfold breaksFraming
  infer_instance

def readHeaderFrom (maxHeaderBytes : Nat) (header : Bytes) : Method (Transport ι) (RequestReadError ι) Bytes := do
  match ← readSome 1 with
  | [] => protocol (.error (badRequest "request headers are incomplete"))
  | b :: _ =>
    if breaksFraming header.getLast? b then protocol (.error crlfRequired)
    else if terminator.isSuffixOf (header ++ [b]) then return header ++ [b]
    else if maxHeaderBytes ≤ header.length + 1 then protocol (.error headersTooLong)
    else readHeaderFrom maxHeaderBytes (header ++ [b])
termination_by maxHeaderBytes - header.length
decreasing_by
  rw [List.length_append, List.length_singleton]
  omega

def readHeaderBlock (maxHeaderBytes : Nat) : Method (Transport ι) (RequestReadError ι) Bytes :=
  if maxHeaderBytes = 0 then protocol (.error headersTooLong) else readHeaderFrom maxHeaderBytes []

def readBodyFrom (contentLength : Nat) (body : Bytes) : Method (Transport ι) (RequestReadError ι) Bytes :=
  if body.length < contentLength then do
    match ← readSome (contentLength - body.length) with
    | [] => protocol (.error (badRequest "request body is shorter than Content-Length"))
    | b :: bytes => readBodyFrom contentLength (body ++ b :: bytes)
  else return body
termination_by contentLength - body.length
decreasing_by
  rw [List.length_append, List.length_cons]
  omega

/-- The buffer is allocated first, and an allocation of more than a vector can hold panics. -/
def readBodyWithLength (contentLength : Nat) : Method (Transport ι) (RequestReadError ι) Bytes :=
  if contentLength ≤ isizeMax then readBodyFrom contentLength [] else call .panic

def boundedBodyLength (contentLength : Option Nat) (maxBodyBytes : Nat) : Exec RequestFailure Nat := do
  let contentLength ← getOr contentLength (.new .lengthRequired "Content-Length header is required")
  rejectIf (maxBodyBytes < contentLength) requestBodyTooLong
  .ok contentLength

def readBoundedBody (contentLength : Option Nat) (maxBodyBytes : Nat) :
    Method (Transport ι) (RequestReadError ι) Bytes := do
  let contentLength ← protocol (boundedBodyLength contentLength maxBodyBytes)
  readBodyWithLength contentLength

def readSqlBody (contentLength : Option Nat) (maxSqlBytes : Nat) :
    Method (Transport ι) (RequestReadError ι) String := do
  let body ← readBoundedBody contentLength maxSqlBytes
  protocol (getOr (fromUtf8 body) (badRequest "SQL body is not valid UTF-8"))

def readImportBody (format : String) (contentLength : Option Nat) (maxHttpBodyBytes maxBytes : Nat) :
    Method (Transport ι) (RequestReadError ι) Bytes := do
  let contentLength ← protocol (boundedBodyLength contentLength maxHttpBodyBytes)
  protocol (rejectIf (maxBytes < contentLength) (badRequest
    s!"database {format} ingestion failed: {format} input is {contentLength} bytes, exceeding the limit of {maxBytes} bytes"))
  readBodyWithLength contentLength

def readCsvBody (contentLength : Option Nat) (maxHttpBodyBytes : Nat) (csvLimits : CsvIngestLimits) :
    Method (Transport ι) (RequestReadError ι) Bytes :=
  readImportBody "CSV" contentLength maxHttpBodyBytes csvLimits.maxBytes

def readTsvBody (contentLength : Option Nat) (maxHttpBodyBytes : Nat) (tsvLimits : TsvIngestLimits) :
    Method (Transport ι) (RequestReadError ι) Bytes :=
  readImportBody "TSV" contentLength maxHttpBodyBytes tsvLimits.maxBytes

def readTableInsertBody (contentLength : Option Nat) (inputFormat : TableInsertFormat) (limits : HttpQueryLimits) :
    Method (Transport ι) (RequestReadError ι) Bytes :=
  match inputFormat with
  | .csv | .csvWithNames => readCsvBody contentLength limits.maxSqlBytes limits.csvIngestLimits
  | .tabSeparated | .tabSeparatedWithNames => readTsvBody contentLength limits.maxSqlBytes limits.tsvIngestLimits

/-! ## Classification -/

def trimEnd (text : List Char) : List Char := text.rdropWhile isWhitespace

def trim (text : List Char) : List Char := trimEnd (text.dropWhile isWhitespace)

/-- `str::split_whitespace`. -/
def splitWhitespace (text : List Char) : List (List Char) := (text.splitOnP isWhitespace).filter (· ≠ [])

def insertFormatOf (name : String) : Option TableInsertFormat :=
  [.csv, .csvWithNames, .tabSeparated, .tabSeparatedWithNames].find? fun format : TableInsertFormat =>
    eqIgnoreAsciiCase name format.name

def parseParameterizedTableInsert (sql : String) : Option (String × TableInsertFormat) :=
  let sql := trim sql.toList
  let sql := trimEnd (([';'].isSuffixOf? sql).getD sql)
  match (splitWhitespace sql).map String.ofList with
  | [insert, into, table, format, inputFormat] =>
    if ¬ eqIgnoreAsciiCase insert "INSERT" ∨ ¬ eqIgnoreAsciiCase into "INTO" ∨ ¬ eqIgnoreAsciiCase format "FORMAT" ∨
        validateTableName table ≠ .ok () then none
    else (insertFormatOf inputFormat).map fun inputFormat => (table, inputFormat)
  | _ => none

def combinedFormats (sqlFormat : QueryResponseFormat) : RequestFailure :=
  badRequest ("FORMAT " ++ sqlFormat.name ++
    " clause cannot be combined with X-ClickHouse-Format header or default_format parameter")

def isInsertStatement : Statement → Bool
  | .insert .. | .insertWithColumns .. => true
  | _ => false

/-- Whether the parser accepts a text with an INSERT statement. -/
def containsInsert (float : FloatText) (sql : String) : Exec RequestFailure Bool :=
  match Batch.parse float sql with
  | .ok statements => .ok (statements.any isInsertStatement)
  | .error _ => .ok false
  | .panic => .panic

def rejectCombinedFormats : Option QueryResponseFormat → Option QueryResponseFormat → Exec RequestFailure Unit
  | some sqlFormat, some _ => .error (combinedFormats sqlFormat)
  | _, _ => .ok ()

def routesToInsert (float : FloatText) (insertEnabled : Bool) (sql : String) : Exec RequestFailure Bool :=
  if insertEnabled then containsInsert float sql else .ok false

def classifyStandardQueryRequest (float : FloatText) (sql : String) (responseFormat : Option QueryResponseFormat)
    (workloadLimits : ParameterizedWorkloadLimits) (insertEnabled : Bool) : Exec RequestFailure HttpRequest := do
  let (sql, sqlFormat) ← takeTerminalQueryFormat sql
  rejectCombinedFormats sqlFormat responseFormat
  let insert ← routesToInsert float (insertEnabled && sqlFormat.isNone) sql
  .ok (if insert then .insert sql else .query sql ((sqlFormat.or responseFormat).getD .json) workloadLimits)

/-! ## The request -/

def rejectBody (contentLength : Option Nat) (message : String) : Exec RequestFailure Unit :=
  rejectIf (contentLength.getD 0 ≠ 0) (badRequest message)

def combinedResponseFormat : Option QueryResponseFormat → Option QueryResponseFormat →
    Exec RequestFailure (Option QueryResponseFormat)
  | some _, some _ =>
    .error (badRequest "default_format parameter cannot be combined with X-ClickHouse-Format header")
  | some format, none | none, some format => .ok (some format)
  | none, none => .ok none

def readStandardQuery (float : FloatText) (limits : HttpQueryLimits) (request : ParsedRequest) (access : HttpAccess) :
    Method (Transport ι) (RequestReadError ι) HttpRequest := do
  let sql ← readSqlBody request.contentLength limits.maxSqlBytes
  protocol (classifyStandardQueryRequest float sql request.responseFormat .default
    (access.allowsInsert && request.responseFormat.isNone))

def parameterizedImport (method : ParameterizedQueryMethod) (access : HttpAccess) (sql : String) :
    Option (String × TableInsertFormat) :=
  if method = .post ∧ access.allowsInsert then parseParameterizedTableInsert sql else none

def readParameterizedQuery (float : FloatText) (limits : HttpQueryLimits) (request : ParsedRequest)
    (access : HttpAccess) (encodedParameters : Bytes) (method : ParameterizedQueryMethod) :
    Method (Transport ι) (RequestReadError ι) HttpRequest := do
  let decoded ← protocol (decodeQueryParameters encodedParameters method limits.maxSqlBytes)
  let access := access.tightenForRequest decoded.readonly
  let outputFormatSelected := request.responseFormat.isSome || decoded.responseFormat.isSome
  let responseFormat ← protocol (combinedResponseFormat request.responseFormat decoded.responseFormat)
  let sql ← protocol (getOr (fromUtf8 decoded.sql) (badRequest "SQL query is not valid UTF-8"))
  match parameterizedImport method access sql with
  | some (table, inputFormat) => do
    protocol (rejectIf (outputFormatSelected = true) (badRequest inputFormat.outputSelectorRejectionMessage))
    let body ← readTableInsertBody request.contentLength inputFormat limits
    return .tableInsert table body inputFormat
  | none => do
    protocol (rejectBody request.contentLength method.bodyRejectionMessage)
    protocol (classifyStandardQueryRequest float sql responseFormat decoded.workloadLimits
      (access.allowsInsert && (method = .post) && !outputFormatSelected))

def readByKind (float : FloatText) (limits : HttpQueryLimits) (request : ParsedRequest) (access : HttpAccess) :
    Method (Transport ι) (RequestReadError ι) HttpRequest :=
  match request.kind with
  | .ping => do
    protocol (rejectBody request.contentLength "GET /ping does not accept a request body")
    return .ping
  | .ready => do
    protocol (rejectBody request.contentLength "GET /ready does not accept a request body")
    return .ready
  | .metrics => do
    protocol (rejectBody request.contentLength "GET /metrics does not accept a request body")
    return .metrics
  | .query .body => readStandardQuery float limits request access
  | .insert => do
    let sql ← readSqlBody request.contentLength limits.maxSqlBytes
    return .insert sql
  | .tableInsert table => do
    let body ← readTableInsertBody request.contentLength request.tableInsertFormat limits
    return .tableInsert table body request.tableInsertFormat
  | .query (.urlEncodedParameters encodedParameters method) =>
    readParameterizedQuery float limits request access encodedParameters method

def readRequest (float : FloatText) (limits : HttpQueryLimits) (authentication : Authentication)
    (access : HttpAccess) : Method (Transport ι) (RequestReadError ι) HttpRequest := do
  let header ← readHeaderBlock limits.maxHeaderBytes
  let (request, access) ← protocol (parseHeaders header limits.maxHeaderCount authentication access)
  readByKind float limits request access

end

end RustHouse.Http
