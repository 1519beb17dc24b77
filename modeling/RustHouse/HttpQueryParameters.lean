import RustHouse.Delimited
import RustHouse.Exec

/-!
# Parameters of a query target

What stands behind `/?` in a request target: names and values of parameters, in
the encoding of web forms. Each parameter has a slot of its own, which may be
filled once.
-/

namespace RustHouse.Http

open Checked Exec Words

/-! ## Failures -/

structure Status where
  code : Nat
  reason : String
  deriving DecidableEq, Repr

namespace Status

def ok : Status := ⟨200, "OK"⟩
def badRequest : Status := ⟨400, "Bad Request"⟩
def unauthorized : Status := ⟨401, "Unauthorized"⟩
def notFound : Status := ⟨404, "Not Found"⟩
def methodNotAllowed : Status := ⟨405, "Method Not Allowed"⟩
def lengthRequired : Status := ⟨411, "Length Required"⟩
def payloadTooLarge : Status := ⟨413, "Payload Too Large"⟩
def expectationFailed : Status := ⟨417, "Expectation Failed"⟩
def requestHeaderFieldsTooLarge : Status := ⟨431, "Request Header Fields Too Large"⟩
def internalServerError : Status := ⟨500, "Internal Server Error"⟩
def serviceUnavailable : Status := ⟨503, "Service Unavailable"⟩
def httpVersionNotSupported : Status := ⟨505, "HTTP Version Not Supported"⟩

end Status

structure RequestFailure where
  status : Status
  message : String
  extraHeaders : List Bytes
  deriving DecidableEq, Repr

def RequestFailure.new (status : Status) (message : String) : RequestFailure := ⟨status, message, []⟩

/-! ## Parameters -/

inductive ParameterizedQueryMethod where
  | get | post
  deriving DecidableEq, Repr

namespace ParameterizedQueryMethod

def name : ParameterizedQueryMethod → String
  | get => "GET"
  | post => "POST"

def bodyRejectionMessage (method : ParameterizedQueryMethod) : String :=
  method.name ++ " /?query= does not accept a request body"

def emptyParameterMessage (method : ParameterizedQueryMethod) : String :=
  method.name ++ " query parameters must have nonempty names and values"

def unknownParameterMessage (method : ParameterizedQueryMethod) : String :=
  method.name ++ " query target contains an unknown parameter"

def missingQueryMessage (method : ParameterizedQueryMethod) : String :=
  method.name ++ " query target must contain exactly one query parameter"

end ParameterizedQueryMethod

inductive QueryResponseFormat where
  | json | csv | csvWithNames | tabSeparated | tabSeparatedWithNames | jsonEachRow | jsonCompactEachRow
  deriving DecidableEq, Repr

def QueryResponseFormat.name : QueryResponseFormat → String
  | .json => "JSON"
  | .csv => "CSV"
  | .csvWithNames => "CSVWithNames"
  | .tabSeparated => "TabSeparated"
  | .tabSeparatedWithNames => "TabSeparatedWithNames"
  | .jsonEachRow => "JSONEachRow"
  | .jsonCompactEachRow => "JSONCompactEachRow"

inductive WorkloadLimit where
  | maxResultBytes | maxResultRows | maxResultValues | maxRowsToRead | maxRowsToGroupBy | maxGroupKeyCells
  | maxGroupKeyBytes | maxOrderingStateBytes | maxAggregateStateCells | maxAggregateStateBytes | maxThreads
  deriving DecidableEq, Repr

def WorkloadLimit.name : WorkloadLimit → String
  | maxResultBytes => "max_result_bytes"
  | maxResultRows => "max_result_rows"
  | maxResultValues => "max_result_values"
  | maxRowsToRead => "max_rows_to_read"
  | maxRowsToGroupBy => "max_rows_to_group_by"
  | maxGroupKeyCells => "max_group_key_cells"
  | maxGroupKeyBytes => "max_group_key_bytes"
  | maxOrderingStateBytes => "max_ordering_state_bytes"
  | maxAggregateStateCells => "max_aggregate_state_cells"
  | maxAggregateStateBytes => "max_aggregate_state_bytes"
  | maxThreads => "max_threads"

structure ParameterizedWorkloadLimits where
  maxResultBytes : Option Nat
  maxResultRows : Option Nat
  maxResultValues : Option Nat
  maxRowsToRead : Option Nat
  maxRowsToGroupBy : Option Nat
  maxGroupKeyCells : Option Nat
  maxGroupKeyBytes : Option Nat
  maxOrderingStateBytes : Option Nat
  maxAggregateStateCells : Option Nat
  maxAggregateStateBytes : Option Nat
  maxThreads : Option Nat
  deriving DecidableEq, Repr

namespace ParameterizedWorkloadLimits

def default : ParameterizedWorkloadLimits := ⟨none, none, none, none, none, none, none, none, none, none, none⟩

def get (limits : ParameterizedWorkloadLimits) : WorkloadLimit → Option Nat
  | .maxResultBytes => limits.maxResultBytes
  | .maxResultRows => limits.maxResultRows
  | .maxResultValues => limits.maxResultValues
  | .maxRowsToRead => limits.maxRowsToRead
  | .maxRowsToGroupBy => limits.maxRowsToGroupBy
  | .maxGroupKeyCells => limits.maxGroupKeyCells
  | .maxGroupKeyBytes => limits.maxGroupKeyBytes
  | .maxOrderingStateBytes => limits.maxOrderingStateBytes
  | .maxAggregateStateCells => limits.maxAggregateStateCells
  | .maxAggregateStateBytes => limits.maxAggregateStateBytes
  | .maxThreads => limits.maxThreads

def set (limits : ParameterizedWorkloadLimits) (limit : WorkloadLimit) (value : Nat) : ParameterizedWorkloadLimits :=
  match limit with
  | .maxResultBytes => { limits with maxResultBytes := some value }
  | .maxResultRows => { limits with maxResultRows := some value }
  | .maxResultValues => { limits with maxResultValues := some value }
  | .maxRowsToRead => { limits with maxRowsToRead := some value }
  | .maxRowsToGroupBy => { limits with maxRowsToGroupBy := some value }
  | .maxGroupKeyCells => { limits with maxGroupKeyCells := some value }
  | .maxGroupKeyBytes => { limits with maxGroupKeyBytes := some value }
  | .maxOrderingStateBytes => { limits with maxOrderingStateBytes := some value }
  | .maxAggregateStateCells => { limits with maxAggregateStateCells := some value }
  | .maxAggregateStateBytes => { limits with maxAggregateStateBytes := some value }
  | .maxThreads => { limits with maxThreads := some value }

end ParameterizedWorkloadLimits

structure DecodedQuery where
  sql : Bytes
  responseFormat : Option QueryResponseFormat
  workloadLimits : ParameterizedWorkloadLimits
  readonly : Option Bool
  deriving DecidableEq, Repr

inductive Parameter where
  | query | database | defaultFormat
  | limit (limit : WorkloadLimit)
  | readonly
  deriving DecidableEq, Repr

def Parameter.name : Parameter → String
  | .query => "query"
  | .database => "database"
  | .defaultFormat => "default_format"
  | .limit workloadLimit => workloadLimit.name
  | .readonly => "readonly"

/-- In the order of the arms. -/
def Parameter.all : List Parameter :=
  [.query, .database, .defaultFormat, .limit .maxResultRows, .limit .maxResultBytes, .limit .maxResultValues,
    .limit .maxRowsToRead, .limit .maxRowsToGroupBy, .limit .maxGroupKeyCells, .limit .maxGroupKeyBytes,
    .limit .maxOrderingStateBytes, .limit .maxAggregateStateCells, .limit .maxAggregateStateBytes, .limit .maxThreads,
    .readonly]

def Parameter.ofName (name : Bytes) : Option Parameter := Parameter.all.find? fun parameter => ascii parameter.name = name

/-! ## Decoding -/

def byte (c : Char) : UInt8 := .ofNat c.toNat

def isAsciiDigit (b : UInt8) : Bool := byte '0' ≤ b && b ≤ byte '9'

def decodeHexDigit (b : UInt8) : Option UInt8 :=
  if byte '0' ≤ b ∧ b ≤ byte '9' then some (b - byte '0')
  else if byte 'a' ≤ b ∧ b ≤ byte 'f' then some (b - byte 'a' + 10)
  else if byte 'A' ≤ b ∧ b ≤ byte 'F' then some (b - byte 'A' + 10)
  else none

def malformedPercent : RequestFailure := .new .badRequest "query parameter contains malformed percent encoding"

def sqlTooLong : RequestFailure := .new .payloadTooLarge "SQL query exceeds configured byte limit"

/-- The byte that is encoded at an index, and how many bytes of it come behind the first one. -/
def decodeByte (encoded : Bytes) (index : Nat) : Exec RequestFailure (UInt8 × Nat) := do
  let first ← orPanic encoded[index]?
  if first = byte '+' then .ok (byte ' ', 0)
  else if first = byte '%' then do
    let hex ← getOr (slice encoded (index + 1) (index + 3)) malformedPercent
    let high ← orPanic hex[0]?
    let high ← getOr (decodeHexDigit high) malformedPercent
    let low ← orPanic hex[1]?
    let low ← getOr (decodeHexDigit low) malformedPercent
    .ok (high <<< 4 ||| low, 2)
  else .ok (first, 0)

def decodeFormFrom (encoded : Bytes) (maxDecodedBytes : Option Nat) (index : Nat) (decoded : Bytes) :
    Exec RequestFailure Bytes :=
  if index < encoded.length then do
    let (next, behind) ← decodeByte encoded index
    rejectIf (maxDecodedBytes = some decoded.length) sqlTooLong
    decodeFormFrom encoded maxDecodedBytes (index + behind + 1) (decoded ++ [next])
  else .ok decoded
termination_by encoded.length - index

def decodeFormComponent (encoded : Bytes) (maxDecodedBytes : Option Nat) : Exec RequestFailure Bytes :=
  decodeFormFrom encoded maxDecodedBytes 0 []

def parseDecimalFrom (malformedMessage overflowMessage : String) (parsed : Nat) : Bytes → Exec RequestFailure Nat
  | [] => .ok parsed
  | b :: value => do
    rejectIf (isAsciiDigit b = false) (.new .badRequest malformedMessage)
    let parsed ← getOr ((checkedMul parsed 10).bind fun parsed => checkedAdd parsed (b - byte '0').toNat)
      (.new .badRequest overflowMessage)
    parseDecimalFrom malformedMessage overflowMessage parsed value

def parseDecimalParameter (value : Bytes) (malformedMessage overflowMessage : String) : Exec RequestFailure Nat :=
  parseDecimalFrom malformedMessage overflowMessage 0 value

def WorkloadLimit.parseDecimal (limit : WorkloadLimit) (value : Bytes) : Exec RequestFailure Nat :=
  parseDecimalParameter value (limit.name ++ " parameter must be a decimal integer")
    (limit.name ++ " parameter is out of range")

def parseDecimalReadonly (value : Bytes) : Exec RequestFailure Bool := do
  let parsed ← parseDecimalParameter value "readonly parameter must be a decimal integer"
    "readonly parameter must be 0 or 1"
  match parsed with
  | 0 => .ok false
  | 1 => .ok true
  | _ => .error (.new .badRequest "readonly parameter must be 0 or 1")

def parseDefaultFormat (value : Bytes) : Exec RequestFailure QueryResponseFormat :=
  if value = ascii "JSON" then .ok .json
  else if value = ascii "CSV" then .ok .csv
  else if value = ascii "CSVWithNames" then .ok .csvWithNames
  else if value = ascii "TabSeparated" then .ok .tabSeparated
  else if value = ascii "TabSeparatedWithNames" then .ok .tabSeparatedWithNames
  else if value = ascii "JSONEachRow" then .ok .jsonEachRow
  else if value = ascii "JSONCompactEachRow" then .ok .jsonCompactEachRow
  else .error (.new .badRequest "unsupported default_format parameter")

/-! ## Slots -/

structure QuerySlots where
  query : Option Bytes
  databaseSeen : Bool
  responseFormat : Option QueryResponseFormat
  workloadLimits : ParameterizedWorkloadLimits
  readonly : Option Bool
  deriving DecidableEq, Repr

def QuerySlots.empty : QuerySlots := ⟨none, false, none, .default, none⟩

def duplicateMessage (parameter : Parameter) : String := "duplicate " ++ parameter.name ++ " parameter"

def fillSlot {α : Type} (parameter : Parameter) (slot : Option α) (value : Exec RequestFailure α) :
    Exec RequestFailure α := do
  rejectIf (slot.isSome = true) (.new .badRequest (duplicateMessage parameter))
  value

def decodeParameter (method : ParameterizedQueryMethod) (maxSqlBytes : Nat) (slots : QuerySlots)
    (name encodedValue : Bytes) : Exec RequestFailure QuerySlots :=
  match Parameter.ofName name with
  | some .query => do
    let query ← fillSlot .query slots.query (decodeFormComponent encodedValue (some maxSqlBytes))
    .ok { slots with query := some query }
  | some .database => do
    rejectIf (slots.databaseSeen = true) (.new .badRequest (duplicateMessage .database))
    let value ← decodeFormComponent encodedValue none
    rejectIf (value ≠ ascii "default") (.new .badRequest "database query parameter must be default")
    .ok { slots with databaseSeen := true }
  | some .defaultFormat => do
    let format ← fillSlot .defaultFormat slots.responseFormat do
      let value ← decodeFormComponent encodedValue none
      parseDefaultFormat value
    .ok { slots with responseFormat := some format }
  | some (.limit limit) => do
    let value ← fillSlot (.limit limit) (slots.workloadLimits.get limit) do
      let value ← decodeFormComponent encodedValue none
      limit.parseDecimal value
    .ok { slots with workloadLimits := slots.workloadLimits.set limit value }
  | some .readonly => do
    let readonly ← fillSlot .readonly slots.readonly do
      let value ← decodeFormComponent encodedValue none
      parseDecimalReadonly value
    .ok { slots with readonly := some readonly }
  | none => .error (.new .badRequest method.unknownParameterMessage)

def decodeEncodedParameter (method : ParameterizedQueryMethod) (maxSqlBytes : Nat) (slots : QuerySlots)
    (encodedParameter : Bytes) : Exec RequestFailure QuerySlots := do
  let empty := RequestFailure.new .badRequest method.emptyParameterMessage
  let equals ← getOr (encodedParameter.idxOf? (byte '=')) empty
  let encodedName ← orPanic (slice encodedParameter 0 equals)
  let encodedValue ← orPanic (slice encodedParameter (equals + 1) encodedParameter.length)
  rejectIf (encodedName = [] ∨ encodedValue = []) empty
  let name ← decodeFormComponent encodedName none
  decodeParameter method maxSqlBytes slots name encodedValue

def decodeQueryParameters (encodedParameters : Bytes) (method : ParameterizedQueryMethod) (maxSqlBytes : Nat) :
    Exec RequestFailure DecodedQuery := do
  let slots ← (encodedParameters.splitOn (byte '&')).foldlM (decodeEncodedParameter method maxSqlBytes) .empty
  let sql ← getOr slots.query (.new .badRequest method.missingQueryMessage)
  .ok ⟨sql, slots.responseFormat, slots.workloadLimits, slots.readonly⟩

end RustHouse.Http
