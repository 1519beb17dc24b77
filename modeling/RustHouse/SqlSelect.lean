import RustHouse.SqlPredicate

/-!
# The parser of SELECT

Select items, group and order keys, and the two forms of a `SELECT`. The word
after `SELECT` is tried as `DISTINCT` first and read as a column if that fails.
-/

namespace RustHouse.Batch

def AggregateFunction.name : AggregateFunction → String
  | count => "COUNT"
  | countIf => "countIf"
  | sum => "SUM"
  | min => "MIN"
  | max => "MAX"
  | avg => "AVG"

def AggregateFunction.parse (name : String) : Option AggregateFunction :=
  if eqIgnoreAsciiCase name "COUNT" then some .count
  else if eqIgnoreAsciiCase name "COUNTIF" then some .countIf
  else if eqIgnoreAsciiCase name "SUM" then some .sum
  else if eqIgnoreAsciiCase name "MIN" then some .min
  else if eqIgnoreAsciiCase name "MAX" then some .max
  else if eqIgnoreAsciiCase name "AVG" then some .avg
  else none

def SelectItem.isRowNumber : SelectItem → Bool
  | rowNumber .. => true
  | _ => false

def SelectItem.isAggregate : SelectItem → Bool
  | aggregate .. => true
  | _ => false

/-- What is wrong with a `ROW_NUMBER` projection in a query. -/
def rowNumberShapeMessage (select : Select) : Option String :=
  if ¬ select.items.any SelectItem.isRowNumber then none
  else if select.distinct then some "ROW_NUMBER() OVER () is not supported with DISTINCT"
  else if select.groupBy ≠ [] ∨ select.having.isSome then
    some "ROW_NUMBER() OVER () is only supported in ungrouped SELECT queries"
  else if select.items.any SelectItem.isAggregate then
    some "ROW_NUMBER() OVER () cannot be combined with aggregate projections"
  else if select.orderBy ≠ [] then some "ROW_NUMBER() OVER () cannot be combined with ORDER BY"
  else none

def offsetShapeMessage (select : Select) : Option String :=
  if select.offset.isNone then none
  else if select.items.any SelectItem.isRowNumber then some "OFFSET is not supported for ROW_NUMBER projections"
  else none

/-- A pagination, and where its offset would stand. -/
structure Pagination where
  limit : Option Nat
  offset : Option Nat
  offsetPosition : Nat

namespace Parse

/-- A token of that kind is next, and stepped over; looked at only under a condition. -/
def eatWhen (condition : Bool) (expected : TokenKind) : Parse Bool := if condition then eat expected else return false

def validateShape (position : Nat) : Option String → Parse Unit
  | some message => failAt position message
  | none => return ()

/-! ## Select items -/

def parseColumnCastTargetType : Parse DataType := do
  let position ← position
  let typeName ← expectIdentifier "target type in CAST"
  okOrAt position s!"unknown CAST target type '{typeName}'; expected Int64, Float64, Bool, or String"
    (DataType.parse typeName)

/-- The direction of a `ROW_NUMBER` ordering, which has to be given. -/
def parseWindowDirection : Parse Bool := do
  if ← eatKeyword "ASC" then return false
  else if ← eatKeyword "DESC" then return true
  else error "expected ASC or DESC after the ROW_NUMBER ORDER BY column"

def parseWindowOrder : Parse (Option OrderBy) := do
  if ← eat .rightParen then return none
  else
    expectKeyword "ORDER"
    expectKeyword "BY"
    let name ← expectIdentifier "Int64 column in ROW_NUMBER ORDER BY"
    let descending ← parseWindowDirection
    expect .rightParen "')' after the ROW_NUMBER window ordering"
    return some ⟨name, descending⟩

def parseRowNumber : Parse SelectItem := do
  expect .rightParen "')' after the empty ROW_NUMBER argument list"
  expectKeyword "OVER"
  expect .leftParen "'(' after OVER"
  let orderBy ← parseWindowOrder
  return .rowNumber orderBy (← parseAlias)

def parseCastItem : Parse SelectItem := do
  let name ← expectIdentifier "column in CAST"
  expectKeyword "AS"
  let targetType ← parseColumnCastTargetType
  expect .rightParen "')' after CAST expression"
  return .cast name targetType (← parseAlias)

def parseIfNullItem : Parse SelectItem := do
  let name ← expectIdentifier "Nullable(Int64) column in ifNull"
  expect .comma "',' after the ifNull column"
  let fallback ← parseSignedInt64Literal "ifNull fallback"
  expect .rightParen "')' after ifNull expression"
  return .ifNullInt64 name fallback (← parseAlias)

/-- A function of one column: its argument, a closing parenthesis and an alias. -/
def parseUnaryItem (item : String → Option String → SelectItem) (argument closing : String) : Parse SelectItem := do
  let name ← expectIdentifier argument
  expect .rightParen closing
  return item name (← parseAlias)

def parseAggregateArgument (function : AggregateFunction) : Parse AggregateArgument := do
  if ← eat .star then return .wildcard
  else
    let atParen ← peekIs (isToken .rightParen)
    if function = .count ∧ atParen then return .empty
    else return .column (← expectIdentifier "aggregate column")

def parseAggregateItem (position : Nat) (name : String) : Parse SelectItem := do
  let function ← okOrAt position s!"unknown aggregate function '{name}'" (AggregateFunction.parse name)
  let argument ← parseAggregateArgument function
  expect .rightParen "')' after aggregate argument"
  return .aggregate function argument (← parseAlias)

def parseCallItem (position : Nat) (name : String) : Parse SelectItem :=
  if eqIgnoreAsciiCase name "ROW_NUMBER" then parseRowNumber
  else if eqIgnoreAsciiCase name "CAST" then parseCastItem
  else if eqIgnoreAsciiCase name "toString" then
    parseUnaryItem .toString "column in toString" "')' after toString expression"
  else if eqIgnoreAsciiCase name "ifNull" then parseIfNullItem
  else if eqIgnoreAsciiCase name "isNull" then
    parseUnaryItem .isNull "column in isNull" "')' after isNull expression"
  else if eqIgnoreAsciiCase name "isNotNull" then
    parseUnaryItem .isNotNull "column in isNotNull" "')' after isNotNull expression"
  else if eqIgnoreAsciiCase name "LENGTH" then
    parseUnaryItem .length "String column in LENGTH" "')' after LENGTH expression"
  else if eqIgnoreAsciiCase name "lengthUTF8" then
    parseUnaryItem .lengthUtf8 "String column in lengthUTF8" "')' after lengthUTF8 expression"
  else if eqIgnoreAsciiCase name "empty" then
    parseUnaryItem .empty "String column in empty" "')' after empty expression"
  else if eqIgnoreAsciiCase name "LOWER" then
    parseUnaryItem .lower "String column in LOWER" "')' after LOWER expression"
  else if eqIgnoreAsciiCase name "UPPER" then
    parseUnaryItem .upper "String column in UPPER" "')' after UPPER expression"
  else if eqIgnoreAsciiCase name "ABS" then
    parseUnaryItem .abs "numeric column in ABS" "')' after ABS expression"
  else if eqIgnoreAsciiCase name "ROUND" then
    parseUnaryItem .round "Float64 column in ROUND" "')' after ROUND expression"
  else if eqIgnoreAsciiCase name "FLOOR" then
    parseUnaryItem .floor "Float64 column in FLOOR" "')' after FLOOR expression"
  else if eqIgnoreAsciiCase name "CEIL" then
    parseUnaryItem .ceil "Float64 column in CEIL" "')' after CEIL expression"
  else parseAggregateItem position name

def parseSelectItem : Parse SelectItem := do
  if ← eat .star then return .wildcard
  else
    let position ← position
    let name ← expectIdentifier "column or aggregate function"
    if ← eat .leftParen then parseCallItem position name
    else if ← eat .minus then
      let literal ← parseSignedInt64Literal "subtraction expression"
      return .int64Subtract name literal (← parseAlias)
    else return .column name (← parseAlias)

/-! ## Keys -/

/-- The name of a function of one column in `ORDER BY`, behind the opening parenthesis. -/
def orderByFunction (render : String → String) (argument closing : String) : Parse String := do
  let name ← expectIdentifier argument
  expect .rightParen closing
  return render name

def orderByCast : Parse String := do
  let argument ← expectIdentifier "column in ORDER BY CAST"
  expectKeyword "AS"
  let targetType ← parseColumnCastTargetType
  expect .rightParen "')' after ORDER BY CAST expression"
  return "CAST(" ++ argument ++ " AS " ++ targetType.asStr ++ ")"

def orderByIfNull : Parse String := do
  let argument ← expectIdentifier "Nullable(Int64) column in ORDER BY ifNull"
  expect .comma "',' after the ORDER BY ifNull column"
  let fallback ← parseSignedInt64Literal "ORDER BY ifNull fallback"
  expect .rightParen "')' after ORDER BY ifNull expression"
  return ifNullInt64Name argument fallback

/-- The function that a name can be where a parenthesis follows it. -/
def orderByCall (name : String) : Option (Parse String) :=
  if eqIgnoreAsciiCase name "LENGTH" then
    some (orderByFunction (fun argument => s!"LENGTH({argument})") "String column in ORDER BY LENGTH"
      "')' after ORDER BY LENGTH expression")
  else if eqIgnoreAsciiCase name "lengthUTF8" then
    some (orderByFunction (fun argument => s!"lengthUTF8({argument})") "String column in ORDER BY lengthUTF8"
      "')' after ORDER BY lengthUTF8 expression")
  else if eqIgnoreAsciiCase name "empty" then
    some (orderByFunction (fun argument => s!"empty({argument})") "String column in ORDER BY empty"
      "')' after ORDER BY empty expression")
  else if eqIgnoreAsciiCase name "LOWER" then
    some (orderByFunction (fun argument => s!"LOWER({argument})") "String column in ORDER BY LOWER"
      "')' after ORDER BY LOWER expression")
  else if eqIgnoreAsciiCase name "UPPER" then
    some (orderByFunction (fun argument => s!"UPPER({argument})") "String column in ORDER BY UPPER"
      "')' after ORDER BY UPPER expression")
  else if eqIgnoreAsciiCase name "ABS" then
    some (orderByFunction (fun argument => s!"ABS({argument})") "numeric column in ORDER BY ABS"
      "')' after ORDER BY ABS expression")
  else if eqIgnoreAsciiCase name "ROUND" then
    some (orderByFunction (fun argument => s!"ROUND({argument})") "Float64 column in ORDER BY ROUND"
      "')' after ORDER BY ROUND expression")
  else if eqIgnoreAsciiCase name "FLOOR" then
    some (orderByFunction (fun argument => s!"FLOOR({argument})") "Float64 column in ORDER BY FLOOR"
      "')' after ORDER BY FLOOR expression")
  else if eqIgnoreAsciiCase name "CEIL" then
    some (orderByFunction (fun argument => s!"CEIL({argument})") "Float64 column in ORDER BY CEIL"
      "')' after ORDER BY CEIL expression")
  else if eqIgnoreAsciiCase name "CAST" then some orderByCast
  else if eqIgnoreAsciiCase name "toString" then
    some (orderByFunction (fun argument => s!"toString({argument})") "column in ORDER BY toString"
      "')' after ORDER BY toString expression")
  else if eqIgnoreAsciiCase name "ifNull" then some orderByIfNull
  else if eqIgnoreAsciiCase name "isNull" then
    some (orderByFunction isNullName "column in ORDER BY isNull" "')' after ORDER BY isNull expression")
  else if eqIgnoreAsciiCase name "isNotNull" then
    some (orderByFunction isNotNullName "column in ORDER BY isNotNull" "')' after ORDER BY isNotNull expression")
  else none

/-- The call of a function by its name, if a parenthesis follows; else the name is a column or an alias. -/
def parseOrderByCall (name : String) : Option (Parse String) → Parse String
  | some call => do if ← eat .leftParen then call else return name
  | none => return name

def parseOrderByName : Parse String := do
  let name ← expectIdentifier "ORDER BY output column, expression, or alias"
  if ← eat .minus then
    let literal ← parseSignedInt64Literal "ORDER BY subtraction expression"
    return int64SubtractionName name literal
  else parseOrderByCall name (orderByCall name)

def parseGroupByExpr : Parse String := do
  let expression ← expectIdentifier "GROUP BY column or CAST expression"
  if ← eatWhen (eqIgnoreAsciiCase expression "CAST") .leftParen then
    let name ← expectIdentifier "column in GROUP BY CAST"
    expectKeyword "AS"
    let targetType ← parseColumnCastTargetType
    expect .rightParen "')' after GROUP BY CAST expression"
    return "CAST(" ++ name ++ " AS " ++ targetType.asStr ++ ")"
  else return expression

/-- `DESC`, or an optional `ASC`. -/
def parseDirection : Parse Bool := do
  if ← eatKeyword "DESC" then return true
  else
    let _ ← eatKeyword "ASC"
    return false

/-- One more item of a list that the limits bound. -/
def reserved {α : Type} (item : Parse α) : Parse α := do
  reserveAstListItem
  item

def parseOrderByItem (parseName : Parse String) : Parse OrderBy := do
  let name ← parseName
  return ⟨name, ← parseDirection⟩

def parseKeys {α : Type} (keyword : String) (item : Parse α) : Parse (List α) := do
  if ← eatKeyword keyword then
    expectKeyword "BY"
    commaSeparated (reserved item)
  else return []

/-! ## Pagination -/

def parsePaginationValue (number : String) (position : Nat) (name : String) : Parse Nat :=
  okOrAt position s!"invalid {name} '{number}'" (parseUsize number)

def parseOffset : Parse (Option Nat) := do
  if ← eatKeyword "OFFSET" then
    let position ← position
    let number ← okOrAt position "expected a non-negative integer after OFFSET" (← takeNumber)
    return some (← parsePaginationValue number position "OFFSET")
  else return none

def parsePagination : Parse Pagination := do
  if ← eatKeyword "LIMIT" then
    let firstPosition ← position
    let first ← okOrAt firstPosition "expected a non-negative integer after LIMIT" (← takeNumber)
    let offsetPosition ← position
    if ← eat .comma then
      let countPosition ← position
      let count ← okOrAt countPosition "expected a non-negative count after ',' in LIMIT" (← takeNumber)
      let offset ← parsePaginationValue first firstPosition "OFFSET"
      let limit ← parsePaginationValue count countPosition "LIMIT"
      return ⟨some limit, some offset, offsetPosition⟩
    else
      let limit ← parsePaginationValue first firstPosition "LIMIT"
      let offset ← parseOffset
      return ⟨some limit, offset, offsetPosition⟩
  else return ⟨none, none, ← position⟩

/-! ## Queries -/

section
variable (float : FloatText)

def parseHavingPredicate : Parse HavingPredicate := do
  if ← eatKeyword "IS" then
    let isNotNull ← eatKeyword "NOT"
    expectKeyword "NULL"
    return if isNotNull then .isNotNull else .isNull
  else
    let operator ← parseComparisonOperator
    return .comparison operator (← parseHavingThreshold float)

def parseHaving : Parse (Option Having) := do
  if ← eatKeyword "HAVING" then
    let aliasName ← expectIdentifier "aggregate alias after HAVING"
    return some ⟨aliasName, ← parseHavingPredicate float⟩
  else return none

def parseRegularSelect (frames : Nat) : Parse Select := do
  let items ← commaSeparated (reserved parseSelectItem)
  expectKeyword "FROM"
  let table ← expectIdentifier "table name"
  let predicate ← parseWhere float frames
  let groupBy ← parseKeys "GROUP" parseGroupByExpr
  let having ← parseHaving float
  let orderBy ← parseKeys "ORDER" (parseOrderByItem parseOrderByName)
  let pagination ← parsePagination
  let select : Select :=
    ⟨false, items, table, predicate, groupBy, having, orderBy, pagination.limit, pagination.offset⟩
  validateShape (← position) (rowNumberShapeMessage select)
  validateShape pagination.offsetPosition (offsetShapeMessage select)
  return select

def distinctShape : String :=
  "SELECT DISTINCT supports one or more unaliased columns followed by FROM <table>, an optional WHERE predicate, an optional ORDER BY projected_column [ASC|DESC] list, and optional LIMIT <count> [OFFSET <offset>] or LIMIT <offset>, <count> pagination"

def parseDistinctColumn : Parse SelectItem := do
  return .column (← expectIdentifier "column after DISTINCT") none

/-- Where a distinct `SELECT` can end. -/
def endsDistinct (kind : TokenKind) : Bool := isKeyword "UNION" kind || isTerminator kind

def parseDistinctSelect (frames : Nat) : Parse Select := do
  let items ← commaSeparated (reserved parseDistinctColumn)
  unless ← eatKeyword "FROM" do error distinctShape
  let table ← expectIdentifier "table name after FROM"
  let predicate ← parseWhere float frames
  let orderBy ← parseKeys "ORDER" (parseOrderByItem (expectIdentifier "projected physical column after ORDER BY"))
  let pagination ← parsePagination
  unless ← peekIs endsDistinct do error distinctShape
  return ⟨true, items, table, predicate, [], none, orderBy, pagination.limit, pagination.offset⟩

end

end Parse

def Error.isResourceLimitExceeded : Error → Bool
  | resourceLimitExceeded .. => true
  | _ => false

namespace Parse

/-- What a production returns, also where it fails. -/
def attempt {α : Type} (production : Parse α) : Parse (Except Error α) := fun parser =>
  (production parser).map fun (result, parser) => (.ok result, parser)

section
variable (float : FloatText)

/-- The reading as a column named `DISTINCT`, behind a distinct one that failed. -/
def parseSelectAfter (frames : Nat) (distinctError : Error) : Parse Select := do
  match ← attempt (parseRegularSelect float frames) with
  | .ok select => return select
  | .error error => fail (if error.isResourceLimitExceeded then error else distinctError)

def parseSelect (frames : Nat) : Parse Select := do
  if ← atKeyword "DISTINCT" then
    let saved ← .read
    advance
    match ← attempt (parseDistinctSelect float frames) with
    | .ok select => return select
    | .error distinctError =>
      .modify fun parser =>
        { parser with lexer := saved.lexer, current := saved.current, astListItems := saved.astListItems }
      parseSelectAfter float frames distinctError
  else parseRegularSelect float frames

end

end Parse

end RustHouse.Batch
