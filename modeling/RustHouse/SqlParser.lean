import RustHouse.Method
import RustHouse.ScalarText
import RustHouse.SqlLexer

/-!
# The state of the SQL parser

The parser holds the current token, the lexer behind it and the counters that
the limits bound. Its productions are methods on it.
-/

namespace RustHouse.Batch

open Checked

structure Parser where
  lexer : Lexer
  current : Token
  predicateDepth : Nat
  predicateNodes : Nat
  insertRows : Nat
  insertValues : Nat
  astListItems : Nat
  limits : BatchSqlLimits

/-- A production of the parser; a panic stands for a call stack that is exhausted. -/
abbrev Parse (α : Type) := Method Parser Error α

def Parser.new (input : String) (limits : BatchSqlLimits) : Parser :=
  let (current, lexer) := (Lexer.new input).nextOrInvalid
  ⟨lexer, current, 0, 0, 0, 0, 0, limits⟩

/-! ## Tests of tokens -/

def isToken (expected kind : TokenKind) : Bool := kind = expected

def isKeyword (expected : String) : TokenKind → Bool
  | .identifier value => eqIgnoreAsciiCase value expected
  | _ => false

def isString : TokenKind → Bool
  | .string _ => true
  | _ => false

def isIdentifier : TokenKind → Bool
  | .identifier _ => true
  | _ => false

def tokenCanStartLiteral : TokenKind → Bool
  | .string _ | .number _ | .plus | .minus => true
  | .identifier value => eqIgnoreAsciiCase value "TRUE" || eqIgnoreAsciiCase value "FALSE"
  | _ => false

/-- Whether a statement ends before the token. -/
def isTerminator (kind : TokenKind) : Bool := kind = .semicolon || kind = .endOfInput

def nextTokensPass : List (TokenKind → Bool) → Lexer → Bool
  | [], _ => true
  | test :: tests, lexer =>
    let (token, lexer) := lexer.nextOrInvalid
    test token.kind && nextTokensPass tests lexer

namespace Parse

variable {α : Type}

/-! ## Errors -/

def fail (error : Error) : Parse α := .call (.error error)

def failAt (position : Nat) (message : String) : Parse α := fail (.sql position message)

/-- An error at the current token; an invalid token has its own. -/
def error (message : String) : Parse α := do
  let parser ← .read
  match parser.current.kind with
  | .invalid error => fail error
  | _ => failAt parser.current.position message

/-- `value.ok_or_else(..)` with an error at a position. -/
def okOrAt (position : Nat) (message : String) : Option α → Parse α
  | some value => return value
  | none => failAt position message

/-! ## Tokens -/

def position : Parse Nat := do return (← .read).current.position

def advance : Parse Unit := do
  let parser ← .read
  let (current, lexer) := parser.lexer.nextOrInvalid
  .write { parser with lexer, current }

/-- Whether the current token passes a test. -/
def peekIs (test : TokenKind → Bool) : Parse Bool := do return test (← .read).current.kind

/-- Whether the tokens behind the current one pass the tests. -/
def lookahead (tests : List (TokenKind → Bool)) : Parse Bool := do return nextTokensPass tests (← .read).lexer

/-- What is read from the current token, stepping over it; nothing where it is of another kind. -/
def take (reading : TokenKind → Option α) : Parse (Option α) := do
  match reading (← .read).current.kind with
  | some value =>
    advance
    return some value
  | none => return none

def eatIf (test : TokenKind → Bool) : Parse Bool := do
  return (← take fun kind => if test kind then some () else none).isSome

def eat (expected : TokenKind) : Parse Bool := eatIf (isToken expected)

def atKeyword (expected : String) : Parse Bool := peekIs (isKeyword expected)

def eatKeyword (expected : String) : Parse Bool := eatIf (isKeyword expected)

def expect (expected : TokenKind) (description : String) : Parse Unit := do
  unless ← eat expected do error s!"expected {description}"

def expectKeyword (expected : String) : Parse Unit := do
  unless ← eatKeyword expected do error s!"expected keyword {expected}"

def takeIdentifier : Parse (Option String) :=
  take fun
    | .identifier value => some value
    | _ => none

def takeNumber : Parse (Option String) :=
  take fun
    | .number value => some value
    | _ => none

def takeString : Parse (Option String) :=
  take fun
    | .string value => some value
    | _ => none

def expectIdentifier (description : String) : Parse String := do
  match ← takeIdentifier with
  | some value => return value
  | none => error s!"expected {description}"

/-- A statement ends here, or there is an error. -/
def expectTerminator (message : String) : Parse Unit := do
  unless ← peekIs isTerminator do error message

/-! ## Counters -/

def reserveAstListItem : Parse Unit := do
  let parser ← .read
  if parser.astListItems ≥ parser.limits.maxAstListItems then
    fail (.resourceLimitExceeded "SQL AST list items" (saturatingAdd parser.astListItems 1)
      parser.limits.maxAstListItems)
  else .write { parser with astListItems := parser.astListItems + 1 }

/-- Room for one more `INSERT` row. -/
def checkInsertRow : Parse Unit := do
  let parser ← .read
  if parser.insertRows ≥ parser.limits.maxInsertRows then
    fail (.resourceLimitExceeded "INSERT rows" (saturatingAdd parser.insertRows 1) parser.limits.maxInsertRows)

def checkInsertValue : Parse Unit := do
  let parser ← .read
  if parser.insertValues ≥ parser.limits.maxInsertValues then
    fail (.resourceLimitExceeded "INSERT values" (saturatingAdd parser.insertValues 1) parser.limits.maxInsertValues)

def countInsertRow : Parse Unit := do
  let parser ← .read
  .write { parser with insertRows := parser.insertRows + 1 }

def countInsertValue : Parse Unit := do
  let parser ← .read
  .write { parser with insertValues := parser.insertValues + 1 }

/-! ## Loops -/

/-- While the current token passes a test: step over it and run the body; at most that often. -/
def whileEatFuel (test : TokenKind → Bool) (body : α → Parse α) : Nat → α → Parse α
  | 0, _ => fun _ => none
  | fuel + 1, value => do
    if ← eatIf test then whileEatFuel test body fuel (← body value) else return value

/-- No more tokens are left than characters, and the current one. -/
def whileEat (test : TokenKind → Bool) (body : α → Parse α) (value : α) : Parse α := do
  whileEatFuel test body ((← .read).lexer.rest.length + 2) value

def commaSeparated (item : Parse α) : Parse (List α) := do
  let first ← item
  whileEat (isToken .comma) (fun items => return items ++ [← item]) [first]

/-! ## Names and literals -/

def parseAlias : Parse (Option String) := do
  if ← eatKeyword "AS" then return some (← expectIdentifier "alias") else return none

/-- The sign in front of a number, as it is written. -/
def parseSign : Parse String := do
  if ← eat .minus then return "-" else if ← eat .plus then return "+" else return ""

end Parse

/-- `DataType::parse`. -/
def DataType.parse (value : String) : Option DataType :=
  if eqIgnoreAsciiCase value "INT64" then some .int64
  else if eqIgnoreAsciiCase value "FLOAT64" then some .float64
  else if eqIgnoreAsciiCase value "BOOL" ∨ eqIgnoreAsciiCase value "BOOLEAN" then some .bool
  else if eqIgnoreAsciiCase value "STRING" then some .string
  else none

/-- `number.parse::<usize>()`. -/
def parseUsize (number : String) : Option Nat :=
  let digits := number.toList
  if digits = [] ∨ ¬ digits.all Char.isDigit then none
  else
    let value := Nat.ofDigitChars 10 digits 0
    if value ≤ usizeMax then some value else none

/-- `text.contains(['.', 'e', 'E'])`. -/
def isFloatText (text : String) : Bool := text.toList.any fun c => c = '.' || c = 'e' || c = 'E'

namespace Parse

section
variable (float : FloatText)

def parseLiteral : Parse Value := do
  if let some value ← takeString then return .string value
  let sign ← parseSign
  if let some number ← takeNumber then
    let signed := sign ++ number
    if isFloatText signed then
      let value ← okOrAt (← position) s!"invalid Float64 literal '{signed}'" (float.parse signed)
      unless value.isFinite do error "Float64 literal must be finite"
      return .float64 value
    let value ← okOrAt (← position) s!"invalid Int64 literal '{signed}'" (parseInt64 signed.toList)
    return .int64 value
  unless sign = "" do error s!"expected a number after '{sign}'"
  if ← eatKeyword "TRUE" then return .bool true
  else if ← eatKeyword "FALSE" then return .bool false
  else error "expected an Int64, Float64, Bool, or String literal"

def parseInsertLiteral : Parse Value := do
  if ← eatKeyword "NULL" then return .null .int64 else parseLiteral float

def parseSignedInt64Literal (context : String) : Parse Int64 := do
  let position ← position
  let sign ← parseSign
  let number ← okOrAt position s!"expected a signed Int64 literal in {context}" (← takeNumber)
  let literal := sign ++ number
  okOrAt position s!"invalid Int64 literal '{literal}' in {context}" (parseInt64 literal.toList)

def parseAlterUpdateLiteral (context : String) : Parse AlterUpdateValue := do
  if let some value ← takeString then return .string value
  if ← eatKeyword "TRUE" then return .literal (.bool true)
  if ← eatKeyword "FALSE" then return .literal (.bool false)
  let position ← position
  let sign ← parseSign
  let number ← okOrAt position s!"expected an Int64, Float64, Bool, or String literal in {context}" (← takeNumber)
  let literal := sign ++ number
  if isFloatText literal then
    let value ← okOrAt position s!"invalid Float64 literal '{literal}' in {context}" (float.parse literal)
    unless value.isFinite do failAt position s!"Float64 literal must be finite in {context}"
    return .literal (.float64 value)
  let value ← okOrAt position s!"invalid Int64 literal '{literal}' in {context}" (parseInt64 literal.toList)
  return .literal (.int64 value)

/-- The text of an integer, whether or not it is in the range. -/
def isInt64Text (text : String) : Bool :=
  let (_, digits) := splitSign text.toList
  !digits.isEmpty && digits.all Char.isDigit

def parseHavingThreshold : Parse Value := do
  let position ← position
  let sign ← parseSign
  let number ← okOrAt position "expected a finite numeric threshold after HAVING comparison" (← takeNumber)
  let threshold := sign ++ number
  if isFloatText threshold then
    let value ← okOrAt position s!"invalid Float64 threshold '{threshold}' in HAVING comparison" (float.parse threshold)
    unless value.isFinite do failAt position s!"HAVING Float64 threshold '{threshold}' must be finite"
    return .float64 value
  let message :=
    if isInt64Text threshold then s!"HAVING Int64 threshold '{threshold}' is outside the Int64 range"
    else s!"invalid Int64 threshold '{threshold}' in HAVING comparison"
  return .int64 (← okOrAt position message (parseInt64 threshold.toList))

end

def parseComparisonOperator : Parse ComparisonOperator := do
  let operator ← take fun
    | .equal => some .equal
    | .notEqual => some .notEqual
    | .less => some .less
    | .lessOrEqual => some .lessOrEqual
    | .greater => some .greater
    | .greaterOrEqual => some .greaterOrEqual
    | _ => none
  match operator with
  | some operator => return operator
  | none => error "expected comparison operator (=, !=, <>, <, <=, >, or >=)"

end Parse

end RustHouse.Batch
