import RustHouse.SqlParser

/-!
# The parser of WHERE predicates

Keywords are not reserved, so `NOT` is a column where a predicate operator
follows it. The productions call each other; each call takes one frame of a
call stack that they are given.
-/

namespace RustHouse.Batch

open Exec

def maxPredicateDepth : Nat := 64

def maxPredicateNodes : Nat := 256

/-- What can follow the left operand of an atom. -/
def predicateOperators : List (List (TokenKind → Bool)) :=
  [[isToken .equal], [isToken .notEqual], [isToken .less], [isToken .lessOrEqual], [isToken .greater],
    [isToken .greaterOrEqual],
    [isKeyword "LIKE", isString],
    [isKeyword "BETWEEN", tokenCanStartLiteral],
    [isKeyword "IN", isToken .leftParen],
    [isKeyword "IS", isKeyword "NULL"],
    [isKeyword "IS", isKeyword "NOT", isKeyword "NULL"],
    [isKeyword "NOT", isKeyword "IN", isToken .leftParen],
    [isKeyword "NOT", isKeyword "BETWEEN", tokenCanStartLiteral],
    [isKeyword "NOT", isKeyword "LIKE", isString]]

/-- `lower_in_predicate`, a call for each node of the tree. -/
def lowerInFrames (column : String) : Nat → List Value → Option Predicate
  | 0, _ => none
  | frames + 1, literals =>
    match literals with
    | [] => none
    | [literal] => some (.comparison (.sharedColumn column) .equal (.literal literal))
    | first :: second :: rest => do
      let left ← lowerInFrames column frames ((first :: second :: rest).take ((rest.length + 2) / 2))
      let right ← lowerInFrames column frames ((first :: second :: rest).drop ((rest.length + 2) / 2))
      some (.or left right)

namespace Parse

variable {α : Type}

def nextTokenIsPredicateOperator : Parse Bool := do
  let parser ← .read
  return predicateOperators.any fun tests => nextTokensPass tests parser.lexer

def recordPredicateNode : Parse Unit := do
  let parser ← .read
  if parser.predicateNodes ≥ maxPredicateNodes then
    error s!"predicate is too complex; maximum {maxPredicateNodes} expression nodes"
  else .write { parser with predicateNodes := parser.predicateNodes + 1 }

/-- A production one level deeper; the level ends with it, also where it fails. -/
def nested (production : Parse α) : Parse α := do
  let parser ← .read
  if parser.predicateDepth ≥ maxPredicateDepth then
    error s!"predicate nesting exceeds limit of {maxPredicateDepth}"
  else
    .write { parser with predicateDepth := parser.predicateDepth + 1 }
    .afterwards production fun parser => { parser with predicateDepth := parser.predicateDepth - 1 }

def columnOperand (message : String) : Operand → Parse String
  | .column column => return column
  | _ => error message

section
variable (float : FloatText)

def parseOperand : Parse Operand := do
  if ← peekIs tokenCanStartLiteral then return .literal (← parseLiteral float)
  else if ← peekIs isIdentifier then return .column (← expectIdentifier "column or literal")
  else error "expected column or literal"

/-- The pattern of a `LIKE`; another token is stepped over before it is refused. -/
def takePattern : Parse String := do
  let patternPosition ← position
  match ← takeString with
  | some pattern => return pattern
  | none =>
    advance
    failAt patternPosition
      "LIKE pattern must be a String literal of the form 'prefix%', '%suffix', or '%substring%'"

def parseLikePredicate (left : Operand) (negated : Bool) : Parse Predicate := do
  let column ← columnOperand "LIKE left operand must be a column" left
  let patternPosition ← position
  let pattern ← takePattern
  let predicate ← okOrAt patternPosition
    "LIKE pattern must have the exact form 'prefix%', '%suffix', or '%substring%'" (lowerLikePattern column pattern)
  recordPredicateNode
  if negated then
    recordPredicateNode
    return .not predicate
  else return predicate

def parseBetweenPredicate (left : Operand) (negated : Bool) : Parse Predicate := do
  let column ← columnOperand "BETWEEN left operand must be a column" left
  let lower ← parseLiteral float
  expectKeyword "AND"
  let upper ← parseLiteral float
  recordPredicateNode
  recordPredicateNode
  recordPredicateNode
  if negated then recordPredicateNode
  return negateIf negated (lowerBetween column lower upper)

/-- One literal of an `IN` list; each after the first also costs an `OR`. -/
def parseInLiteral (literals : List Value) : Parse (List Value) := do
  reserveAstListItem
  let literal ← parseLiteral float
  recordPredicateNode
  unless literals = [] do recordPredicateNode
  return literals ++ [literal]

def parseInPredicate (frames : Nat) (left : Operand) (negated : Bool) : Parse Predicate := do
  let column ← columnOperand "IN left operand must be a column" left
  expect .leftParen "'(' before IN list"
  if ← peekIs (isToken .rightParen) then error "IN list must contain at least one literal"
  let first ← parseInLiteral float []
  let literals ← whileEat (isToken .comma) (parseInLiteral float) first
  expect .rightParen "')' after IN list"
  if negated then recordPredicateNode
  return negateIf negated (← .call (orPanic (lowerInFrames column frames literals)))

def parseNullness (left : Operand) : Parse Predicate := do
  let column ← columnOperand "IS NULL left operand must be a column" left
  let isNotNull ← eatKeyword "NOT"
  expectKeyword "NULL"
  recordPredicateNode
  return if isNotNull then .isNotNull column else .isNull column

def parseComparison (left : Operand) : Parse Predicate := do
  let operator ← parseComparisonOperator
  let right ← parseOperand float
  recordPredicateNode
  return .comparison left operator right

def parseOperandAtom (frames : Nat) : Parse Predicate := do
  let left ← parseOperand float
  if ← eatKeyword "IS" then parseNullness left
  else
    let infixNegated ← eatKeyword "NOT"
    if ← eatKeyword "BETWEEN" then parseBetweenPredicate float left infixNegated
    else if ← eatKeyword "IN" then parseInPredicate float frames left infixNegated
    else if ← eatKeyword "LIKE" then parseLikePredicate left infixNegated
    else if infixNegated then error "expected keyword BETWEEN, IN, or LIKE after NOT"
    else parseComparison float left

mutual

def parseOrPredicate : Nat → Parse Predicate
  | 0 => fun _ => none
  | frames + 1 => do
    let first ← parseAndPredicate frames
    whileEat (isKeyword "OR") (fun predicate => do
      let right ← parseAndPredicate frames
      recordPredicateNode
      return .or predicate right) first

def parseAndPredicate : Nat → Parse Predicate
  | 0 => fun _ => none
  | frames + 1 => do
    let first ← parseNotPredicate frames
    whileEat (isKeyword "AND") (fun predicate => do
      let right ← parseNotPredicate frames
      recordPredicateNode
      return .and predicate right) first

def parseNotPredicate : Nat → Parse Predicate
  | 0 => fun _ => none
  | frames + 1 => do
    let atNot ← atKeyword "NOT"
    let operatorFollows ← nextTokenIsPredicateOperator
    if !atNot || operatorFollows then parsePredicateAtom frames
    else
      advance
      let predicate ← nested (parseNotPredicate frames)
      recordPredicateNode
      return .not predicate

def parsePredicateAtom : Nat → Parse Predicate
  | 0 => fun _ => none
  | frames + 1 => do
    if ← eat .leftParen then
      let predicate ← nested (parseOrPredicate frames)
      expect .rightParen "right parenthesis after predicate"
      return predicate
    else parseOperandAtom float frames

end

def parseWhere (frames : Nat) : Parse (Option Predicate) := do
  if ← eatKeyword "WHERE" then
    .modify fun parser => { parser with predicateDepth := 0, predicateNodes := 0 }
    return some (← parseOrPredicate float frames)
  else return none

end

end Parse

end RustHouse.Batch
