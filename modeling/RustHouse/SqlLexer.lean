import RustHouse.Sql

/-!
# The SQL lexer

Tokens are read one at a time from the rest of the input. Comments and white
space before a token are skipped; a text that is no token becomes an invalid
token that carries the error.
-/

namespace RustHouse.Batch

inductive TokenKind where
  | identifier (value : String)
  | number (value : String)
  | string (value : String)
  | comma | dot | leftParen | rightParen | semicolon | star | plus | minus
  | equal | notEqual | less | lessOrEqual | greater | greaterOrEqual
  | invalid (error : Error)
  | endOfInput
  deriving DecidableEq

structure Token where
  kind : TokenKind
  position : Nat
  deriving DecidableEq

/-- The rest of the input, and the byte position at which it starts. -/
structure Lexer where
  rest : List Char
  position : Nat
  deriving DecidableEq

/-- `char::is_whitespace`: the property White_Space of Unicode. -/
def isWhitespace (character : Char) : Bool :=
  let code := character.toNat
  (0x9 ≤ code && code ≤ 0xd) || code = 0x20 || code = 0x85 || code = 0xa0 || code = 0x1680 ||
    (0x2000 ≤ code && code ≤ 0x200a) || code = 0x2028 || code = 0x2029 || code = 0x202f || code = 0x205f ||
    code = 0x3000

def utf8Len (text : List Char) : Nat := (text.map Char.utf8Size).sum

/-- White space and comments at the start of a text are dropped; a comment ends before its line feed. -/
def dropIgnored (inComment : Bool) : List Char → List Char
  | [] => []
  | character :: rest =>
    if inComment then dropIgnored (character ≠ '\n') rest
    else if isWhitespace character then dropIgnored false rest
    else if character = '-' ∧ rest.head? = some '-' then dropIgnored true rest
    else character :: rest

/-- The value of a string literal behind its opening quote, and what follows it; none if it does not end. -/
def scanString : List Char → Option (List Char × List Char)
  | [] => none
  | [character] => if character = '\'' then some ([], []) else none
  | character :: next :: rest =>
    if character = '\'' then
      if next = '\'' then (scanString rest).map fun (value, after) => ('\'' :: value, after)
      else some ([], next :: rest)
    else (scanString (next :: rest)).map fun (value, after) => (character :: value, after)

def scanFraction : List Char → List Char
  | [] => []
  | point :: rest => if point = '.' then point :: rest.takeWhile Char.isDigit else []

def scanSigned : List Char → List Char
  | [] => []
  | sign :: rest =>
    if sign = '+' ∨ sign = '-' then sign :: rest.takeWhile Char.isDigit else (sign :: rest).takeWhile Char.isDigit

def scanExponent : List Char → List Char
  | [] => []
  | e :: rest => if e = 'e' ∨ e = 'E' then e :: scanSigned rest else []

def scanNumber (text : List Char) : List Char :=
  let whole := text.takeWhile Char.isDigit
  let fraction := scanFraction (text.drop whole.length)
  whole ++ fraction ++ scanExponent (text.drop (whole ++ fraction).length)

def scanIdentifier (text : List Char) : List Char := text.takeWhile isSqlIdentifierContinue

namespace Lexer

def new (input : String) : Lexer := ⟨input.toList, 0⟩

/-- The lexer behind a prefix of the rest. -/
def advance (lexer : Lexer) (count : Nat) : Lexer :=
  ⟨lexer.rest.drop count, lexer.position + utf8Len (lexer.rest.take count)⟩

def skipIgnored (lexer : Lexer) : Lexer :=
  lexer.advance (lexer.rest.length - (dropIgnored false lexer.rest).length)

end Lexer

def singleToken (character : Char) : Option TokenKind :=
  if character = ',' then some .comma
  else if character = '.' then some .dot
  else if character = '(' then some .leftParen
  else if character = ')' then some .rightParen
  else if character = ';' then some .semicolon
  else if character = '*' then some .star
  else if character = '+' then some .plus
  else if character = '-' then some .minus
  else if character = '=' then some .equal
  else none

/-- The kind of a token that starts with a character, and how long it is, or an error. -/
def scanLongToken (position : Nat) (character : Char) (rest : List Char) : TokenKind × Nat :=
  if character = '!' then
    if rest.head? = some '=' then (.notEqual, 2) else (.invalid (.sql position "expected '=' after '!'"), 1)
  else if character = '<' then
    if rest.head? = some '=' then (.lessOrEqual, 2) else if rest.head? = some '>' then (.notEqual, 2) else (.less, 1)
  else if character = '>' then
    if rest.head? = some '=' then (.greaterOrEqual, 2) else (.greater, 1)
  else if character = '\'' then
    match scanString rest with
    | some (value, after) => (.string (.ofList value), 1 + (rest.length - after.length))
    | none => (.invalid (.sql position "unterminated string literal"), 1 + rest.length)
  else if character.isDigit then
    let number := scanNumber (character :: rest)
    (.number (.ofList number), number.length)
  else if isSqlIdentifierStart character then
    let identifier := scanIdentifier (character :: rest)
    (.identifier (.ofList identifier), identifier.length)
  else (.invalid (.sql position s!"unexpected character '{character}'"), 0)

def scanToken (position : Nat) : List Char → TokenKind × Nat
  | [] => (.endOfInput, 0)
  | character :: rest =>
    match singleToken character with
    | some kind => (kind, 1)
    | none => scanLongToken position character rest

def Lexer.nextOrInvalid (lexer : Lexer) : Token × Lexer :=
  let lexer := lexer.skipIgnored
  let (kind, length) := scanToken lexer.position lexer.rest
  let after := lexer.advance length
  match kind with
  | .invalid _ => (⟨kind, after.position⟩, after)
  | _ => (⟨kind, lexer.position⟩, after)

end RustHouse.Batch
