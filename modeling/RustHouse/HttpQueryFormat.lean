import RustHouse.HttpQueryParameters
import RustHouse.SqlStatement

/-!
# The terminal FORMAT clause

The transport reads a FORMAT clause off the end of an SQL text before the text
is parsed. Its scanner keeps the last two tokens only; a number is no token of
it, each digit is one.
-/

namespace RustHouse.Http

open Batch (utf8Len isWhitespace eqIgnoreAsciiCase)
open Checked Exec Words

/-! ## Tokens -/

structure FormatToken where
  text : List Char
  start : Nat
  hasPrevious : Bool
  separatedBySemicolon : Bool
  deriving DecidableEq, Repr

/-- What the scanner keeps of the tokens before it. -/
structure FormatScan where
  previous : Option FormatToken
  last : Option FormatToken
  semicolonsSinceToken : Nat
  deriving DecidableEq, Repr

namespace FormatScan

def empty : FormatScan := ⟨none, none, 0⟩

def recordToken (scan : FormatScan) (text : List Char) (start : Nat) : FormatScan :=
  ⟨scan.last, some ⟨text, start, scan.last.isSome, scan.semicolonsSinceToken != 0⟩, 0⟩

def recordSemicolon (scan : FormatScan) : FormatScan :=
  { scan with semicolonsSinceToken := saturatingAdd scan.semicolonsSinceToken 1 }

end FormatScan

/-- What follows a comment, behind the line feed that ends it. -/
def behindComment : List Char → List Char
  | [] => []
  | character :: rest => if character = '\n' then rest else behindComment rest

/-- What follows a string behind its opening quote; none if it is not terminated. -/
def behindString : List Char → Option (List Char)
  | [] => none
  | [character] => if character = '\'' then some [] else none
  | character :: next :: rest =>
    if character = '\'' then if next = '\'' then behindString rest else some (next :: rest)
    else behindString (next :: rest)

def isWordStart (character : Char) : Bool := character.isAlpha || character = '_'

def isWordContinue (character : Char) : Bool := character.isAlphanum || character = '_'

def behindToken (character : Char) (rest : List Char) : Option (List Char) :=
  if character = '\'' then behindString rest
  else if isWordStart character then some (rest.dropWhile isWordContinue)
  else some rest

theorem behindComment_length (text : List Char) : (behindComment text).length ≤ text.length := by
  induction text with
  | nil => exact Nat.le_refl _
  | cons character rest ih =>
    rw [behindComment, List.length_cons]
    split <;> omega

theorem behindString_length {text after : List Char} (h : behindString text = some after) :
    after.length < text.length := by
  fun_induction behindString text generalizing after with
  | case1 => cases h
  | case2 => cases h; exact Nat.zero_lt_one
  | case3 => cases h
  | case4 rest ih =>
    have hrest := ih h
    simp only [List.length_cons]
    omega
  | case5 next rest hne =>
    cases h
    exact Nat.lt_succ_self _
  | case6 character next rest hne ih => exact Nat.lt_succ_of_lt (ih h)

theorem behindToken_length {character : Char} {rest after : List Char} (h : behindToken character rest = some after) :
    after.length ≤ rest.length := by
  unfold behindToken at h
  split_ifs at h
  · exact Nat.le_of_lt (behindString_length h)
  · cases h
    exact (List.dropWhile_sublist _).length_le
  · cases h
    exact Nat.le_refl _

/-! ## The scanner -/

def textBefore (text after : List Char) : List Char := text.take (text.length - after.length)

def scanTokens (index : Nat) (scan : FormatScan) : List Char → Option FormatScan
  | [] => some scan
  | character :: rest =>
    if isWhitespace character then scanTokens (index + character.utf8Size) scan rest
    else if character = '-' ∧ rest.head? = some '-' then
      scanTokens (index + utf8Len (textBefore (character :: rest) (behindComment rest))) scan (behindComment rest)
    else if character = ';' then scanTokens (index + 1) scan.recordSemicolon rest
    else
      match _hafter : behindToken character rest with
      | none => none
      | some after =>
        let text := textBefore (character :: rest) after
        scanTokens (index + utf8Len text) (scan.recordToken text index) after
termination_by text => text.length
decreasing_by
  · simp
  · have h := behindComment_length rest
    rw [List.length_cons]
    omega
  · simp
  · have h := behindToken_length _hafter
    rw [List.length_cons]
    omega

/-- In the order of the comparisons. -/
def QueryResponseFormat.all : List QueryResponseFormat :=
  [.json, .csv, .csvWithNames, .tabSeparated, .tabSeparatedWithNames, .jsonEachRow, .jsonCompactEachRow]

def responseFormatOf (name : List Char) : Option QueryResponseFormat :=
  QueryResponseFormat.all.find? fun format => eqIgnoreAsciiCase (.ofList name) format.name

def terminalQueryFormat (sql : String) : Option (Nat × QueryResponseFormat) := do
  let scan ← scanTokens 0 .empty sql.toList
  let format ← scan.previous
  let formatName ← scan.last
  if ¬ format.hasPrevious ∨ format.separatedBySemicolon ∨ formatName.separatedBySemicolon ∨
      1 < scan.semicolonsSinceToken ∨ ¬ eqIgnoreAsciiCase (.ofList format.text) "FORMAT" then none
  else
    let responseFormat ← responseFormatOf formatName.text
    some (format.start, responseFormat)

/-- `String::truncate`: a text is cut between characters. -/
def truncate : Nat → List Char → Option (List Char)
  | _, [] => some []
  | length, character :: text =>
    if length = 0 then some []
    else if character.utf8Size ≤ length then
      (truncate (length - character.utf8Size) text).map (character :: ·)
    else none

def takeTerminalQueryFormat {ε : Type} (sql : String) : Exec ε (String × Option QueryResponseFormat) :=
  match terminalQueryFormat sql with
  | none => .ok (sql, none)
  | some (formatStart, responseFormat) => do
    let text ← orPanic (truncate formatStart sql.toList)
    .ok (.ofList text, some responseFormat)

end RustHouse.Http
