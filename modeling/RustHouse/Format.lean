import RustHouse.ScalarText

/-!
# Output formats

The writers of query results as CSV and as tab-separated text, with or without
a line of column names. What they write is the UTF-8 of the text given here.
-/

namespace RustHouse.Batch

open Delimited Words

structure ResultColumn where
  name : String
  dataType : DataType
  deriving DecidableEq

structure QueryResult where
  columns : List ResultColumn
  rows : List (List Value)
  deriving DecidableEq

/-! ## CSV -/

/-- A field in quotes, with its quotes doubled, if it holds a special character. -/
def writeCsvField (value : String) : List Char :=
  if ¬ value.toList.any fun c => c = ',' || c = '"' || c = '\n' || c = '\r' then value.toList
  else '"' :: (value.toList.flatMap fun c => if c = '"' then ['"', '"'] else [c]) ++ ['"']

section
variable (float : FloatText)

def writeCsvValue : Value → List Char
  | .string value => writeCsvField value
  | .null _ => "NULL".toList
  | value => writeCsvField (value.asDisplayString float)

def writeCsvRecord (row : List Value) : List Char := join ',' (row.map (writeCsvValue float)) ++ ['\n']

/-- `CSV`. -/
def writeCsvRows (result : QueryResult) : List Char := result.rows.flatMap (writeCsvRecord float)

/-- `CSVWithNames`. -/
def writeCsv (result : QueryResult) : List Char :=
  join ',' (result.columns.map fun column => writeCsvField column.name) ++ ['\n'] ++ writeCsvRows float result

end

/-! ## Tab-separated text -/

def tsvEscape (c : Char) : Option Char :=
  if c = '\\' then some '\\'
  else if c = '\t' then some 't'
  else if c = '\r' then some 'r'
  else if c = '\n' then some 'n'
  else if c = '\x00' then some '0'
  else if c = '\x08' then some 'b'
  else if c = '\x0c' then some 'f'
  else if c = '\'' then some '\''
  else none

def writeTsvEscaped (value : String) : List Char :=
  value.toList.flatMap fun c => (tsvEscape c).elim [c] fun escaped => ['\\', escaped]

section
variable (float : FloatText)

def writeTsvValue : Value → List Char
  | .string value => writeTsvEscaped value
  | .null _ => "\\N".toList
  | value => (value.asDisplayString float).toList

def writeTsvRecord (row : List Value) : List Char := join '\t' (row.map (writeTsvValue float)) ++ ['\n']

/-- `TabSeparated`. -/
def writeTsvRows (result : QueryResult) : List Char := result.rows.flatMap (writeTsvRecord float)

/-- `TabSeparatedWithNames`. -/
def writeTsv (result : QueryResult) : List Char :=
  join '\t' (result.columns.map fun column => writeTsvEscaped column.name) ++ ['\n'] ++ writeTsvRows float result

end

def emit (text : List Char) : Bytes := utf8 (.ofList text)

end RustHouse.Batch
