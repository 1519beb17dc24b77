import RustHouse.Words

/-!
# Paths

The components of a path, as the standard library divides the bytes between
its slashes: empty ones and inner dots disappear.
-/

namespace RustHouse

open Words

inductive PathComponent where
  | rootDir | curDir | parentDir
  | normal (name : Bytes)
  deriving DecidableEq, Repr

def slash : UInt8 := 47

/-- A component after the first, where it counts. -/
def innerComponent (name : Bytes) : Option PathComponent :=
  if name = [] ∨ name = ascii "." then none
  else if name = ascii ".." then some .parentDir
  else some (.normal name)

def pathComponents (path : Bytes) : List PathComponent :=
  match path.splitOn slash with
  | [] | [[]] => []
  | [] :: rest => .rootDir :: rest.filterMap innerComponent
  | first :: rest => (if first = ascii "." then [.curDir] else (innerComponent first).toList) ++ rest.filterMap innerComponent

theorem pathComponents_normal {name : Bytes} (hslash : slash ∉ name) (hempty : name ≠ []) (hdot : name ≠ ascii ".")
    (hdots : name ≠ ascii "..") : pathComponents name = [.normal name] := by
  have hsplit : name.splitOn slash = [name] :=
    List.splitOnP_eq_singleton fun byte hbyte => beq_false_of_ne fun heq => hslash (heq ▸ hbyte)
  rw [pathComponents, hsplit]
  cases name with
  | nil => exact absurd rfl hempty
  | cons byte name => simp [hdot, hdots, innerComponent]

example : pathComponents (ascii "/a//./b/..") = [.rootDir, .normal (ascii "a"), .normal (ascii "b"), .parentDir] := by decide
example : pathComponents (ascii "./a") = [.curDir, .normal (ascii "a")] := by decide

end RustHouse
