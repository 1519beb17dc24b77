import Mathlib.Data.List.Basic

/-!
# Delimited text

Text as a sequence of lines, each with its terminator, and a line as a sequence
of fields with a separator between them.
-/

namespace Delimited

variable {α : Type}

def join (separator : α) : List (List α) → List α
  | [] => []
  | [field] => field
  | field :: fields => field ++ separator :: join separator fields

theorem join_cons (separator : α) (field : List α) {fields : List (List α)} (h : fields ≠ []) :
    join separator (field :: fields) = field ++ separator :: join separator fields := by
  cases fields with
  | nil => exact absurd rfl h
  | cons next fields => rfl

theorem join_eq_intercalate (separator : α) (fields : List (List α)) :
    join separator fields = [separator].intercalate fields := by
  induction fields with
  | nil => rfl
  | cons field fields ih =>
    cases fields with
    | nil => simp [join, List.intercalate]
    | cons next fields => rw [join_cons separator field (List.cons_ne_nil _ _), ih]; simp [List.intercalate]

theorem mem_join {separator a : α} {fields : List (List α)} (h : a ∈ join separator fields) :
    a = separator ∨ ∃ field ∈ fields, a ∈ field := by
  induction fields with
  | nil => cases h
  | cons field fields ih =>
    cases fields with
    | nil => exact .inr ⟨field, List.mem_singleton.2 rfl, h⟩
    | cons next fields =>
      rw [join_cons separator field (List.cons_ne_nil _ _)] at h
      obtain h | h := List.mem_append.1 h
      · exact .inr ⟨field, List.mem_cons_self .., h⟩
      · obtain rfl | h := List.mem_cons.1 h
        · exact .inl rfl
        · refine (ih h).imp_right fun ⟨field', hfield', hmem⟩ => ?_
          exact ⟨field', List.mem_cons_of_mem _ hfield', hmem⟩

variable [DecidableEq α]

/-- The lines of a text, each up to and with a terminator; what follows the last one is a line if there is any. -/
def splitInclusive (terminator : α) : List α → List (List α)
  | [] => []
  | a :: as =>
    if a = terminator then [a] :: splitInclusive terminator as
    else match splitInclusive terminator as with
      | [] => [[a]]
      | line :: lines => (a :: line) :: lines

/-- A text without its last element, if that is the given one. -/
def stripLast (a : α) (as : List α) : List α := if as.getLast? = some a then as.dropLast else as

theorem splitInclusive_line {terminator : α} {line : List α} (h : terminator ∉ line) (rest : List α) :
    splitInclusive terminator (line ++ terminator :: rest) = (line ++ [terminator]) :: splitInclusive terminator rest := by
  induction line with
  | nil => exact if_pos rfl
  | cons a line ih =>
    obtain ⟨hne, hline⟩ := List.ne_and_not_mem_of_not_mem_cons h
    rw [List.cons_append, splitInclusive, if_neg (Ne.symm hne), ih hline]
    rfl

theorem splitInclusive_lines {terminator : α} {lines : List (List α)} (h : ∀ line ∈ lines, terminator ∉ line) :
    splitInclusive terminator (lines.flatMap fun line => line ++ [terminator]) =
      lines.map fun line => line ++ [terminator] := by
  induction lines with
  | nil => rfl
  | cons line lines ih =>
    obtain ⟨hline, hlines⟩ := List.forall_mem_cons.1 h
    rw [List.flatMap_cons, List.append_assoc, List.singleton_append, splitInclusive_line hline, ih hlines, List.map_cons]

@[simp] theorem stripLast_append (a : α) (as : List α) : stripLast a (as ++ [a]) = as := by
  rw [stripLast, if_pos List.getLast?_concat, List.dropLast_concat]

theorem stripLast_of_notMem {a : α} {as : List α} (h : a ∉ as) : stripLast a as = as :=
  if_neg fun hlast => h (List.mem_of_getLast? hlast)

theorem splitOn_join {separator : α} {fields : List (List α)} (h : ∀ field ∈ fields, separator ∉ field)
    (hne : fields ≠ []) : (join separator fields).splitOn separator = fields := by
  rw [join_eq_intercalate, List.splitOn_intercalate separator h hne]

theorem join_splitOn (separator : α) (as : List α) : join separator (as.splitOn separator) = as := by
  rw [join_eq_intercalate, List.intercalate_splitOn]

theorem notMem_of_mem_splitOn {separator : α} (as : List α) : ∀ field ∈ as.splitOn separator, separator ∉ field := by
  induction as with
  | nil => simp
  | cons a as ih =>
    rw [List.splitOn_cons_eq_if_modifyHead]
    by_cases ha : a = separator
    · rw [if_pos (beq_iff_eq.2 ha), List.forall_mem_cons]
      exact ⟨List.not_mem_nil, ih⟩
    · rw [if_neg (fun h => ha (beq_iff_eq.1 h))]
      cases hsplit : as.splitOn separator with
      | nil => exact absurd hsplit (List.splitOn_ne_nil separator as)
      | cons field fields =>
        rw [hsplit, List.forall_mem_cons] at ih
        rw [List.modifyHead_cons, List.forall_mem_cons]
        exact ⟨List.not_mem_cons_of_ne_of_not_mem (Ne.symm ha) ih.1, ih.2⟩

theorem count_join {separator : α} {fields : List (List α)} (h : ∀ field ∈ fields, separator ∉ field)
    (hne : fields ≠ []) : (join separator fields).count separator + 1 = fields.length := by
  induction fields with
  | nil => exact absurd rfl hne
  | cons field fields ih =>
    obtain ⟨hfield, hfields⟩ := List.forall_mem_cons.1 h
    have hcount := List.count_eq_zero.2 hfield
    cases fields with
    | nil => rw [join, hcount, List.length_singleton]
    | cons next fields =>
      have hrest := ih hfields (List.cons_ne_nil _ _)
      rw [join_cons separator field (List.cons_ne_nil _ _), List.count_append, List.count_cons_self, hcount,
        List.length_cons]
      omega

end Delimited
