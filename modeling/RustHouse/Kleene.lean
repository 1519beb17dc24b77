/-!
# Three-valued logic

The truth values of Kleene: a statement is false, unknown or true. Negations
move to the leaves of a formula as in classical logic, and a conjunction or a
disjunction is true under the same conditions.
-/

inductive Kleene where
  | false | unknown | true
  deriving DecidableEq, Repr

namespace Kleene

protected def not : Kleene → Kleene
  | false => true
  | unknown => unknown
  | true => false

protected def and : Kleene → Kleene → Kleene
  | false, _ | _, false => false
  | true, true => true
  | _, _ => unknown

protected def or : Kleene → Kleene → Kleene
  | true, _ | _, true => true
  | false, false => false
  | _, _ => unknown

def ofBool : Bool → Kleene
  | .false => false
  | .true => true

def isTrue : Kleene → Bool
  | true => .true
  | _ => .false

def any {α : Type} (f : α → Kleene) : List α → Kleene
  | [] => false
  | a :: as => (f a).or (any f as)

/-- What is said of a value; of a missing one it is unknown. -/
def ofOption {α : Type} (o : Option α) (f : α → Kleene) : Kleene := o.elim unknown f

def signed (negated : Bool) (k : Kleene) : Kleene := if negated then k.not else k

theorem not_and (k l : Kleene) : (k.and l).not = k.not.or l.not := by
  cases k <;> cases l <;> rfl

theorem not_or (k l : Kleene) : (k.or l).not = k.not.and l.not := by
  cases k <;> cases l <;> rfl

theorem isTrue_and (k l : Kleene) : (k.and l).isTrue = (k.isTrue && l.isTrue) := by
  cases k <;> cases l <;> rfl

theorem isTrue_or (k l : Kleene) : (k.or l).isTrue = (k.isTrue || l.isTrue) := by
  cases k <;> cases l <;> rfl

theorem isTrue_iff {k : Kleene} : k.isTrue = .true ↔ k = true := by
  cases k <;> decide

theorem signed_not (negated : Bool) (k : Kleene) : signed negated k.not = signed (!negated) k := by
  cases negated <;> cases k <;> rfl

theorem signed_and (negated : Bool) (k l : Kleene) :
    signed negated (k.and l) = if negated then (signed negated k).or (signed negated l)
      else (signed negated k).and (signed negated l) := by
  cases negated
  · rfl
  · exact not_and k l

theorem signed_or (negated : Bool) (k l : Kleene) :
    signed negated (k.or l) = if negated then (signed negated k).and (signed negated l)
      else (signed negated k).or (signed negated l) := by
  cases negated
  · rfl
  · exact not_or k l

theorem isTrue_signed_ofBool (negated b : Bool) : (signed negated (ofBool b)).isTrue = (b != negated) := by
  cases negated <;> cases b <;> rfl

theorem isTrue_signed_unknown (negated : Bool) : (signed negated unknown).isTrue = .false := by
  cases negated <;> rfl

theorem or_assoc (k l m : Kleene) : (k.or l).or m = k.or (l.or m) := by
  cases k <;> cases l <;> cases m <;> rfl

theorem any_append {α : Type} (f : α → Kleene) (as bs : List α) : any f (as ++ bs) = (any f as).or (any f bs) := by
  induction as with
  | nil => cases h : any f bs <;> simp [any, h, Kleene.or]
  | cons a as ih => rw [List.cons_append, any, any, ih, or_assoc]

theorem ofOption_or {α : Type} (o : Option α) (f g : α → Kleene) :
    ofOption o (fun a => (f a).or (g a)) = (ofOption o f).or (ofOption o g) := by
  cases o <;> rfl

theorem ofOption_and {α : Type} (o : Option α) (f g : α → Kleene) :
    ofOption o (fun a => (f a).and (g a)) = (ofOption o f).and (ofOption o g) := by
  cases o <;> rfl

end Kleene
