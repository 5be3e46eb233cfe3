import HetidaDesigner.Library.KeyedList
import HetidaDesigner.Models.Io

/-!
# Python values as literals

Values as they are kept in module-level variables of component code, the expressions which
`ast.unparse` writes for them, and `ast.literal_eval`, which reads expressions. Evaluating the
expression of a value gives the value back.
-/

namespace HetidaDesigner

open KeyedList

/-- Python values. A finite float has a sign and a magnitude, which a number token denotes; dictionaries
have strings as keys. All other values are known by their text only. -/
inductive PyValue (F : Type)
  | none
  | bool (value : Bool)
  | int (value : ℤ)
  | float (negative : Bool) (magnitude : F)
  | str (value : PyStr)
  | list (elements : List (PyValue F))
  | dict (entries : List (PyStr × PyValue F))
  | other (text : PyStr)

/-- Python expressions. Number tokens have no sign, and dictionary displays have string literals as
keys. All other expressions are known by their text only. -/
inductive PyExpr (F : Type)
  | none
  | bool (value : Bool)
  | int (token : ℕ)
  | float (token : F)
  | str (value : PyStr)
  | plus (operand : PyExpr F)
  | minus (operand : PyExpr F)
  | list (elements : List (PyExpr F))
  | dict (entries : List (PyStr × PyExpr F))
  | other (text : PyStr)

section Definitions

variable {F : Type}

mutual

/-- The expression which `ast.unparse` writes for a constant with some value: the `repr` of the
value. -/
def exprOf : PyValue F → PyExpr F
  | .none => .none
  | .bool value => .bool value
  | .int value => if value < 0 then .minus (.int value.natAbs) else .int value.natAbs
  | .float negative magnitude => if negative then .minus (.float magnitude) else .float magnitude
  | .str value => .str value
  | .list elements => .list (exprsOf elements)
  | .dict entries => .dict (entryExprsOf entries)
  | .other text => .other text

/-- The expressions of some values. -/
def exprsOf : List (PyValue F) → List (PyExpr F)
  | [] => []
  | value :: rest => exprOf value :: exprsOf rest

/-- The entries of a dictionary display. -/
def entryExprsOf : List (PyStr × PyValue F) → List (PyStr × PyExpr F)
  | [] => []
  | (key, value) :: rest => (key, exprOf value) :: entryExprsOf rest

end

/-- The number which a sign makes of a number token. -/
def signedNumber (negative : Bool) : PyExpr F → Option (PyValue F)
  | .int token => some (.int (if negative then -token else token))
  | .float token => some (.float negative token)
  | _ => Option.none

mutual

/-- `ast.literal_eval`, given what it makes of other expressions; nothing if it raises. -/
def literalEval (evalOther : PyStr → Option (PyValue F)) : PyExpr F → Option (PyValue F)
  | .none => some .none
  | .bool value => some (.bool value)
  | .int token => some (.int token)
  | .float token => some (.float false token)
  | .str value => some (.str value)
  | .plus operand => signedNumber false operand
  | .minus operand => signedNumber true operand
  | .list elements => (literalEvals evalOther elements).map .list
  | .dict entries =>
    (literalEvalEntries evalOther entries).map fun entries => .dict (insertAll Prod.fst [] entries)
  | .other text => evalOther text

/-- The values of some expressions. -/
def literalEvals (evalOther : PyStr → Option (PyValue F)) :
    List (PyExpr F) → Option (List (PyValue F))
  | [] => some []
  | expr :: rest => do
    let value ← literalEval evalOther expr
    let values ← literalEvals evalOther rest
    return value :: values

/-- The values in a dictionary display. -/
def literalEvalEntries (evalOther : PyStr → Option (PyValue F)) :
    List (PyStr × PyExpr F) → Option (List (PyStr × PyValue F))
  | [] => some []
  | (key, expr) :: rest => do
    let value ← literalEval evalOther expr
    let entries ← literalEvalEntries evalOther rest
    return (key, value) :: entries

end

/-- A value is built from `None`, booleans, integers, strings, finite floats, lists and dictionaries
with different strings as keys. -/
inductive PyValue.IsLiteral : PyValue F → Prop
  | none : IsLiteral .none
  | bool (value : Bool) : IsLiteral (.bool value)
  | int (value : ℤ) : IsLiteral (.int value)
  | float (negative : Bool) (magnitude : F) : IsLiteral (.float negative magnitude)
  | str (value : PyStr) : IsLiteral (.str value)
  | list {elements : List (PyValue F)} :
      (∀ element ∈ elements, IsLiteral element) → IsLiteral (.list elements)
  | dict {entries : List (PyStr × PyValue F)} :
      (entries.map Prod.fst).Nodup → (∀ entry ∈ entries, IsLiteral entry.2) →
        IsLiteral (.dict entries)

end Definitions

section Evaluation

variable {F : Type} {evalOther : PyStr → Option (PyValue F)}

/-- Expressions which give their values back do so in a list. -/
theorem literalEvals_exprsOf {values : List (PyValue F)}
    (h : ∀ value ∈ values, literalEval evalOther (exprOf value) = some value) :
    literalEvals evalOther (exprsOf values) = some values := by
  induction values with
  | nil => rfl
  | cons value rest ih =>
    rw [List.forall_mem_cons] at h
    rw [exprsOf, literalEvals, h.1, ih h.2]
    rfl

/-- Expressions which give their values back do so in a dictionary display. -/
theorem literalEvalEntries_entryExprsOf {entries : List (PyStr × PyValue F)}
    (h : ∀ entry ∈ entries, literalEval evalOther (exprOf entry.2) = some entry.2) :
    literalEvalEntries evalOther (entryExprsOf entries) = some entries := by
  induction entries with
  | nil => rfl
  | cons entry rest ih =>
    rw [List.forall_mem_cons] at h
    rw [entryExprsOf, literalEvalEntries, h.1, ih h.2]
    rfl

/-- The expression of a value gives the value back. -/
theorem literalEval_exprOf {value : PyValue F} (h : value.IsLiteral) :
    literalEval evalOther (exprOf value) = some value := by
  induction h with
  | none => rfl
  | bool value => rfl
  | int value =>
    rw [exprOf]
    split
    · rw [literalEval, signedNumber, if_pos rfl]
      exact congrArg (fun n => some (PyValue.int n)) (by omega)
    · rw [literalEval]
      exact congrArg (fun n => some (PyValue.int n)) (by omega)
  | float negative magnitude => cases negative <;> rfl
  | str value => rfl
  | list _ ih => rw [exprOf, literalEval, literalEvals_exprsOf ih, Option.map_some]
  | dict hkeys _ ih =>
    rw [exprOf, literalEval, literalEvalEntries_entryExprsOf ih, Option.map_some,
      insertAll_of_nodup (by rwa [List.nil_append]), List.nil_append]

end Evaluation

end HetidaDesigner
